import Binlog.Bytes.Number

/-!
# CRC-32

The checksum of 32 bits that network frames and archives use: the remainder of a polynomial
division over GF(2). The register holds the remainder with the highest power in the lowest bit; it
starts with all bits set and is complemented at the end. The polynomial, without its highest term,
is `0xEDB88320` in that order of bits.
-/

namespace Binlog.Crc32

/-- The remainder so far. -/
abbrev Register := BitVec 32

/-- The polynomial that is divided by. -/
def polynomial : Register := 0xEDB88320#32

/-- Takes one more power into the remainder. -/
def shift (r : Register) : Register :=
  if r.getLsbD 0 then (r >>> 1) ^^^ polynomial else r >>> 1

/-- Takes `n` more powers into the remainder. -/
def shifts : (n : Nat) → Register → Register
  | 0, r => r
  | n + 1, r => shifts n (shift r)

/-- Takes a byte into the remainder. -/
def update (r : Register) (b : UInt8) : Register := shifts 8 (r ^^^ b.toBitVec.zeroExtend 32)

/-- The remainder before the first byte. -/
def start : Register := BitVec.allOnes 32

/-- The checksum of a run of bytes. -/
def checksum (bs : Bytes) : UInt32 := ⟨~~~(bs.foldl update start)⟩

example : checksum [0x31, 0x32, 0x33, 0x34, 0x35, 0x36, 0x37, 0x38, 0x39] = 0xCBF43926 := by
  decide +kernel

end Binlog.Crc32
