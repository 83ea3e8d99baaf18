import Binlog.Proofs.Agreement
import Binlog.Proofs.Framing

/-!
# Where an event ends

The header declares the length of the event, and nothing behind that length is looked at. So a
reader that collects the bytes of a log piece by piece can hand over what it has: as long as the
declared bytes are not all there the parser says how many are missing, and from then on its answer
does not change.

**Before the header is complete** no length is declared. The fields of the header have fixed sizes,
so reading it succeeds exactly if there are 19 bytes (`Header.takes_read`), and fails for missing
bytes otherwise (`Header.read_short`).

**Behind the header** only the frame looks at the bytes that follow (`Parser.frame_eq`); the payload
is read from what the frame cuts out of the declared data (`Parser.decode_take`).

Main statement: `Parser.parse_prefix_exact`.
-/

namespace Binlog

open Reader

/-! ## Readers of a fixed size -/

/-- The reader succeeds if there are `n` bytes, and takes them. -/
def Reader.Takes {ε α : Type} (n : Nat) (r : Reader Bytes ε α) : Prop :=
  ∀ s : Bytes, n ≤ s.length → ∃ a, r s = .ok a (s.drop n)

namespace Reader.Takes

variable {ε α β : Type} {n m : Nat}

theorem pure (a : α) : Takes 0 (Pure.pure a : Reader Bytes ε α) := fun _ _ => ⟨a, rfl⟩

theorem bind {x : Reader Bytes ε α} {f : α → Reader Bytes ε β} (hx : Takes n x)
    (hf : ∀ a, Takes m (f a)) : Takes (n + m) (x >>= f) := by
  intro s hs
  obtain ⟨a, ha⟩ := hx s (Nat.le_of_add_right_le hs)
  obtain ⟨b, hb⟩ := hf a (s.drop n) (by rw [List.length_drop]; omega)
  rw [List.drop_drop] at hb
  exact ⟨b, bind_eq_ok_iff.mpr ⟨a, _, ha, hb⟩⟩

variable [OfReadError ε]

theorem take (n : Nat) : Takes n (Reader.take n : Reader Bytes ε Bytes) := by
  intro s hs
  refine ⟨s.take n, take_eq_ok_iff.mpr ⟨List.length_take_of_le hs, ?_⟩⟩
  exact (List.take_append_drop n s).symm

theorem number (f : NumberFormat) : Takes f.width (Reader.number f : Reader Bytes ε Nat) :=
  (take f.width).bind fun _ => .pure _

theorem u8 : Takes 1 (Reader.u8 : Reader Bytes ε UInt8) :=
  (number (.little 1)).bind fun _ => .pure _

theorem u16 : Takes 2 (Reader.u16 : Reader Bytes ε UInt16) :=
  (number (.little 2)).bind fun _ => .pure _

theorem u32 : Takes 4 (Reader.u32 : Reader Bytes ε UInt32) :=
  (number (.little 4)).bind fun _ => .pure _

theorem u64 : Takes 8 (Reader.u64 : Reader Bytes ε UInt64) :=
  (number (.little 8)).bind fun _ => .pure _

end Reader.Takes

/-! ## Headers -/

namespace Header

theorem takes_read : Takes size (read : Reader Bytes DecodeError Header) :=
  Takes.u32.bind fun _ => Takes.u8.bind fun _ => Takes.u32.bind fun _ => Takes.u32.bind fun _ =>
    Takes.u32.bind fun _ => Takes.u16.bind fun _ => .pure _

/-- Bytes that suffice for a header start with one. -/
theorem exists_encode_append {bs : Bytes} (hbs : size ≤ bs.length) :
    ∃ (h : Header) (rest : Bytes), bs = h.encode ++ rest := by
  obtain ⟨h, hread⟩ := takes_read bs hbs
  exact ⟨h, _, read_eq_ok_iff.mp hread⟩

theorem read_short {bs : Bytes} (hbs : bs.length < size) :
    ∃ n, bs.read (read : Reader Bytes DecodeError Header) =
      .error (.read (.incomplete (.size n))) := by
  have hagrees := agrees_read (σ := Bytes) (R := Eq)
    (E := fun e : DecodeError => ∃ n, e = .read (.incomplete (.size n))) (.refl fun n => ⟨n, rfl⟩)
  unfold Bytes.read
  cases hread : (read : Reader Bytes DecodeError Header) bs with
  | ok h rest =>
    have hlen := congrArg List.length (read_eq_ok_iff.mp hread)
    rw [List.length_append, h.length_encode] at hlen
    omega
  | error e rest =>
    obtain ⟨n, rfl⟩ := hagrees.admitted rfl hread
    exact ⟨n, rfl⟩

end Header

namespace Parser

variable (p : Parser) (h : Header)

/-! ## Behind a header -/

theorem parse_encode_append (rest : Bytes) : p.parse (h.encode ++ rest) = p.decode h rest := by
  have hread : (h.encode ++ rest).read Header.read = Except.ok (ε := DecodeError) (h, rest) :=
    Bytes.read_eq_ok_iff.mpr (Header.read_eq_ok_iff.mpr rfl)
  rw [parse, hread]
  rfl

theorem decode_short_length {rest : Bytes} (hshort : h.eventLength.toNat < Header.size) :
    p.decode h rest = .error (.invalidEventLength h.eventLength) := by
  rw [decode, frame_eq, if_pos hshort]
  rfl

theorem decode_incomplete {rest : Bytes} (hsize : Header.size ≤ h.eventLength.toNat)
    (hrest : rest.length < h.dataLength) :
    p.decode h rest = .error (.read (.incomplete (.size (h.dataLength - rest.length)))) := by
  rw [decode, frame_eq, if_neg (Nat.not_lt_of_le hsize), if_neg (Nat.not_le_of_lt hrest)]
  rfl

/-- Only the declared data is looked at. -/
theorem decode_take {rest : Bytes} (hrest : h.dataLength ≤ rest.length) :
    p.decode h (rest.take h.dataLength) = p.decode h rest := by
  have hlen : h.dataLength ≤ (rest.take h.dataLength).length :=
    Nat.le_of_eq (List.length_take_of_le hrest).symm
  have hdata : (rest.take h.dataLength).take h.dataLength = rest.take h.dataLength :=
    List.take_of_length_le (List.length_take_le _ _)
  rw [decode, decode, frame_eq, frame_eq, footer, footer, if_pos hlen, if_pos hrest, hdata]

theorem decode_append {rest : Bytes} (hrest : h.dataLength ≤ rest.length) (tail : Bytes) :
    p.decode h (rest ++ tail) = p.decode h rest := by
  have hlen : h.dataLength ≤ (rest ++ tail).length := by
    rw [List.length_append]
    omega
  rw [← p.decode_take h hlen, ← p.decode_take h hrest, List.take_append_of_le_length hrest]

/-! ## From the first byte on -/

variable {bs : Bytes}

theorem parse_short (hbs : bs.length < Header.size) :
    ∃ e, p.parse bs = .error e ∧ e.isUnderrun = true := by
  obtain ⟨n, hread⟩ := Header.read_short hbs
  refine ⟨.read (.incomplete (.size n)), ?_, rfl⟩
  rw [parse, hread]
  rfl

theorem parse_short_length (hbs : Header.size ≤ bs.length)
    (hshort : bs.declaredLength < Header.size) :
    p.parse bs = .error (.invalidEventLength (.ofNat bs.declaredLength)) := by
  obtain ⟨h, rest, rfl⟩ := Header.exists_encode_append hbs
  rw [declaredLength_encode_append] at hshort ⊢
  rw [parse_encode_append, p.decode_short_length h hshort, UInt32.ofNat_toNat]

theorem parse_incomplete (hbs : Header.size ≤ bs.length) (hsize : Header.size ≤ bs.declaredLength)
    (hlt : bs.length < bs.declaredLength) :
    p.parse bs = .error (.read (.incomplete (.size (bs.declaredLength - bs.length)))) := by
  obtain ⟨h, rest, rfl⟩ := Header.exists_encode_append hbs
  have hmissing : h.dataLength - rest.length =
      Bytes.declaredLength (h.encode ++ rest) - (h.encode ++ rest).length := by
    rw [declaredLength_encode_append, List.length_append, h.length_encode, Header.dataLength,
      Nat.sub_sub]
  have hrest : rest.length < h.dataLength := by omega
  rw [declaredLength_encode_append] at hsize
  rw [parse_encode_append, p.decode_incomplete h hsize hrest, hmissing]

variable {h} in
theorem dataLength_le {rest : Bytes}
    (hle : Bytes.declaredLength (h.encode ++ rest) ≤ (h.encode ++ rest).length) :
    h.dataLength ≤ rest.length := by
  rw [declaredLength_encode_append, List.length_append, h.length_encode] at hle
  rw [Header.dataLength]
  omega

theorem parse_take (hsize : Header.size ≤ bs.declaredLength) (hle : bs.declaredLength ≤ bs.length) :
    p.parse (bs.take bs.declaredLength) = p.parse bs := by
  obtain ⟨h, rest, rfl⟩ := Header.exists_encode_append (Nat.le_trans hsize hle)
  have hrest := dataLength_le hle
  rw [declaredLength_encode_append] at hsize ⊢
  have htake : (h.encode ++ rest).take h.eventLength.toNat =
      h.encode ++ rest.take h.dataLength := by
    rw [List.take_append, h.length_encode, Header.dataLength, List.take_of_length_le]
    rwa [h.length_encode]
  rw [htake, parse_encode_append, parse_encode_append, p.decode_take h hrest]

theorem parse_append (hbs : Header.size ≤ bs.length) (hle : bs.declaredLength ≤ bs.length)
    (tail : Bytes) : p.parse (bs ++ tail) = p.parse bs := by
  obtain ⟨h, rest, rfl⟩ := Header.exists_encode_append hbs
  rw [List.append_assoc, parse_encode_append, parse_encode_append,
    p.decode_append h (dataLength_le hle)]

/-- The length that is declared stands in the header. -/
theorem declaredLength_take (hbs : Header.size ≤ bs.length) {n : Nat} (hn : Header.size ≤ n) :
    Bytes.declaredLength (bs.take n) = bs.declaredLength := by
  obtain ⟨h, rest, rfl⟩ := Header.exists_encode_append hbs
  rw [List.take_append, List.take_of_length_le (by rwa [h.length_encode]),
    declaredLength_encode_append, declaredLength_encode_append]

/-- An event is accepted only if the declared bytes are all there. -/
theorem size_le_of_parse {e : Event} (he : p.parse bs = .ok e) :
    Header.size ≤ bs.declaredLength ∧ bs.declaredLength ≤ bs.length := by
  obtain ⟨h, f, d, rest, hcuts, ⟨tail, rfl⟩, -⟩ := parse_eq_ok_iff.mp he
  refine ⟨?_, hcuts.declaredLength_le tail⟩
  rw [declaredLength_encode_append]
  exact hcuts.size_le

theorem parse_take_of_lt {e : Event} (he : p.parse bs = .ok e) {n : Nat}
    (hn : n < bs.declaredLength) :
    ∃ e', p.parse (bs.take n) = .error e' ∧ e'.isUnderrun = true := by
  obtain ⟨hsize, hle⟩ := p.size_le_of_parse he
  have hlen : (bs.take n).length = n := List.length_take_of_le (by omega)
  by_cases hheader : n < Header.size
  · exact p.parse_short (by rwa [hlen])
  · have hdeclared := declaredLength_take (Nat.le_trans hsize hle) (Nat.le_of_not_lt hheader)
    refine ⟨_, p.parse_incomplete ?_ ?_ ?_, rfl⟩
    · omega
    · rwa [hdeclared]
    · rwa [hdeclared, hlen]

/-- **Events end where they say.** Without a whole header, bytes are missing. With one, the declared
length is rejected, or tells how many bytes are missing, or how many are looked at. So each proper
part of an accepted event lacks bytes, and nothing behind an event changes how it is decoded. -/
theorem parse_prefix_exact (p : Parser) (bs : Bytes) :
    (bs.length < Header.size → ∃ e, p.parse bs = .error e ∧ e.isUnderrun = true) ∧
      (Header.size ≤ bs.length → bs.declaredLength < Header.size →
        p.parse bs = .error (.invalidEventLength (.ofNat bs.declaredLength))) ∧
      (Header.size ≤ bs.length → Header.size ≤ bs.declaredLength →
        bs.length < bs.declaredLength →
          p.parse bs = .error (.read (.incomplete (.size (bs.declaredLength - bs.length))))) ∧
      (Header.size ≤ bs.declaredLength → bs.declaredLength ≤ bs.length →
        p.parse bs = p.parse (bs.take bs.declaredLength)) ∧
      (∀ e, p.parse bs = .ok e → ∀ n < bs.declaredLength,
        ∃ e', p.parse (bs.take n) = .error e' ∧ e'.isUnderrun = true) ∧
      (Header.size ≤ bs.length → bs.declaredLength ≤ bs.length →
        ∀ tail, p.parse (bs ++ tail) = p.parse bs) :=
  ⟨p.parse_short, p.parse_short_length, p.parse_incomplete,
    fun hsize hle => (p.parse_take hsize hle).symm, fun _ he _ hn => p.parse_take_of_lt he hn,
    p.parse_append⟩

/-- An integer of four bytes with a byte behind it, cut at several places, and a header that
declares less than its own length. -/
theorem parse_prefix_exact_intvar :
    let p : Parser := ⟨false, true, none⟩
    let bs : Bytes :=
      [0, 0, 0, 0, 5, 1, 0, 0, 0, 24, 0, 0, 0, 0, 0, 0, 0, 0, 0, 2, 5, 0, 0, 0, 99]
    let short : Bytes := [0, 0, 0, 0, 5, 1, 0, 0, 0, 7, 0, 0, 0, 0, 0, 0, 0, 0, 0, 2]
    ∃ e, p.parse bs = .ok e ∧ p.parse (bs.take 24) = .ok e ∧ p.parse (bs ++ [1, 2]) = .ok e ∧
      (∀ n < 24, ∃ e', p.parse (bs.take n) = .error e' ∧ e'.isUnderrun = true) ∧
      p.parse (bs.take 21) = .error (.read (.incomplete (.size 3))) ∧
      (∃ e', p.parse (bs.take 7) = .error e' ∧ e'.isUnderrun = true) ∧
      p.parse short = .error (.invalidEventLength 7) := by
  intro p bs short
  have he : p.parse bs = .ok
      { header := ⟨0, 5, 1, 24, 0, 0⟩, data := .intvar ⟨.insertId, 5⟩, crc32 := none,
        checksum := .notChecked, eventSize := 5, bytesConsumed := 5 } := by decide +kernel
  obtain ⟨-, -, -, htake, hprefix, happend⟩ := parse_prefix_exact p bs
  obtain ⟨-, -, hmissing, -⟩ := parse_prefix_exact p (bs.take 21)
  obtain ⟨hheader, -⟩ := parse_prefix_exact p (bs.take 7)
  obtain ⟨-, hshort, -⟩ := parse_prefix_exact p short
  refine ⟨_, he, (htake (by decide) (by decide)).symm.trans he, ?_, hprefix _ he,
    hmissing (by decide) (by decide) (by decide), hheader (by decide),
    hshort (by decide) (by decide)⟩
  exact (happend (by decide) (by decide) [1, 2]).trans he

end Parser

end Binlog
