import Binlog.Crc32

/-!
# Bursts

Taking powers into the remainder is linear over exclusive or (`shifts_xor`) and loses nothing
(`shifts_injective`): the bit that falls out decides the highest bit of what is left. Up to four
bytes enter the remainder as one word (`foldl_update`), since each of them only moves down while the
ones in front of it are taken in.

**Bursts** (`eq_of_foldl_update_eq`). So two runs of bytes that leave the same remainder and differ
within a window of four bytes are equal. The checksum behind the bytes is taken in like four more of
them, and leaves a remainder that does not depend on the bytes (`checksum_eq_iff`).
-/

namespace Binlog.Crc32

/-! ## Single powers -/

theorem shift_xor (r s : Register) : shift (r ^^^ s) = shift r ^^^ shift s := by
  have hcancel : (r ^^^ s) >>> 1 = (r >>> 1 ^^^ polynomial) ^^^ (s >>> 1 ^^^ polynomial) := by
    rw [BitVec.ushiftRight_xor_distrib, BitVec.xor_assoc, BitVec.xor_comm _ (s >>> 1 ^^^ _),
      BitVec.xor_assoc (s >>> 1), BitVec.xor_self, BitVec.xor_zero]
  unfold shift
  rw [BitVec.getLsbD_xor]
  cases r.getLsbD 0 <;> cases s.getLsbD 0
  · exact BitVec.ushiftRight_xor_distrib r s 1
  · simp only [Bool.false_bne, if_true, Bool.false_eq_true, if_false]
    rw [BitVec.ushiftRight_xor_distrib, BitVec.xor_assoc]
  · simp only [Bool.bne_false, if_true, Bool.false_eq_true, if_false]
    rw [BitVec.ushiftRight_xor_distrib, BitVec.xor_assoc, BitVec.xor_assoc,
      BitVec.xor_comm polynomial]
  · exact hcancel

/-- The highest bit of the polynomial is set, so the bit that falls out is still there. -/
theorem getLsbD_shift_last (r : Register) : (shift r).getLsbD 31 = r.getLsbD 0 := by
  have hout : (r >>> 1).getLsbD 31 = false := by
    rw [BitVec.getLsbD_ushiftRight]
    exact BitVec.getLsbD_of_ge r 32 (by omega)
  unfold shift
  split
  next h => rw [BitVec.getLsbD_xor, hout, h]; rfl
  next h => rw [hout, eq_false_of_ne_true h]

theorem shift_injective {r s : Register} (h : shift r = shift s) : r = s := by
  have hlow : r.getLsbD 0 = s.getLsbD 0 := by
    rw [← getLsbD_shift_last, h, getLsbD_shift_last]
  have hhigh : r >>> 1 = s >>> 1 := by
    unfold shift at h
    rw [hlow] at h
    split at h
    · exact (BitVec.xor_left_inj polynomial).mp h
    · exact h
  apply BitVec.eq_of_getLsbD_eq
  intro i hi
  cases i with
  | zero => exact hlow
  | succ i =>
    have hbit := congrArg (BitVec.getLsbD · i) hhigh
    simp only [BitVec.getLsbD_ushiftRight] at hbit
    rwa [Nat.add_comm 1 i] at hbit

theorem shift_ofNat_double (n : Nat) (h : 2 * n < 2 ^ 32) :
    shift (.ofNat 32 (2 * n)) = .ofNat 32 n := by
  have heven : (BitVec.ofNat 32 (2 * n)).getLsbD 0 = false := by
    rw [BitVec.getLsbD_ofNat, Nat.testBit_zero, Nat.mul_mod_right]
    rfl
  unfold shift
  rw [heven, if_neg (by decide)]
  apply BitVec.eq_of_toNat_eq
  rw [BitVec.toNat_ushiftRight, BitVec.toNat_ofNat, BitVec.toNat_ofNat, Nat.mod_eq_of_lt h,
    Nat.mod_eq_of_lt (by omega), Nat.shiftRight_eq_div_pow]
  omega

/-! ## Many powers -/

theorem shifts_add (m n : Nat) (r : Register) : shifts (m + n) r = shifts n (shifts m r) := by
  induction m generalizing r with
  | zero => rw [Nat.zero_add, shifts]
  | succ m ih => rw [Nat.add_right_comm, shifts, shifts, ih]

theorem shifts_xor (n : Nat) (r s : Register) :
    shifts n (r ^^^ s) = shifts n r ^^^ shifts n s := by
  induction n generalizing r s with
  | zero => rfl
  | succ n ih => rw [shifts, shifts, shifts, shift_xor, ih]

theorem shifts_injective {n : Nat} {r s : Register} (h : shifts n r = shifts n s) : r = s := by
  induction n generalizing r s with
  | zero => exact h
  | succ n ih => exact shift_injective (ih h)

theorem shifts_ofNat_pow (n m : Nat) (h : 2 ^ n * m < 2 ^ 32) :
    shifts n (.ofNat 32 (2 ^ n * m)) = .ofNat 32 m := by
  induction n with
  | zero => rw [shifts, Nat.pow_zero, Nat.one_mul]
  | succ n ih =>
    have hdouble : 2 ^ (n + 1) * m = 2 * (2 ^ n * m) := by
      rw [Nat.pow_succ, Nat.mul_comm (2 ^ n), Nat.mul_assoc]
    rw [hdouble] at h ⊢
    rw [shifts, shift_ofNat_double _ h, ih (by omega)]

/-! ## Bytes -/

theorem toNatLE_lt_of_length_le {bs : Bytes} {n : Nat} (h : bs.length ≤ n) :
    bs.toNatLE < 256 ^ n :=
  Nat.lt_of_lt_of_le bs.toNatLE_lt (Nat.pow_le_pow_right (by decide) h)

/-- The bytes as a word, of which there may be four. -/
def word (bs : Bytes) : Register := .ofNat 32 bs.toNatLE

theorem word_cons (b : UInt8) (bs : Bytes) :
    word (b :: bs) = b.toBitVec.zeroExtend 32 ^^^ .ofNat 32 (2 ^ 8 * bs.toNatLE) := by
  have hb := b.toNat_lt
  apply BitVec.eq_of_getLsbD_eq
  intro i hi
  rw [word, Bytes.toNatLE, Nat.add_comm, BitVec.getLsbD_xor, BitVec.getLsbD_ofNat,
    BitVec.getLsbD_ofNat, BitVec.getLsbD_setWidth,
    show 256 * bs.toNatLE = 2 ^ 8 * bs.toNatLE from rfl, Nat.testBit_two_pow_mul_add _ hb,
    Nat.testBit_two_pow_mul]
  simp only [hi, decide_true, Bool.true_and]
  by_cases hlow : i < 8
  · rw [if_pos hlow, decide_eq_false (by omega), Bool.false_and, Bool.xor_false]
    rfl
  · rw [if_neg hlow, decide_eq_true (by omega), Bool.true_and,
      BitVec.getLsbD_of_ge _ i (by omega), Bool.false_xor]

theorem word_injective {bs bs' : Bytes} (hlen : bs.length = bs'.length) (hfour : bs.length ≤ 4)
    (h : word bs = word bs') : bs = bs' := by
  have hlt : bs.toNatLE < 2 ^ 32 := toNatLE_lt_of_length_le hfour
  have hlt' : bs'.toNatLE < 2 ^ 32 := toNatLE_lt_of_length_le (hlen ▸ hfour)
  have hnat := congrArg BitVec.toNat h
  rw [word, word, BitVec.toNat_ofNat, BitVec.toNat_ofNat, Nat.mod_eq_of_lt hlt,
    Nat.mod_eq_of_lt hlt'] at hnat
  rw [← bs.ofNatLE_toNatLE, hlen, hnat, bs'.ofNatLE_toNatLE]

/-- Up to four bytes enter the remainder at once. -/
theorem foldl_update (r : Register) (bs : Bytes) (h : bs.length ≤ 4) :
    bs.foldl update r = shifts (8 * bs.length) (r ^^^ word bs) := by
  induction bs generalizing r with
  | nil =>
    rw [List.foldl_nil, List.length_nil, Nat.mul_zero, shifts, word, Bytes.toNatLE]
    exact BitVec.xor_zero.symm
  | cons b bs ih =>
    have hlen : bs.length < 4 := h
    have hthree := toNatLE_lt_of_length_le (Nat.le_of_lt_succ hlen)
    have hbs : 2 ^ 8 * Bytes.toNatLE bs < 2 ^ 32 := by omega
    -- the bytes behind `b` stand eight places higher, and come down while `b` is taken in
    rw [List.foldl_cons, ih _ (by omega), update, word, ← shifts_ofNat_pow 8 _ hbs, ← shifts_xor,
      ← shifts_add, BitVec.xor_assoc, ← word_cons b bs, List.length_cons, Nat.mul_succ,
      Nat.add_comm]

theorem foldl_update_injective {r s : Register} (bs : Bytes)
    (h : bs.foldl update r = bs.foldl update s) : r = s := by
  induction bs generalizing r s with
  | nil => exact h
  | cons b bs ih => exact (BitVec.xor_left_inj _).mp (shifts_injective (ih h))

theorem eq_of_foldl_update_eq_of_length_le {r : Register} {bs bs' : Bytes}
    (hlen : bs.length = bs'.length) (hfour : bs.length ≤ 4)
    (h : bs.foldl update r = bs'.foldl update r) : bs = bs' := by
  rw [foldl_update r bs hfour, foldl_update r bs' (hlen ▸ hfour), ← hlen] at h
  have hword := (BitVec.xor_right_inj r).mp (shifts_injective h)
  exact word_injective hlen hfour hword

/-- **Bursts are noticed.** Runs that leave equal remainders do not differ in four bytes in a row
alone. -/
theorem eq_of_foldl_update_eq {r : Register} {bs bs' : Bytes} (start width : Nat)
    (hwidth : width ≤ 4) (hlen : bs.length = bs'.length) (hfront : bs.take start = bs'.take start)
    (hback : bs.drop (start + width) = bs'.drop (start + width))
    (h : bs.foldl update r = bs'.foldl update r) : bs = bs' := by
  have hsplit (cs : Bytes) : cs =
      cs.take start ++ ((cs.drop start).take width ++ cs.drop (start + width)) := by
    rw [← List.drop_drop, List.take_append_drop, List.take_append_drop]
  rw [hsplit bs, hsplit bs', hfront, hback]
  rw [hsplit bs, hsplit bs', hfront, hback, List.foldl_append, List.foldl_append,
    List.foldl_append, List.foldl_append] at h
  have hlengths : ((bs.drop start).take width).length = ((bs'.drop start).take width).length := by
    rw [List.length_take, List.length_take, List.length_drop, List.length_drop, hlen]
  have hfour : ((bs.drop start).take width).length ≤ 4 :=
    Nat.le_trans (List.length_take_le _ _) hwidth
  rw [eq_of_foldl_update_eq_of_length_le hlengths hfour (foldl_update_injective _ h)]

/-! ## Checksums -/

/-- What is left of bytes and the checksum behind them. -/
def residue : Register := shifts 32 (.allOnes 32)

theorem word_ofNatLE (n : UInt32) : word (Bytes.ofNatLE 4 n.toNat) = n.toBitVec := by
  rw [word, Bytes.toNatLE_ofNatLE 4 n.toNat n.toNat_lt]
  exact (BitVec.ofNat_toNat 32 n.toBitVec).trans (BitVec.setWidth_eq n.toBitVec)

theorem checksum_eq_iff {bs : Bytes} {n : UInt32} :
    checksum bs = n ↔ (bs ++ Bytes.ofNatLE 4 n.toNat).foldl update start = residue := by
  have hfour : (Bytes.ofNatLE 4 n.toNat).length = 4 := Bytes.length_ofNatLE 4 n.toNat
  rw [List.foldl_append, foldl_update _ _ (by omega), hfour, word_ofNatLE, residue]
  refine ⟨fun h => ?_, fun h => ?_⟩
  · rw [← h, checksum, ← BitVec.xor_allOnes, ← BitVec.xor_assoc, BitVec.xor_self, BitVec.zero_xor]
  · have hones := shifts_injective h
    apply UInt32.toBitVec_inj.mp
    show ~~~(bs.foldl update start) = n.toBitVec
    rw [← BitVec.xor_allOnes, ← hones, ← BitVec.xor_assoc, BitVec.xor_self, BitVec.zero_xor]

end Binlog.Crc32
