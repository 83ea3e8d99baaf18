import Binlog.Proofs.Burst
import Binlog.Proofs.Framing

/-!
# Corruption

An event whose checksum was found valid leaves, with all of its declared bytes taken in, one and the
same remainder (`remainder_of_valid`). Header, body and checksum take part in it alike, and so the
remainder notices a burst in any of them, or across two.

**No second verdict** (`parse_corrupted`). A burst may turn the event into one of another type, or
make a format description name another algorithm. Whatever branch of the decoder it is moved to, the
verdict is not that it is valid. Only the length field has to be spared, since it says which bytes
are the event's.
-/

namespace Binlog

namespace Bytes

/-- Runs of bytes that agree outside a window have the same front and the same back. -/
theorem take_drop_eq_of_agree {bs bs' : Bytes} {start width : Nat}
    (h : ∀ i, bs[i]? ≠ bs'[i]? → start ≤ i ∧ i < start + width) :
    bs.take start = bs'.take start ∧ bs.drop (start + width) = bs'.drop (start + width) := by
  have hagree (i : Nat) (hi : i < start ∨ start + width ≤ i) : bs[i]? = bs'[i]? := by
    by_contra hne
    have := h i hne
    omega
  constructor
  · apply List.ext_getElem?
    intro i
    by_cases hi : i < start
    · rw [List.getElem?_take_of_lt hi, List.getElem?_take_of_lt hi, hagree i (.inl hi)]
    · rw [List.getElem?_take_eq_none (Nat.le_of_not_lt hi),
        List.getElem?_take_eq_none (Nat.le_of_not_lt hi)]
  · apply List.ext_getElem?
    intro i
    rw [List.getElem?_drop, List.getElem?_drop, hagree _ (.inr (Nat.le_add_right _ i))]

theorem declaredLength_eq_of_agree {bs bs' : Bytes} (h : ∀ i, 9 ≤ i → i < 13 → bs[i]? = bs'[i]?) :
    bs.declaredLength = bs'.declaredLength := by
  have hfield : (bs.drop 9).take 4 = (bs'.drop 9).take 4 := by
    apply List.ext_getElem?
    intro i
    by_cases hi : i < 4
    · rw [List.getElem?_take_of_lt hi, List.getElem?_take_of_lt hi, List.getElem?_drop,
        List.getElem?_drop, h (9 + i) (by omega) (by omega)]
    · rw [List.getElem?_take_eq_none (Nat.le_of_not_lt hi),
        List.getElem?_take_eq_none (Nat.le_of_not_lt hi)]
  rw [declaredLength, declaredLength, hfield]

end Bytes

namespace Parser

variable {p : Parser} {bs bs' : Bytes} {e : Event}

theorem declaredLength_of_parse (he : p.parse bs = .ok e) :
    Header.size ≤ bs.declaredLength ∧ bs.declaredLength ≤ bs.length := by
  obtain ⟨h, f, d, rest, hc, ⟨tail, rfl⟩, -, -, -⟩ := parse_eq_ok_iff.mp he
  refine ⟨?_, hc.declaredLength_le tail⟩
  rw [declaredLength_encode_append]
  exact hc.size_le

/-- All declared bytes take part in the verdict, in one and the same way. -/
theorem remainder_of_valid (he : p.parse bs = .ok e) (hv : e.checksum = .valid) :
    (bs.take bs.declaredLength).foldl Crc32.update Crc32.start = Crc32.residue := by
  obtain ⟨h, f, d, rest, hc, ⟨tail, rfl⟩, -, -, rfl⟩ := parse_eq_ok_iff.mp he
  obtain ⟨-, -, hcrc⟩ := Frame.verdict_eq_valid_iff.mp hv
  have hfooter : f.footerBytes =
      Bytes.ofNatLE 4 (Crc32.checksum (h.encode ++ f.body)).toNat := by
    rw [Frame.footerBytes, hcrc]
    rfl
  rw [hc.take_declaredLength tail, Frame.data, hfooter, ← List.append_assoc]
  exact Crc32.checksum_eq_iff.mp rfl

/-- **A corrupted event is not valid.** The bytes `bs'` differ from those of a valid event within
its declared length, and only in a window of four bytes in a row at most, which lies in front of the
length field or behind it. -/
theorem parse_corrupted (p : Parser) (bs bs' : Bytes) (e : Event) (start width : Nat)
    (he : p.parse bs = .ok e) (hv : e.checksum = .valid)
    (hwidth : width ≤ 4) (hfield : start + width ≤ 9 ∨ 13 ≤ start)
    (hwindow : ∀ i, i < bs.declaredLength → bs[i]? ≠ bs'[i]? → start ≤ i ∧ i < start + width)
    (hdiffer : ∃ i, i < bs.declaredLength ∧ bs[i]? ≠ bs'[i]?) :
    ∀ e', p.parse bs' = .ok e' → e'.checksum ≠ .valid := by
  intro e' he' hv'
  obtain ⟨hheader, hle⟩ := declaredLength_of_parse he
  have hsize : Header.size = 19 := rfl
  have hlength : bs.declaredLength = bs'.declaredLength := by
    apply Bytes.declaredLength_eq_of_agree
    intro i hlow hhigh
    by_contra hne
    have := hwindow i (by omega) hne
    omega
  obtain ⟨-, hle'⟩ := declaredLength_of_parse he'
  have hdeclared (i : Nat)
      (hne : (bs.take bs.declaredLength)[i]? ≠ (bs'.take bs.declaredLength)[i]?) :
      start ≤ i ∧ i < start + width := by
    by_cases hi : i < bs.declaredLength
    · rw [List.getElem?_take_of_lt hi, List.getElem?_take_of_lt hi] at hne
      exact hwindow i hi hne
    · rw [List.getElem?_take_eq_none (Nat.le_of_not_lt hi),
        List.getElem?_take_eq_none (Nat.le_of_not_lt hi)] at hne
      exact absurd rfl hne
  obtain ⟨hfront, hback⟩ := Bytes.take_drop_eq_of_agree hdeclared
  have hlens : (bs.take bs.declaredLength).length = (bs'.take bs.declaredLength).length := by
    rw [List.length_take, List.length_take, Nat.min_eq_left hle, Nat.min_eq_left (hlength ▸ hle')]
  have hremainder := remainder_of_valid he' hv'
  rw [← hlength, ← remainder_of_valid he hv] at hremainder
  have heq := Crc32.eq_of_foldl_update_eq start width hwidth hlens hfront hback hremainder.symm
  obtain ⟨i, hi, hne⟩ := hdiffer
  apply hne
  rw [← List.getElem?_take_of_lt hi, heq, List.getElem?_take_of_lt hi]

/-- A stop event of which the flags and the first half of the checksum are overwritten. -/
theorem parse_corrupted_straddling :
    let p : Parser := ⟨true, true, none⟩
    let bs : Bytes := [1, 0, 0, 0, 3, 1, 0, 0, 0, 23, 0, 0, 0, 0, 0, 0, 0, 0, 132, 144, 31, 63, 174]
    let bs' : Bytes := [1, 0, 0, 0, 3, 1, 0, 0, 0, 23, 0, 0, 0, 0, 0, 0, 0, 1, 2, 3, 4, 63, 174]
    (∃ e, p.parse bs = .ok e ∧ e.checksum = .valid) ∧
      ∃ e', p.parse bs' = .ok e' ∧ e'.checksum ≠ .valid := by
  intro p bs bs'
  have he : p.parse bs = .ok
      { header := ⟨1, 3, 1, 23, 0, 0x8400⟩, data := .stop, crc32 := some 0xae3f1f90,
        checksum := .valid, eventSize := 0, bytesConsumed := 0 } := by decide +kernel
  have he' : p.parse bs' = .ok
      { header := ⟨1, 3, 1, 23, 0, 0x0201⟩, data := .stop, crc32 := some 0xae3f0403,
        checksum := .invalid, eventSize := 0, bytesConsumed := 0 } := by decide +kernel
  refine ⟨⟨_, he, rfl⟩, _, he', ?_⟩
  exact parse_corrupted p bs bs' _ 17 4 he rfl (by decide) (.inr (by decide)) (by decide +kernel)
    ⟨18, by decide +kernel, by decide +kernel⟩ _ he'

end Parser

end Binlog
