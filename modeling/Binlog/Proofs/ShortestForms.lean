import Binlog.Proofs.Writing

/-!
# Shortest forms of integers

A number can be written as a length-encoded integer in more than one form: the tag of a wide form
may stand in front of a small number too. `LenEncInt.ofUInt64` takes the narrowest form that the
number fits in, and no run of bytes that is read as the number is shorter.

**Ranges.** A form of one byte holds the numbers below 251, and every other form those that its
payload can hold. So the length of a form bounds its number (`ranges`), and the other way round the
number alone tells the length of the shortest form (`length_encode_ofUInt64`).

**Tags.** A form is read back unless it is one byte from 251 on. That byte is read as the tag it
looks like, so what it gives, if it gives anything, is another form.

**Ends.** What is read is settled by the bytes that are passed over, so a run of bytes that is read
to its end is not the front of another one.

Main statement: `LenEncInt.forms_shortest`.
-/

namespace Binlog.LenEncInt

open Reader

/-! ## The shortest form -/

/-- The form of a number goes by the range that the number is in. -/
theorem ofUInt64_eq (n : UInt64) : ofUInt64 n =
    if n.toNat < 0xfb then len1 n.toUInt8
    else if n.toNat < 256 ^ 2 then len3 n.toUInt16
    else if n.toNat < 256 ^ 3 then len4 n.toUInt32
    else len9 n := by
  have hone : n < 0xfb ↔ n.toNat < 0xfb := UInt64.lt_iff_toNat_lt
  have htwo : n ≤ 0xffff ↔ n.toNat < 256 ^ 2 := UInt64.le_iff_toNat_le.trans Nat.lt_succ_iff.symm
  have hthree : n ≤ 0xffffff ↔ n.toNat < 256 ^ 3 :=
    UInt64.le_iff_toNat_le.trans Nat.lt_succ_iff.symm
  simp only [ofUInt64, hone, htwo, hthree]

/-- The shortest form stands for the number. -/
theorem toUInt64?_ofUInt64 (n : UInt64) : (ofUInt64 n).toUInt64? = some n := by
  rw [ofUInt64_eq]
  split_ifs with h1 h2 h3
  · have hn : n.toUInt8.toUInt64 = n := by
      apply UInt64.toNat.inj
      rw [UInt8.toNat_toUInt64, UInt64.toNat_toUInt8]
      omega
    rw [toUInt64?, hn]
  · have hn : n.toUInt16.toUInt64 = n := by
      apply UInt64.toNat.inj
      rw [UInt16.toNat_toUInt64, UInt64.toNat_toUInt16]
      omega
    rw [toUInt64?, hn]
  · have hn : n.toUInt32.toUInt64 = n := by
      apply UInt64.toNat.inj
      rw [UInt32.toNat_toUInt64, UInt64.toNat_toUInt32]
      omega
    rw [toUInt64?, hn]
  · rfl

/-- The shortest form is read back: its byte is no tag, and its payload holds the number. -/
theorem fits_ofUInt64 (n : UInt64) : (ofUInt64 n).Fits := by
  rw [ofUInt64_eq]
  split_ifs with h1 h2 h3
  · apply UInt8.lt_iff_toNat_lt.mpr
    rw [UInt64.toNat_toUInt8]
    exact Nat.lt_of_le_of_lt (Nat.mod_le _ _) h1
  · exact True.intro
  · change n.toUInt32.toNat < 256 ^ 3
    rw [UInt64.toNat_toUInt32]
    exact Nat.lt_of_le_of_lt (Nat.mod_le _ _) h3
  · exact True.intro

/-! ## Lengths -/

theorem length_encode_ofUInt64 (n : UInt64) : (ofUInt64 n).encode.length =
    if n.toNat < 0xfb then 1 else if n.toNat < 256 ^ 2 then 3
    else if n.toNat < 256 ^ 3 then 4 else 9 := by
  rw [ofUInt64_eq]
  split_ifs <;> simp [encode, NumberFormat.little]

/-- The length of a form bounds the number that it stands for. -/
theorem ranges {v : LenEncInt} {n : UInt64} (hfits : v.Fits) (hv : v.toUInt64? = some n) :
    v.encode.length = 1 ∧ n.toNat < 0xfb ∨ v.encode.length = 3 ∧ n.toNat < 256 ^ 2 ∨
      v.encode.length = 4 ∧ n.toNat < 256 ^ 3 ∨ v.encode.length = 9 := by
  cases v with
  | null => cases hv
  | err => cases hv
  | len1 m =>
    cases hv
    have hm : m.toNat < 0xfb := UInt8.lt_iff_toNat_lt.mp hfits
    exact .inl ⟨rfl, by simpa using hm⟩
  | len3 m =>
    cases hv
    have hm := m.toNat_lt
    exact .inr (.inl ⟨by simp [encode, NumberFormat.little], by simpa using hm⟩)
  | len4 m =>
    cases hv
    have hm : m.toNat < 256 ^ 3 := hfits
    exact .inr (.inr (.inl ⟨by simp [encode, NumberFormat.little], by simpa using hm⟩))
  | len9 m => exact .inr (.inr (.inr (by simp [encode, NumberFormat.little])))

/-- No form of a number is shorter than the shortest. -/
theorem length_encode_le {v : LenEncInt} {n : UInt64} (hfits : v.Fits)
    (hv : v.toUInt64? = some n) : (ofUInt64 n).encode.length ≤ v.encode.length := by
  rw [length_encode_ofUInt64]
  have hranges := ranges hfits hv
  split_ifs <;> omega

/-! ## Tags -/

section Reading

variable {ε : Type} [OfReadError ε] {s s' t : Bytes} {v w : LenEncInt}

/-- A form whose payload is not too large fits, unless it is one byte that looks like a tag. -/
theorem fits_iff (hpayload : ∀ n, v = len4 n → n.toNat < 2 ^ 24) :
    v.Fits ↔ ¬ ∃ n, 0xfb ≤ n ∧ v = len1 n := by
  cases v with
  | len1 n =>
    constructor
    · intro hfits htag
      obtain ⟨m, hm, heq⟩ := htag
      cases heq
      exact absurd hm (UInt8.not_le.mpr hfits)
    · intro htag
      by_contra hfits
      exact htag ⟨n, UInt8.not_lt.mp hfits, rfl⟩
  | len4 n => exact iff_of_true (hpayload n rfl) (by simp)
  | _ => exact iff_of_true True.intro (by simp)

/-- A form is read back exactly if it fits. -/
theorem read_encode_iff (v : LenEncInt) (tail : Bytes) :
    (lenEncInt : Reader Bytes ε LenEncInt) (v.encode ++ tail) = .ok v tail ↔ v.Fits :=
  lenEncInt_eq_ok_iff.trans (and_iff_left rfl)

/-- What a tag is read as is not one byte. -/
theorem ne_len1_of_read_tag {n : UInt8} (hn : 0xfb ≤ n)
    (h : (lenEncInt : Reader Bytes ε LenEncInt) ((len1 n).encode ++ s) = .ok w t) (m : UInt8) :
    w ≠ len1 m := by
  intro hw
  rw [hw] at h
  obtain ⟨hfits, hs⟩ := lenEncInt_eq_ok_iff.mp h
  obtain ⟨rfl, -⟩ := List.cons.inj hs
  exact absurd hn (UInt8.not_le.mpr hfits)

/-! ## Ends -/

/-- A run of bytes that is read as a number is at least as long as the number's shortest form. -/
theorem length_encode_le_of_read {n : UInt64}
    (h : (lenEncInt : Reader Bytes ε LenEncInt) (s ++ t) = .ok v t)
    (hv : v.toUInt64? = some n) : (ofUInt64 n).encode.length ≤ s.length := by
  obtain ⟨hfits, hs⟩ := lenEncInt_eq_ok_iff.mp h
  rw [List.append_cancel_right hs]
  exact length_encode_le hfits hv

/-- A run of bytes that is read to its end is not the front of another one. -/
theorem eq_of_isPrefix (h : (lenEncInt : Reader Bytes ε LenEncInt) s = .ok v [])
    (h' : (lenEncInt : Reader Bytes ε LenEncInt) s' = .ok w []) (hfront : s <+: s') : s = s' := by
  obtain ⟨more, rfl⟩ := hfront
  obtain ⟨hfits, hs⟩ := lenEncInt_eq_ok_iff.mp h
  rw [List.append_nil] at hs
  -- behind the first run the reader would stop, so the second one has no more bytes
  have hmore := (read_encode_iff (ε := ε) v more).mpr hfits
  rw [← hs, h'] at hmore
  cases hmore
  exact (List.append_nil s).symm

end Reading

theorem alike_lenEncInt : Cursor.Alike (lenEncInt : Reader Cursor ReadError LenEncInt) lenEncInt :=
  fun buffer => Agrees.lenEncInt (Cursor.simulation buffer fun _ => True.intro)

/-! ## The main result -/

/-- **Shortest forms.** Every number has a form that stands for it, is read back from either source
whatever stands behind, and is no longer than any other run of bytes that is read as the number. A
form whose payload is not too large is read back exactly if it is not one byte that looks like a
tag, which is never read as one byte. No run of bytes that is read to its end is a proper front of
another. -/
theorem forms_shortest :
    (∀ (n : UInt64) (buffer tail : Bytes), (ofUInt64 n).toUInt64? = some n ∧ ∃ form : Bytes,
      (Writer.lenEncInt (ofUInt64 n)).run buffer = (form.length, buffer ++ form) ∧
      ReadsOff (fun _ _ => lenEncInt) form (ofUInt64 n) tail ∧
      ∀ (s t : Bytes) (v : LenEncInt),
        (lenEncInt : Reader Bytes ReadError LenEncInt) (s ++ t) = .ok v t →
          v.toUInt64? = some n → form.length ≤ s.length) ∧
    (∀ (v : LenEncInt) (buffer tail : Bytes), (∀ n, v = len4 n → n.toNat < 2 ^ 24) →
      ∃ form : Bytes, (Writer.lenEncInt v).run buffer = (form.length, buffer ++ form) ∧
        ((lenEncInt : Reader Bytes ReadError LenEncInt) (form ++ tail) = .ok v tail ↔
          ¬ ∃ n, 0xfb ≤ n ∧ v = len1 n) ∧
        ∀ n, 0xfb ≤ n → v = len1 n → ∀ w t,
          (lenEncInt : Reader Bytes ReadError LenEncInt) (form ++ tail) = .ok w t →
            ∀ m, w ≠ len1 m) ∧
    ∀ (s s' : Bytes) (v w : LenEncInt),
      (lenEncInt : Reader Bytes ReadError LenEncInt) s = .ok v [] →
        (lenEncInt : Reader Bytes ReadError LenEncInt) s' = .ok w [] → s <+: s' → s = s' := by
  refine ⟨fun n buffer tail => ?_, fun v buffer tail hpayload => ?_, fun s s' v w => eq_of_isPrefix⟩
  · have hread := (read_encode_iff (ε := ReadError) (ofUInt64 n) tail).mpr (fits_ofUInt64 n)
    refine ⟨toUInt64?_ofUInt64 n, (ofUInt64 n).encode, Writer.appends_lenEncInt _ buffer, ?_, ?_⟩
    · exact readsOff_of_alike alike_lenEncInt hread
    · intro s t v hs hv
      exact length_encode_le_of_read hs hv
  · refine ⟨v.encode, Writer.appends_lenEncInt v buffer, ?_, ?_⟩
    · exact (read_encode_iff v tail).trans (fits_iff hpayload)
    · intro n hn hv w t hread
      rw [hv] at hread
      exact ne_len1_of_read_tag hn hread

/-- The first number that one byte does not hold, in its shortest form and in the widest, and a
byte that is read as the tag of a missing value. -/
theorem forms_shortest_first_tag :
    (ofUInt64 0xfb).encode = [0xfc, 0xfb, 0] ∧
      (∃ form : Bytes, form.length = 3 ∧ form.length ≤ 9 ∧
        ReadsOff (fun _ _ => lenEncInt) form (ofUInt64 0xfb) [1]) ∧
      (lenEncInt : Reader Bytes ReadError LenEncInt) [0xfb, 1] ≠ .ok (len1 0xfb) [1] ∧
      ¬ [0xfc, 0xfb, 0] <+: ([0xfe, 0xfb, 0, 0, 0, 0, 0, 0, 0] : Bytes) := by
  obtain ⟨hnumbers, hforms, hends⟩ := forms_shortest
  have hwide : (lenEncInt : Reader Bytes ReadError LenEncInt)
      ([0xfe, 0xfb, 0, 0, 0, 0, 0, 0, 0] ++ []) = .ok (len9 0xfb) [] :=
    Bytes.read_eq_ok_iff.mp (by decide +kernel)
  have hnarrow : (lenEncInt : Reader Bytes ReadError LenEncInt) [0xfc, 0xfb, 0] =
      .ok (len3 0xfb) [] := Bytes.read_eq_ok_iff.mp (by decide +kernel)
  refine ⟨by decide, ?_, ?_, ?_⟩
  · obtain ⟨-, form, hwrite, hread, hshortest⟩ := hnumbers 0xfb [] [1]
    have hlen : form.length = 3 := congrArg Prod.fst hwrite.symm
    exact ⟨form, hlen, hshortest _ [] _ hwide rfl, hread⟩
  · obtain ⟨form, hwrite, hread, -⟩ := hforms (len1 0xfb) [] [1] (by simp)
    have hform : form = [0xfb] := congrArg Prod.snd hwrite.symm
    rw [hform] at hread
    exact fun h => hread.mp h ⟨0xfb, by decide, rfl⟩
  · intro hfront
    exact absurd (hends _ _ _ _ hnarrow hwide hfront) (by decide)

end Binlog.LenEncInt
