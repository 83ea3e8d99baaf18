import Binlog.Proofs.TextForms
import Mathlib.Data.List.Induction

/-!
# Digits of a fixed width

`Digits.fixed width n` is the lowest `width` digits of `n`, so a number is cut into groups of
digits as its text is (`fixed_append`). Numbers that fit are filled up with zeros
(`padded_eq_fixed`), and without the zeros in front their digits are those of the plain number
(`dropWhile_fixed`). All text of digits is of this kind, its number being below the bound of its
length (`fixed_value`, `value_lt`).
-/

namespace Binlog.Digits

/-- The lowest `width` digits of `n`, highest first. -/
def fixed : (width n : Nat) → List Char
  | 0, _ => []
  | width + 1, n => fixed width (n / 10) ++ [Nat.digitChar (n % 10)]

/-! ## Plain digits -/

theorem chars_of_lt {n : Nat} (h : n < 10) : chars n = [Nat.digitChar n] :=
  Nat.toDigits_of_lt_base h

theorem chars_of_le {n : Nat} (h : 10 ≤ n) :
    chars n = chars (n / 10) ++ [Nat.digitChar (n % 10)] :=
  Nat.toDigits_of_base_le (by decide) h

/-- Text behind digits multiplies their number by a power of ten. -/
theorem value_append (cs ds : List Char) :
    value (cs ++ ds) = value cs * 10 ^ ds.length + value ds := by
  rw [value, Nat.ofDigitChars_append, Nat.ofDigitChars_eq_ofDigitChars_zero, Nat.mul_comm]
  rfl

theorem value_digitChar {n : Nat} (h : n < 10) : value [Nat.digitChar n] = n := by
  rw [← chars_of_lt h, value_chars]

/-! ## Fixed widths -/

@[simp] theorem length_fixed (width n : Nat) : (fixed width n).length = width := by
  induction width generalizing n with
  | zero => rfl
  | succ width ih => simp [fixed, ih]

/-- The digits behind the first `a` are those of the remainder, and the first those of the
quotient. -/
theorem fixed_append (a b n : Nat) : fixed (a + b) n = fixed a (n / 10 ^ b) ++ fixed b n := by
  induction b generalizing n with
  | zero => simp [fixed]
  | succ b ih =>
    rw [← Nat.add_assoc, fixed, ih, fixed, List.append_assoc, Nat.div_div_eq_div_mul,
      Nat.pow_succ, Nat.mul_comm 10]

/-- Only the lowest digits count. -/
theorem fixed_mod (width n : Nat) : fixed width (n % 10 ^ width) = fixed width n := by
  induction width generalizing n with
  | zero => rfl
  | succ width ih =>
    have hlow : n % 10 ^ (width + 1) % 10 = n % 10 :=
      Nat.mod_mod_of_dvd n (Nat.dvd_mul_left _ _)
    have hhigh : n % 10 ^ (width + 1) / 10 = n / 10 % 10 ^ width := by
      rw [Nat.pow_succ, Nat.mul_comm, Nat.mod_mul_right_div_self]
    rw [fixed, fixed, hlow, hhigh, ih]

theorem fixed_zero (width : Nat) : fixed width 0 = List.replicate width '0' := by
  induction width with
  | zero => rfl
  | succ width ih =>
    rw [fixed, Nat.zero_div, ih, List.replicate_succ']
    rfl

theorem value_fixed {width n : Nat} (h : n < 10 ^ width) : value (fixed width n) = n := by
  induction width generalizing n with
  | zero =>
    obtain rfl : n = 0 := by simpa using h
    rfl
  | succ width ih =>
    have hquot : n / 10 < 10 ^ width := by
      rw [Nat.pow_succ] at h
      omega
    rw [fixed, value_append, ih hquot, value_digitChar (Nat.mod_lt _ (by decide))]
    exact Nat.div_add_mod' n 10

/-- A number that fits has its digits filled up with zeros. -/
theorem padded_eq_fixed {width n : Nat} (hwidth : 0 < width) (h : n < 10 ^ width) :
    padded width n = fixed width n := by
  induction width generalizing n with
  | zero => exact absurd hwidth (by decide)
  | succ width ih =>
    rcases Nat.lt_or_ge n 10 with hn | hn
    · rw [padded, chars_of_lt hn, fixed, Nat.div_eq_of_lt hn, Nat.mod_eq_of_lt hn, fixed_zero]
      rfl
    · have hquot : n / 10 < 10 ^ width := by
        rw [Nat.pow_succ] at h
        omega
      have hpos : 0 < width := by
        rcases width with _ | width
        · omega
        · exact Nat.succ_pos _
      rw [fixed, ← ih hpos hquot, padded, padded, chars_of_le hn, List.length_append,
        List.length_singleton, Nat.add_sub_add_right, List.append_assoc]

theorem isDigit_of_mem_padded {c : Char} {width n : Nat} (h : c ∈ padded width n) :
    c.isDigit := by
  rcases List.mem_append.mp h with hzero | hn
  · rw [List.eq_of_mem_replicate hzero]
    rfl
  · exact Nat.isDigit_of_mem_toDigits (by decide) (by decide) hn

/-- Without the zeros in front, the digits are those of the number, and zero has none. -/
theorem dropWhile_fixed {width n : Nat} (h : n < 10 ^ width) :
    (fixed width n).dropWhile (· == '0') = if n = 0 then [] else chars n := by
  induction width generalizing n with
  | zero =>
    obtain rfl : n = 0 := by simpa using h
    rfl
  | succ width ih =>
    have hquot : n / 10 < 10 ^ width := by
      rw [Nat.pow_succ] at h
      omega
    rw [fixed, List.dropWhile_append, ih hquot]
    -- the last digit is the first one that counts if no other digit does
    rcases Nat.lt_or_ge n 10 with hn | hn
    · rw [if_pos (Nat.div_eq_of_lt hn), List.isEmpty_nil, if_pos rfl, Nat.mod_eq_of_lt hn,
        chars_of_lt hn, List.dropWhile_cons]
      simp
    · have hne : n / 10 ≠ 0 := by omega
      rw [if_neg hne, if_neg (by simp [chars]), if_neg (by omega), ← chars_of_le hn]

theorem le_length_padded (width n : Nat) : width ≤ (padded width n).length := by
  rw [padded, List.length_append, List.length_replicate]
  omega

/-- The width is that of the text only for numbers that fit, because a longer one is not cut. -/
theorem length_padded_eq_iff {width n : Nat} (hwidth : 0 < width) :
    (padded width n).length = width ↔ n < 10 ^ width := by
  rw [← Nat.length_toDigits_le_iff (by decide) hwidth, padded, chars, List.length_append,
    List.length_replicate]
  omega

/-! ## Any digits -/

theorem digitChar_value {c : Char} (h : c.isDigit) :
    value [c] < 10 ∧ Nat.digitChar (value [c]) = c := by
  have hchar : ∀ k < 10, Nat.digitChar k = Char.ofNat (48 + k) := by decide
  obtain ⟨hlow, hhigh⟩ : 48 ≤ c.toNat ∧ c.toNat ≤ 57 := by
    simpa [Char.isDigit, UInt32.le_iff_toNat_le] using h
  have hvalue : value [c] = c.toNat - 48 := by
    rw [value, Nat.ofDigitChars_cons, Nat.ofDigitChars_nil]
    simp
  rw [hvalue, hchar _ (by omega), Nat.add_sub_cancel' hlow, Char.ofNat_toNat]
  exact ⟨by omega, rfl⟩

/-- Digits are those of their number, in the width that they have. -/
theorem fixed_value {cs : List Char} (h : ∀ c ∈ cs, c.isDigit) :
    value cs < 10 ^ cs.length ∧ fixed cs.length (value cs) = cs := by
  induction cs using List.reverseRecOn with
  | nil => exact ⟨by decide, rfl⟩
  | append_singleton cs c ih =>
    obtain ⟨hlt, hcs⟩ := ih fun d hd => h d (List.mem_append_left _ hd)
    obtain ⟨hten, hc⟩ := digitChar_value (h c (by simp))
    have hquot : (value cs * 10 + value [c]) / 10 = value cs := by omega
    have hrem : (value cs * 10 + value [c]) % 10 = value [c] := by omega
    rw [value_append, List.length_append, List.length_singleton, Nat.pow_one, fixed, hquot, hrem,
      hcs, hc, Nat.pow_succ]
    exact ⟨by omega, rfl⟩

theorem value_lt {cs : List Char} (h : ∀ c ∈ cs, c.isDigit) : value cs < 10 ^ cs.length :=
  (fixed_value h).1

/-- Without the zeros in front, digits are those of their number, and of zero none are left. -/
theorem dropWhile_digits {cs : List Char} (h : ∀ c ∈ cs, c.isDigit) :
    cs.dropWhile (· == '0') = if value cs = 0 then [] else chars (value cs) := by
  obtain ⟨hlt, hcs⟩ := fixed_value h
  rw [← dropWhile_fixed hlt, hcs]

/-- Plain digits do not begin with a zero, save for zero itself. -/
theorem eq_zero_of_head?_chars {n : Nat} (h : (chars n).head? = some '0') : n = 0 := by
  by_cases hn : n = 0
  · exact hn
  · have hdrop := dropWhile_fixed (Nat.lt_pow_self (by decide : 1 < 10) : n < 10 ^ n)
    have hhead := List.head?_dropWhile_not (· == '0') (fixed n n)
    rw [hdrop, if_neg hn, h] at hhead
    exact absurd hhead (by decide)

end Binlog.Digits
