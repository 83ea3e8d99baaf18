import Binlog.Proofs.PackedDecimal

/-!
# Canonical texts of decimals

A decimal declares how many digits it has on either side of the point. Its groups are read from
whole bytes, which hold larger numbers than those of their digits, and a group is shown in full
whatever it holds. So a damaged block can show more digits than are declared, never fewer.

**Fitting groups** (`GroupsFit`). Behind the point every group stands at its own places, so the
declared number of places is shown exactly if all groups fit (`length_fractionDigits_eq_iff`).
Before the point a group that is too large may take the place of zeros in front of it. What counts
there is the number that all groups together show (`whole`): its digits are those of the integer
part (`integerDigits_eq`).

**Theorem (`text_canonical_iff`).** Every decimal that is read has a value with at least as many
places as are declared. Its text is canonical and its value in range exactly if the groups behind
the point fit and the number before it has no more digits than declared.
-/

namespace Binlog.Decimal

/-! ## Fitting groups -/

/-- The digits of a row of groups, as many as the layout says. -/
def layoutDigits (layout : List Nat) : Nat := layout.foldr (· + ·) 0

/-- No group holds a number of more digits than it has. -/
def GroupsFit (layout numbers : List Nat) : Prop := ∀ g ∈ layout.zip numbers, g.2 < 10 ^ g.1

instance (layout numbers : List Nat) : Decidable (GroupsFit layout numbers) :=
  inferInstanceAs (Decidable (∀ _ ∈ _, _))

theorem layoutDigits_append (l l' : List Nat) :
    layoutDigits (l ++ l') = layoutDigits l + layoutDigits l' := by
  induction l with
  | nil => exact (Nat.zero_add _).symm
  | cons digits l ih =>
    change digits + layoutDigits (l ++ l') = digits + layoutDigits l + _
    rw [ih, Nat.add_assoc]

theorem layoutDigits_replicate (n : Nat) : layoutDigits (List.replicate n 9) = n * 9 := by
  induction n with
  | zero => rfl
  | succ n ih =>
    change 9 + layoutDigits (List.replicate n 9) = _
    rw [ih, Nat.succ_mul, Nat.add_comm]

theorem layoutDigits_shortGroup (digits : Nat) : layoutDigits (shortGroup digits) = digits % 9 := by
  unfold shortGroup
  split
  next h =>
    rw [h]
    rfl
  next => rfl

theorem layoutDigits_integerLayout (precision scale : Nat) :
    layoutDigits (integerLayout precision scale) = precision - scale := by
  rw [integerLayout, layoutDigits_append, layoutDigits_shortGroup, layoutDigits_replicate]
  omega

theorem layoutDigits_fractionLayout (scale : Nat) :
    layoutDigits (fractionLayout scale) = scale := by
  rw [fractionLayout, layoutDigits_append, layoutDigits_shortGroup, layoutDigits_replicate]
  omega

/-- A row shows no fewer digits than its layout has, and no more exactly if its groups fit. -/
theorem length_groupDigits {layout numbers : List Nat} (hpos : ∀ k ∈ layout, 0 < k)
    (hlen : numbers.length = layout.length) :
    layoutDigits layout ≤ (groupDigits layout numbers).length ∧
      ((groupDigits layout numbers).length = layoutDigits layout ↔ GroupsFit layout numbers) := by
  induction layout generalizing numbers with
  | nil => exact ⟨Nat.zero_le _, iff_of_true rfl fun g hg => absurd hg List.not_mem_nil⟩
  | cons digits layout ih =>
    obtain ⟨number, numbers, rfl⟩ := List.exists_cons_of_length_eq_add_one hlen
    obtain ⟨hle, hiff⟩ := ih (fun k hk => hpos k (List.mem_cons_of_mem _ hk))
      (Nat.succ.inj hlen)
    have hfirst := Digits.le_length_padded digits number
    have hfits := Digits.length_padded_eq_iff (n := number) (hpos digits List.mem_cons_self)
    have hrow : (groupDigits (digits :: layout) (number :: numbers)).length =
        (Digits.padded digits number).length + (groupDigits layout numbers).length :=
      List.length_append
    have hdigits : layoutDigits (digits :: layout) = digits + layoutDigits layout := rfl
    have hgroups : GroupsFit (digits :: layout) (number :: numbers) ↔
        number < 10 ^ digits ∧ GroupsFit layout numbers := by
      simp only [GroupsFit, List.zip_cons_cons, List.forall_mem_cons]
    rw [hrow, hdigits, hgroups, ← hfits, ← hiff]
    omega

/-! ## What is read -/

variable {precision scale : Nat} {s t : Bytes} {d : Decimal}

/-- The number that the groups before the point show. -/
def whole (d : Decimal) : Nat :=
  Digits.value (groupDigits (integerLayout d.precision d.scale) d.integer)

/-- Without the zeros in front the groups before the point show their number. -/
theorem integerDigits_eq (d : Decimal) : d.integerDigits = Digits.chars d.whole := by
  rw [integerDigits, Digits.dropWhile_digits fun c => isDigit_of_mem_groupDigits, whole]
  by_cases hzero : Digits.value (groupDigits (integerLayout d.precision d.scale) d.integer) = 0
  · rw [if_pos hzero, hzero]
    rfl
  · rw [if_neg hzero]
    split
    next hnil => exact absurd hnil Nat.toDigits_ne_nil
    next => rfl

theorem places_eq (d : Decimal) : d.places = d.fractionDigits := by
  rw [places]
  split
  next hscale =>
    rw [fractionDigits, hscale]
    rfl
  next => rfl

/-- A decimal has the declared layout: as many groups on either side as the layout says. -/
structure LaidOut (precision scale : Nat) (d : Decimal) : Prop where
  precision_eq : d.precision = precision
  scale_eq : d.scale = scale
  scale_le : scale ≤ precision
  integer_length : d.integer.length = (integerLayout precision scale).length
  fraction_length : d.fraction.length = (fractionLayout scale).length

theorem laidOut_of_read
    (h : (read precision scale : Reader Bytes DecodeError Decimal) s = .ok d t) :
    LaidOut precision scale d := by
  obtain ⟨hadmitted, block, -, -, rfl⟩ := read_eq_ok_iff.mp h
  exact ⟨rfl, rfl, hadmitted.2.2.2, length_groups _ _, length_groups _ _⟩

namespace LaidOut

theorem whole_lt_of_fit (h : LaidOut precision scale d)
    (hfit : GroupsFit (integerLayout precision scale) d.integer) :
    d.whole < 10 ^ (precision - scale) := by
  have hlen := (length_groupDigits (fun _ => pos_of_mem_integerLayout) h.integer_length).2.mpr hfit
  rw [layoutDigits_integerLayout] at hlen
  rw [← hlen, whole, h.precision_eq, h.scale_eq]
  exact Digits.value_lt fun c => isDigit_of_mem_groupDigits

/-- The groups behind the point show at least the declared places, and these exactly if they fit. -/
theorem length_fractionDigits (h : LaidOut precision scale d) :
    scale ≤ d.fractionDigits.length ∧
      (d.fractionDigits.length = scale ↔ GroupsFit (fractionLayout scale) d.fraction) := by
  have hlen := length_groupDigits (fun _ => pos_of_mem_fractionLayout) h.fraction_length
  rw [layoutDigits_fractionLayout] at hlen
  rwa [fractionDigits, h.scale_eq]

/-- A value is in range exactly if its places are the declared ones and its integer part is. -/
theorem toScaled_in_range_iff (h : LaidOut precision scale d) :
    d.toScaled.scale = scale ∧ d.toScaled.unscaled.natAbs < 10 ^ precision ↔
      GroupsFit (fractionLayout scale) d.fraction ∧ d.whole < 10 ^ (precision - scale) := by
  have hscaled : d.toScaled = Scaled.ofDigits d.negative d.integerDigits d.fractionDigits := by
    rw [← d.places_eq]
    rfl
  have habs : d.toScaled.unscaled.natAbs =
      d.whole * 10 ^ d.fractionDigits.length + Digits.value d.fractionDigits := by
    rw [hscaled, Scaled.ofDigits, Digits.value_append, integerDigits_eq, Digits.value_chars]
    dsimp only
    split
    next => rw [Int.natAbs_neg, Int.natAbs_natCast]
    next => rw [Int.natAbs_natCast]
  have hplaces : d.toScaled.scale = d.fractionDigits.length := by rw [hscaled, Scaled.ofDigits]
  have hfraction : Digits.value d.fractionDigits < 10 ^ d.fractionDigits.length :=
    Digits.value_lt fun c => isDigit_of_mem_groupDigits
  have hpow : 10 ^ precision = 10 ^ (precision - scale) * 10 ^ scale := by
    rw [← Nat.pow_add, Nat.sub_add_cancel h.scale_le]
  rw [hplaces, habs, hpow, ← h.length_fractionDigits.2]
  refine and_congr_right fun hlen => ?_
  rw [hlen] at hfraction ⊢
  refine ⟨fun hlt => ?_, fun hlt => ?_⟩
  · exact Nat.lt_of_mul_lt_mul_right (Nat.lt_of_le_of_lt (Nat.le_add_right _ _) hlt)
  · calc d.whole * 10 ^ scale + Digits.value d.fractionDigits
        < d.whole * 10 ^ scale + 10 ^ scale := Nat.add_lt_add_left hfraction _
      _ = (d.whole + 1) * 10 ^ scale := (Nat.succ_mul _ _).symm
      _ ≤ 10 ^ (precision - scale) * 10 ^ scale := Nat.mul_le_mul_right _ hlt

end LaidOut

/-! ## Canonical texts -/

/-- The text of a decimal as it is declared: a sign or none, an integer part without zeros in front
and of no more digits than there are, and, if places are declared, a point and exactly these. -/
def CanonicalText (precision scale : Nat) (text : String) : Prop :=
  ∃ (negative : Bool) (whole places : List Char),
    text = .ofList ((if negative then ['-'] else []) ++ whole ++
      if scale = 0 then [] else '.' :: places) ∧
    (∀ c ∈ whole ++ places, c.isDigit) ∧ (whole.head? = some '0' → whole = ['0']) ∧
    1 ≤ whole.length ∧ whole.length ≤ max 1 (precision - scale) ∧ places.length = scale

/-- Plain digits of a number are no more than those of the bound it is below. -/
theorem length_chars_le {n k : Nat} (h : n < 10 ^ k) : (Digits.chars n).length ≤ max 1 k := by
  rw [Digits.chars, Nat.length_toDigits_le_iff (by decide) (by omega)]
  exact Nat.lt_of_lt_of_le h (Nat.pow_le_pow_right (by decide) (Nat.le_max_right 1 k))

theorem LaidOut.canonicalText (h : LaidOut precision scale d)
    (hfit : GroupsFit (fractionLayout scale) d.fraction)
    (hwhole : d.whole < 10 ^ (precision - scale)) : CanonicalText precision scale d.text := by
  refine ⟨d.negative, d.integerDigits, d.fractionDigits, ?_, fun c hc => ?_, fun hhead => ?_, ?_,
    ?_, h.length_fractionDigits.2.mpr hfit⟩
  · rw [text, chars, h.scale_eq]
  · obtain hc | hc := List.mem_append.mp hc
    · exact isDigit_of_mem_integerDigits hc
    · exact isDigit_of_mem_groupDigits hc
  · rw [integerDigits_eq] at hhead ⊢
    rw [Digits.eq_zero_of_head?_chars hhead]
    rfl
  · exact List.length_pos_iff.mpr d.integerDigits_ne_nil
  · rw [integerDigits_eq]
    exact length_chars_le hwhole

/-- **Canonical texts.** Every decimal that is read has a value, with no fewer places than are
declared. The text is canonical and the value in range exactly if the groups behind the point fit
and the groups before it show a number of the declared digits, which they do if they fit too. -/
theorem text_canonical_iff {parse : String → Option Scaled} (hparse : Scaled.KeepsDigits parse)
    (hread : (read precision scale : Reader Bytes DecodeError Decimal) s = .ok d t) :
    ∃ v, parse d.text = some v ∧ scale ≤ v.scale ∧
      (CanonicalText precision scale d.text ∧ v.scale = scale ∧
          v.unscaled.natAbs < 10 ^ precision ↔
        GroupsFit (fractionLayout scale) d.fraction ∧ d.whole < 10 ^ (precision - scale)) ∧
      (GroupsFit (integerLayout precision scale) d.integer →
        d.whole < 10 ^ (precision - scale)) := by
  have hlaid := laidOut_of_read hread
  have hscale : d.toScaled.scale = d.fractionDigits.length :=
    congrArg List.length d.places_eq
  refine ⟨d.toScaled, parse_text hparse fun hnil => ?_, ?_, ?_, hlaid.whole_lt_of_fit⟩
  · have hle := hlaid.length_fractionDigits.1
    rw [← d.places_eq, hnil] at hle
    exact hlaid.scale_eq.trans (Nat.le_zero.mp hle)
  · rw [hscale]
    exact hlaid.length_fractionDigits.1
  · rw [hlaid.toScaled_in_range_iff]
    exact ⟨fun h => h.2, fun h => ⟨hlaid.canonicalText h.1 h.2, h⟩⟩

/-- A group above nine digits behind one that is zero is still a number of ten digits. -/
theorem text_canonical_iff_large_group :
    ∃ d : Decimal,
      (read 10 0 : Reader Bytes DecodeError Decimal) [0x80, 0xff, 0xff, 0xff, 0xff] = .ok d [] ∧
      ¬ GroupsFit (integerLayout 10 0) d.integer ∧ CanonicalText 10 0 d.text ∧
      Scaled.parse d.text = some ⟨4294967295, 0⟩ := by
  let d : Decimal := ⟨10, 0, false, [0, 4294967295], []⟩
  have hread : (read 10 0 : Reader Bytes DecodeError Decimal) [0x80, 0xff, 0xff, 0xff, 0xff] =
      .ok d [] := Bytes.read_eq_ok_iff.mp (by decide +kernel)
  obtain ⟨v, hv, -, hiff, -⟩ := text_canonical_iff Scaled.keepsDigits_parse hread
  have hcanonical := hiff.mpr ⟨by decide, by decide +kernel⟩
  exact ⟨d, hread, by decide, hcanonical.1, by decide +kernel⟩

/-- One place is declared, and three are shown. -/
theorem text_not_canonical :
    ∃ d : Decimal, (read 1 1 : Reader Bytes DecodeError Decimal) [0xff] = .ok d [] ∧
      d.text = "0.127" ∧ d.toScaled = ⟨127, 3⟩ ∧ ¬ CanonicalText 1 1 d.text := by
  refine ⟨⟨1, 1, false, [], [127]⟩, Bytes.read_eq_ok_iff.mp (by decide +kernel),
    by decide +kernel, by decide +kernel, ?_⟩
  rintro ⟨negative, whole, places, htext, -, -, -, hwhole, hplaces⟩
  -- a sign, a digit, the point and a place are four characters at most
  have hlen := congrArg (fun text : String => text.toList.length) htext
  have hfive : (text ⟨1, 1, false, [], [127]⟩).toList.length = 5 := by decide +kernel
  simp only [hfive, String.toList_ofList, List.length_append] at hlen
  cases negative <;> simp at hlen <;> omega

end Binlog.Decimal
