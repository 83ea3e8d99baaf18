import Binlog.Proofs.DecimalBlock
import Binlog.Proofs.DigitText

/-!
# Packed decimals are decoded exactly

**Theorem (`read_pack`).** Pack any decimal of an admitted precision and scale, with either sign,
and put any bytes behind it. `Decimal.read` takes the packed bytes and leaves the others; the text
is the sign, the integer part without leading zeros and all places of the fraction; and the value
is the decimal's, with the declared number of places.

The digits of a row of groups are those of the number that was cut (`text_integerGroups`,
`text_fractionGroups`), because every group shows all its digits. What is left of the integer part
without the zeros in front is then its plain digits, across all borders of groups.

**Values.** The value is read off the text by a parser of decimals that the program takes from
elsewhere. It is a parameter here. What is assumed of it is `KeepsDigits`: plain text denotes the
number of all its digits, with as many places as stand behind the point.
-/

namespace Binlog.Decimal

/-! ## The digits of a row -/

/-- All digits of a group. -/
def Group.text (g : Group) : List Char := Digits.fixed g.digits g.number

theorem groupDigits_row (row : List Group) :
    groupDigits (row.map Group.digits) (row.map Group.number) = row.flatMap Group.text := by
  induction row with
  | nil => rfl
  | cons g row ih =>
    rw [groupDigits] at ih ⊢
    rw [List.map_cons, List.map_cons, List.zip_cons_cons, List.flatMap_cons, ih,
      List.flatMap_cons]
    exact congrArg (· ++ _) (Digits.padded_eq_fixed g.digits_pos g.number_lt)

theorem text_low (digits n : Nat) (hpos : 0 < digits) (hle : digits ≤ 9) :
    (Group.low digits n hpos hle).text = Digits.fixed digits n := Digits.fixed_mod digits n

theorem text_fullGroups (count n : Nat) :
    (fullGroups count n).flatMap Group.text = Digits.fixed (9 * count) n := by
  induction count generalizing n with
  | zero => rfl
  | succ count ih =>
    rw [fullGroups, List.flatMap_append, ih, List.flatMap_singleton, text_low, Nat.mul_succ,
      Digits.fixed_append]

theorem text_leftover (digits n : Nat) :
    (leftover digits n).flatMap Group.text = Digits.fixed (digits % 9) n := by
  unfold leftover
  split
  next => rw [List.flatMap_singleton, text_low]
  next h =>
    rw [Nat.eq_zero_of_not_pos h]
    rfl

theorem text_integerGroups (digits n : Nat) :
    (integerGroups digits n).flatMap Group.text = Digits.fixed digits n := by
  rw [integerGroups, List.flatMap_append, text_leftover, text_fullGroups, ← Digits.fixed_append,
    Nat.mod_add_div]

theorem text_fractionGroups (digits n : Nat) :
    (fractionGroups digits n).flatMap Group.text = Digits.fixed digits n := by
  rw [fractionGroups, List.flatMap_append, text_leftover, text_fullGroups, ← Digits.fixed_append,
    Nat.div_add_mod]

/-! ## Text -/

variable {precision scale integer fraction : Nat}

theorem integerDigits_cut (h : integer < 10 ^ (precision - scale)) (negative : Bool)
    (fraction : Nat) :
    (cut precision scale negative integer fraction).integerDigits = Digits.chars integer := by
  have hdigits : groupDigits (integerLayout precision scale)
      ((integerGroups (precision - scale) integer).map Group.number) =
        Digits.fixed (precision - scale) integer := by
    rw [← digits_integerGroups precision scale integer, groupDigits_row, text_integerGroups]
  rw [integerDigits, cut, hdigits, Digits.dropWhile_fixed h]
  by_cases hzero : integer = 0
  · rw [if_pos hzero, hzero]
    rfl
  · rw [if_neg hzero]
    cases hchars : Digits.chars integer with
    | nil => exact absurd hchars Nat.toDigits_ne_nil
    | cons c cs => rfl

theorem fractionDigits_cut (precision scale : Nat) (negative : Bool) (integer fraction : Nat) :
    (cut precision scale negative integer fraction).fractionDigits =
      Digits.fixed scale fraction := by
  rw [fractionDigits, cut, ← digits_fractionGroups scale fraction, groupDigits_row,
    text_fractionGroups]

theorem text_cut (hinteger : integer < 10 ^ (precision - scale))
    (hfraction : fraction < 10 ^ scale) (negative : Bool) :
    (cut precision scale negative integer fraction).text =
      .ofList ((if negative then ['-'] else []) ++ Digits.chars integer ++
        if scale = 0 then [] else '.' :: Digits.padded scale fraction) := by
  have hplaces : (if scale = 0 then [] else '.' :: Digits.fixed scale fraction) =
      if scale = 0 then [] else '.' :: Digits.padded scale fraction := by
    split
    next => rfl
    next h => rw [Digits.padded_eq_fixed (Nat.pos_of_ne_zero h) hfraction]
  rw [← hplaces, text, chars, integerDigits_cut hinteger, fractionDigits_cut]
  rfl

/-! ## Characters -/

theorem integerDigits_ne_nil (d : Decimal) : d.integerDigits ≠ [] := by
  unfold integerDigits
  split
  next => exact List.cons_ne_nil _ _
  next hne => exact fun h => hne h

theorem isDigit_of_mem_groupDigits {c : Char} {layout numbers : List Nat}
    (h : c ∈ groupDigits layout numbers) : c.isDigit := by
  obtain ⟨⟨digits, number⟩, -, hc⟩ := List.mem_flatMap.mp h
  exact Digits.isDigit_of_mem_padded hc

theorem isDigit_of_mem_integerDigits {c : Char} {d : Decimal} (h : c ∈ d.integerDigits) :
    c.isDigit := by
  unfold integerDigits at h
  split at h
  next =>
    rw [List.mem_singleton.mp h]
    rfl
  next => exact isDigit_of_mem_groupDigits ((List.dropWhile_sublist _).mem h)

/-! ## Values -/

namespace Scaled

/-- The number with the given digits before and behind the point. -/
def ofDigits (negative : Bool) (whole places : List Char) : Scaled :=
  ⟨if negative then -(Digits.value (whole ++ places) : Int) else Digits.value (whole ++ places),
    places.length⟩

/-- Plain text: a sign if negative, digits, and a point if there are digits behind it. -/
def plainText (negative : Bool) (whole places : List Char) : List Char :=
  (if negative then ['-'] else []) ++ whole ++ if places = [] then [] else '.' :: places

/-- Whether a parser keeps the digits of plain text and the number of those behind the point. -/
def KeepsDigits (parse : String → Option Scaled) : Prop :=
  ∀ (negative : Bool) (whole places : List Char), whole ≠ [] →
    (∀ c ∈ whole ++ places, c.isDigit) →
      parse (.ofList (plainText negative whole places)) = some (ofDigits negative whole places)

/-- The number that digits with at most one point among them denote. -/
def parseUnsigned (negative : Bool) (cs : List Char) : Option Scaled :=
  match cs.takeWhile Char.isDigit, cs.dropWhile Char.isDigit with
  | [], _ => none
  | whole, [] => some (ofDigits negative whole [])
  | whole, '.' :: places =>
    if places.all Char.isDigit then some (ofDigits negative whole places) else none
  | _, _ => none

/-- A parser of plain text and of nothing else. -/
def parse (s : String) : Option Scaled :=
  match s.toList with
  | '-' :: cs => parseUnsigned true cs
  | cs => parseUnsigned false cs

theorem parseUnsigned_plain (negative : Bool) {whole places : List Char} (hwhole : whole ≠ [])
    (hdigits : ∀ c ∈ whole ++ places, c.isDigit) :
    parseUnsigned negative (whole ++ if places = [] then [] else '.' :: places) =
      some (ofDigits negative whole places) := by
  have hbefore : ∀ c ∈ whole, c.isDigit := fun c hc => hdigits c (List.mem_append_left _ hc)
  have hbehind : places.all Char.isDigit :=
    List.all_eq_true.mpr fun c hc => hdigits c (List.mem_append_right _ hc)
  rw [parseUnsigned, List.takeWhile_append_of_pos hbefore, List.dropWhile_append_of_pos hbefore]
  obtain ⟨c, whole, rfl⟩ := List.exists_cons_of_ne_nil hwhole
  cases places with
  | nil => simp
  | cons d places =>
    have hpoint : Char.isDigit '.' = false := by decide
    simp [hpoint, hbehind]

theorem keepsDigits_parse : KeepsDigits parse := by
  intro negative whole places hwhole hdigits
  rw [parse, plainText, String.toList_ofList]
  cases negative with
  | true => exact parseUnsigned_plain true hwhole hdigits
  | false =>
    obtain ⟨c, rest, hcs⟩ := List.exists_cons_of_ne_nil hwhole
    have hsign : c ≠ '-' := by
      rintro rfl
      exact absurd (hdigits '-' (by simp [hcs])) (by decide)
    have hplain := parseUnsigned_plain false hwhole hdigits
    rw [hcs] at hplain ⊢
    split
    next heq =>
      simp only [Bool.false_eq_true, if_false, List.nil_append, List.cons_append,
        List.cons.injEq] at heq
      exact absurd heq.1 hsign
    next => exact hplain

end Scaled

/-- The digits behind the point that the text has. -/
def places (d : Decimal) : List Char := if d.scale = 0 then [] else d.fractionDigits

/-- The text is plain if there are digits behind its point. -/
theorem chars_eq_plainText {d : Decimal} (h : d.places = [] → d.scale = 0) :
    d.chars = Scaled.plainText d.negative d.integerDigits d.places := by
  rw [chars, Scaled.plainText]
  by_cases hscale : d.scale = 0
  · have hplaces : d.places = [] := if_pos hscale
    rw [if_pos hscale, if_pos hplaces]
  · rw [if_neg hscale, if_neg (mt h hscale), places, if_neg hscale]

/-- A parser that keeps digits reads the text as the decimal's value. -/
theorem parse_text {parse : String → Option Scaled} (hparse : Scaled.KeepsDigits parse)
    {d : Decimal} (h : d.places = [] → d.scale = 0) : parse d.text = some d.toScaled := by
  rw [text, chars_eq_plainText h]
  refine hparse d.negative d.integerDigits d.places d.integerDigits_ne_nil fun c hc => ?_
  rcases List.mem_append.mp hc with hc | hc
  · exact isDigit_of_mem_integerDigits hc
  · rw [places] at hc
    split at hc
    next => exact absurd hc List.not_mem_nil
    next => exact isDigit_of_mem_groupDigits hc

theorem places_cut (precision scale : Nat) (negative : Bool) (integer fraction : Nat) :
    (cut precision scale negative integer fraction).places = Digits.fixed scale fraction := by
  rw [places, fractionDigits_cut]
  split
  next h =>
    obtain rfl : scale = 0 := h
    rfl
  next => rfl

theorem toScaled_cut (hinteger : integer < 10 ^ (precision - scale))
    (hfraction : fraction < 10 ^ scale) (negative : Bool) :
    (cut precision scale negative integer fraction).toScaled =
      ⟨if negative then -(integer * 10 ^ scale + fraction : Nat)
        else (integer * 10 ^ scale + fraction : Nat), scale⟩ := by
  have hvalue : (cut precision scale negative integer fraction).toScaled =
      Scaled.ofDigits negative (Digits.chars integer) (Digits.fixed scale fraction) := by
    rw [← integerDigits_cut hinteger negative fraction,
      ← places_cut precision scale negative integer fraction]
    rfl
  rw [hvalue, Scaled.ofDigits, Digits.value_append, Digits.value_chars, Digits.length_fixed,
    Digits.value_fixed hfraction]

/-! ## The main result -/

/-- **Packed decimals.** A packed decimal is read from the front of any bytes. It shows its sign,
its integer part plainly and its fraction with all places, and its text denotes its value. -/
theorem read_pack (hadmitted : Admitted precision scale)
    (hinteger : integer < 10 ^ (precision - scale)) (hfraction : fraction < 10 ^ scale)
    (negative : Bool) (tail : Bytes) {parse : String → Option Scaled}
    (hparse : Scaled.KeepsDigits parse) :
    ∃ d : Decimal,
      (read precision scale : Reader Bytes DecodeError Decimal)
          (pack precision scale negative integer fraction ++ tail) = .ok d tail ∧
      d.text = .ofList ((if negative then ['-'] else []) ++ Digits.chars integer ++
        if scale = 0 then [] else '.' :: Digits.padded scale fraction) ∧
      ((Digits.chars integer).head? = some '0' → integer = 0) ∧
      (0 < scale → (Digits.padded scale fraction).length = scale) ∧
      d.toScaled = ⟨if negative then -(integer * 10 ^ scale + fraction : Nat)
        else (integer * 10 ^ scale + fraction : Nat), scale⟩ ∧
      parse d.text = some d.toScaled := by
  refine ⟨cut precision scale negative integer fraction, ?_, text_cut hinteger hfraction negative,
    Digits.eq_zero_of_head?_chars, fun hpos => ?_, toScaled_cut hinteger hfraction negative,
    parse_text hparse fun hnil => ?_⟩
  · rw [read_append hadmitted (length_pack _ _ _ _ _), ofBlock_pack hadmitted]
  · rw [Digits.padded_eq_fixed hpos hfraction, Digits.length_fixed]
  · rw [places_cut] at hnil
    change scale = 0
    rw [← Digits.length_fixed scale fraction, hnil, List.length_nil]

/-- A negative decimal with a partial group on either side and a byte behind it. -/
theorem read_pack_partial_groups :
    ∃ d : Decimal,
      (read 14 4 : Reader Bytes DecodeError Decimal)
          ([0x7e, 0xf2, 0x04, 0xc7, 0x2d, 0xfb, 0x2d] ++ [0xff]) = .ok d [0xff] ∧
      d.text = "-1234567890.1234" ∧ d.toScaled = ⟨-12345678901234, 4⟩ ∧
      Scaled.parse d.text = some ⟨-12345678901234, 4⟩ := by
  have hpack : pack 14 4 true 1234567890 1234 =
      [0x7e, 0xf2, 0x04, 0xc7, 0x2d, 0xfb, 0x2d] := by decide
  obtain ⟨d, hread, htext, -, -, hvalue, hparse⟩ :=
    read_pack (by decide : Admitted 14 4) (by decide : 1234567890 < 10 ^ (14 - 4))
      (by decide : 1234 < 10 ^ 4) true [0xff] Scaled.keepsDigits_parse
  rw [hpack] at hread
  exact ⟨d, hread, htext.trans (by decide +kernel), hvalue, hparse.trans (congrArg some hvalue)⟩

end Binlog.Decimal
