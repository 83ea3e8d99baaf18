import Binlog.Proofs.GroupRows

/-!
# Blocks of packed decimals

`Decimal.pack` writes what `Decimal.read` reads. The digits on either side of the point are cut
into groups (`Group`), each group goes into the bytes that the table of widths gives it, and the
block of these bytes is signed.

**Room for the sign.** A group of `k` digits leaves the top bit of its bytes free, `2 * 10 ^ k`
being at most the bound of its bytes (`Group.double_le`). So the decimal that the groups make fits
its block, whichever group comes first (`fits_cut`), and packing writes that block (`pack_eq`).

Main statement: `ofBlock_pack` (the groups of a packed decimal are read back, with its sign).
-/

namespace Binlog.Decimal

/-! ## Groups -/

/-- One to nine digits and their number. -/
structure Group where
  digits : Nat
  number : Nat
  digits_pos : 0 < digits
  digits_le : digits ≤ 9
  number_lt : number < 10 ^ digits

namespace Group

/-- The lowest digits of `n`. -/
def low (digits n : Nat) (hpos : 0 < digits) (hle : digits ≤ 9) : Group where
  digits := digits
  number := n % 10 ^ digits
  digits_pos := hpos
  digits_le := hle
  number_lt := Nat.mod_lt _ (Nat.pow_pos (by decide))

/-- The group highest byte first, in the bytes of its number of digits. -/
def pack (g : Group) : Bytes := .ofNatBE (widths.getD g.digits 0) g.number

theorem width_eq (g : Group) : widths.getD g.digits 0 = groupWidth g.digits := by
  have hall : ∀ digits < 10, widths.getD digits 0 = groupWidth digits := by decide
  exact hall _ (Nat.lt_succ_of_le g.digits_le)

/-- The bytes of a group hold twice the numbers of its digits. -/
theorem double_le (g : Group) : 2 * 10 ^ g.digits ≤ 256 ^ groupWidth g.digits := by
  have hall : ∀ digits < 10, 0 < digits → 2 * 10 ^ digits ≤ 256 ^ groupWidth digits := by decide
  exact hall _ (Nat.lt_succ_of_le g.digits_le) g.digits_pos

/-- The number of a group leaves the top bit of its bytes free. -/
theorem number_lt_half (g : Group) : g.number < 256 ^ groupWidth g.digits / 2 := by
  have hlt := g.number_lt
  have hdouble := g.double_le
  omega

end Group

/-! ## Rows of groups -/

/-- The lowest `count` groups of nine digits of `n`, highest first. -/
def fullGroups : (count n : Nat) → List Group
  | 0, _ => []
  | count + 1, n => fullGroups count (n / 10 ^ 9) ++ [.low 9 n (by decide) (by decide)]

/-- The lowest digits of `n`, as many as are left when `digits` digits are cut into nines. -/
def leftover (digits n : Nat) : List Group :=
  if h : 0 < digits % 9 then [.low (digits % 9) n h (by omega)] else []

/-- The digits before the point, of which the first group may be a partial one. -/
def integerGroups (digits n : Nat) : List Group :=
  leftover digits (n / 10 ^ (9 * (digits / 9))) ++ fullGroups (digits / 9) n

/-- The digits behind the point, of which the last group may be a partial one. -/
def fractionGroups (digits n : Nat) : List Group :=
  fullGroups (digits / 9) (n / 10 ^ (digits % 9)) ++ leftover digits n

theorem digits_fullGroups (count n : Nat) :
    (fullGroups count n).map Group.digits = List.replicate count 9 := by
  induction count generalizing n with
  | zero => rfl
  | succ count ih =>
    rw [fullGroups, List.map_append, ih, List.replicate_succ']
    rfl

theorem digits_leftover (digits n : Nat) :
    (leftover digits n).map Group.digits = shortGroup digits := by
  unfold leftover shortGroup
  split
  next h =>
    rw [if_neg (by omega)]
    rfl
  next h =>
    rw [if_pos (by omega)]
    rfl

theorem digits_integerGroups (precision scale n : Nat) :
    (integerGroups (precision - scale) n).map Group.digits = integerLayout precision scale := by
  rw [integerGroups, List.map_append, digits_leftover, digits_fullGroups, integerLayout]

theorem digits_fractionGroups (scale n : Nat) :
    (fractionGroups scale n).map Group.digits = fractionLayout scale := by
  rw [fractionGroups, List.map_append, digits_leftover, digits_fullGroups, fractionLayout]

/-- The bytes of a row of groups. -/
def packRow (row : List Group) : Bytes := row.flatMap Group.pack

theorem zip_row (row : List Group) : (row.map Group.digits).zip (row.map Group.number) =
    row.map fun g => (g.digits, g.number) := List.zip_map' ..

theorem packRow_eq (row : List Group) :
    packRow row = fill (row.map Group.digits) (row.map Group.number) := by
  rw [packRow, fill, zip_row, List.flatMap_map]
  refine congrArg row.flatMap (funext fun g => ?_)
  rw [Group.pack, g.width_eq]

/-! ## Packed decimals -/

variable {precision scale : Nat}

/-- The groups of a decimal in its bytes: the lowest `precision - scale` digits of the integer
part and the lowest `scale` digits of the fraction. -/
def pack (precision scale : Nat) (negative : Bool) (integer fraction : Nat) : Bytes :=
  sign negative (packRow
    (integerGroups (precision - scale) integer ++ fractionGroups scale fraction))

/-- The decimal with the digits of two numbers, cut into groups. -/
def cut (precision scale : Nat) (negative : Bool) (integer fraction : Nat) : Decimal where
  precision := precision
  scale := scale
  negative := negative
  integer := (integerGroups (precision - scale) integer).map Group.number
  fraction := (fractionGroups scale fraction).map Group.number

theorem digits_groups (precision scale integer fraction : Nat) :
    (integerGroups (precision - scale) integer ++ fractionGroups scale fraction).map Group.digits =
      blockLayout precision scale := by
  rw [List.map_append, digits_integerGroups, digits_fractionGroups, blockLayout]

theorem number_groups (precision scale : Nat) (negative : Bool) (integer fraction : Nat) :
    (integerGroups (precision - scale) integer ++ fractionGroups scale fraction).map Group.number =
      (cut precision scale negative integer fraction).integer ++
        (cut precision scale negative integer fraction).fraction := List.map_append

/-- Digits that are cut into groups fit the bytes of these, and leave room for the sign. -/
theorem fits_cut (precision scale : Nat) (negative : Bool) (integer fraction : Nat) :
    Fits precision scale (cut precision scale negative integer fraction) := by
  have hzip := zip_row (integerGroups (precision - scale) integer ++ fractionGroups scale fraction)
  rw [digits_groups, number_groups precision scale negative] at hzip
  refine ⟨rfl, rfl, ?_, ?_, ?_, ?_⟩
  · rw [← length_integerLayout, ← digits_integerGroups precision scale integer, List.length_map]
    exact List.length_map _
  · rw [← length_fractionLayout, ← digits_fractionGroups scale fraction, List.length_map]
    exact List.length_map _
  · rw [Held, hzip]
    intro g hg
    obtain ⟨group, -, rfl⟩ := List.mem_map.mp hg
    exact Nat.lt_of_lt_of_le group.number_lt_half (Nat.div_le_self _ _)
  · rw [hzip, List.head?_map]
    intro g hg
    obtain ⟨group, -, rfl⟩ := Option.map_eq_some_iff.mp hg
    exact group.number_lt_half

/-- Packing writes the block that holds the groups. -/
theorem pack_eq (precision scale : Nat) (negative : Bool) (integer fraction : Nat) :
    pack precision scale negative integer fraction =
      (cut precision scale negative integer fraction).toBlock := by
  rw [pack, packRow_eq, digits_groups, number_groups precision scale negative, toBlock]
  rfl

@[simp] theorem length_pack (precision scale : Nat) (negative : Bool) (integer fraction : Nat) :
    (pack precision scale negative integer fraction).length = size precision scale := by
  rw [pack_eq]
  exact (fits_cut precision scale negative integer fraction).length_toBlock

/-- **Groups.** A packed decimal is read as the groups it was packed from, with its sign. -/
theorem ofBlock_pack (h : Admitted precision scale) (negative : Bool) (integer fraction : Nat) :
    ofBlock precision scale (pack precision scale negative integer fraction) =
      cut precision scale negative integer fraction := by
  rw [pack_eq]
  exact (fits_cut precision scale negative integer fraction).ofBlock_toBlock h

example : pack 5 2 true 123 45 = [0x7f, 0x84, 0xd2] := by decide

/-- A block of the right size is read, and what follows it is left. -/
theorem read_append (h : Admitted precision scale) {block : Bytes}
    (hblock : block.length = size precision scale) (t : Bytes) :
    (read precision scale : Reader Bytes DecodeError Decimal) (block ++ t) =
      .ok (ofBlock precision scale block) t := by
  have hlen : ¬ (block ++ t).length < size precision scale := by
    rw [List.length_append]
    omega
  have htake : (Reader.take (size precision scale) : Reader Bytes DecodeError Bytes)
      (block ++ t) = .ok block t := Reader.take_eq_ok_iff.mpr ⟨hblock, rfl⟩
  rw [read, if_pos h, Reader.left_bind, if_neg hlen]
  exact Reader.bind_of_ok htake

/-- What is read is a block of the right size, for a decimal that is admitted. -/
theorem read_eq_ok_iff {s t : Bytes} {d : Decimal} :
    (read precision scale : Reader Bytes DecodeError Decimal) s = .ok d t ↔
      Admitted precision scale ∧ ∃ block : Bytes, block.length = size precision scale ∧
        s = block ++ t ∧ d = ofBlock precision scale block := by
  refine ⟨fun hread => ?_, ?_⟩
  · rw [read, Reader.ite_eq_ok_iff] at hread
    obtain ⟨h, hread⟩ | ⟨-, hthrow⟩ := hread
    · rw [Reader.left_bind, Reader.ite_eq_ok_iff] at hread
      obtain ⟨-, hthrow⟩ | ⟨-, hread⟩ := hread
      · exact absurd hthrow Reader.throw_ne_ok
      · obtain ⟨block, _, htake, hd⟩ := Reader.bind_eq_ok_iff.mp hread
        obtain ⟨rfl, rfl⟩ := Reader.pure_eq_ok_iff.mp hd
        obtain ⟨hblock, rfl⟩ := Reader.take_eq_ok_iff.mp htake
        exact ⟨h, block, hblock, rfl, rfl⟩
    · exact absurd hthrow Reader.throw_ne_ok
  · rintro ⟨h, block, hblock, rfl, rfl⟩
    exact read_append h hblock t

end Binlog.Decimal
