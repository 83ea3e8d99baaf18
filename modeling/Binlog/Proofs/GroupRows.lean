import Binlog.Proofs.GuardedPayload
import Binlog.Proofs.Layouts

/-!
# Rows of groups

A row of groups is cut from bytes, as many for each group as its digits need. A group holds whatever
its bytes can, not only numbers of its digits, with one exception: the sign takes a bit of the first
byte, so the first group is below half the bound of its bytes.

**Rows.** Filling the bytes of a row from numbers is the inverse of cutting the bytes into groups
(`groups_fill`, `fill_groups`). Whether the first bit of a row is set shows in its first group
(`first_lt_iff`), whatever number of bytes that group has and on whichever side of the point it is.

**Blocks.** Behind the sign a block is a row whose first bit is clear. So `toBlock` and `ofBlock`
are inverse to each other, between the decimals that fit (`Fits`) and the blocks of the right size.

Main statements: `toBlock_ofBlock` and `Fits.ofBlock_toBlock`.
-/

/-! ## The highest digit -/

namespace Binlog.Bytes

theorem toNatLE_concat (bs : Bytes) (b : UInt8) :
    toNatLE (bs ++ [b]) = toNatLE bs + 256 ^ bs.length * b.toNat := by
  induction bs with
  | nil => simp [toNatLE]
  | cons c bs ih =>
    rw [List.cons_append, toNatLE, toNatLE, ih, List.length_cons, Nat.pow_succ', Nat.mul_add,
      Nat.mul_assoc, Nat.add_assoc]

theorem toNatBE_cons (b : UInt8) (bs : Bytes) :
    toNatBE (b :: bs) = b.toNat * 256 ^ bs.length + toNatBE bs := by
  rw [toNatBE, List.reverse_cons, toNatLE_concat, List.length_reverse, toNatBE, Nat.add_comm,
    Nat.mul_comm]

theorem toNatBE_lt (bs : Bytes) : toNatBE bs < 256 ^ bs.length :=
  NumberFormat.decode_lt (.big bs.length) bs rfl

/-- A number is below half the bound of its bytes exactly if the top bit of the first is clear. -/
theorem toNatBE_lt_half_iff (b : UInt8) (bs : Bytes) :
    toNatBE (b :: bs) < 256 ^ (b :: bs).length / 2 ↔ b < 0x80 := by
  have hlow := toNatBE_lt bs
  have hhalf : 256 ^ (b :: bs).length / 2 = 128 * 256 ^ bs.length := by
    rw [List.length_cons, Nat.pow_succ]
    omega
  have hb : b < 0x80 ↔ b.toNat < 128 := UInt8.lt_iff_toNat_lt
  rw [toNatBE_cons, hhalf, hb]
  constructor
  · intro hlt
    exact Nat.lt_of_mul_lt_mul_right (Nat.lt_of_le_of_lt (Nat.le_add_right _ _) hlt)
  · intro hlt
    calc b.toNat * 256 ^ bs.length + toNatBE bs
        < b.toNat * 256 ^ bs.length + 256 ^ bs.length := Nat.add_lt_add_left hlow _
      _ = (b.toNat + 1) * 256 ^ bs.length := (Nat.succ_mul _ _).symm
      _ ≤ 128 * 256 ^ bs.length := Nat.mul_le_mul_right _ hlt

end Binlog.Bytes

namespace Binlog.Decimal

/-! ## Rows -/

/-- Each group holds a number that its bytes can hold. -/
def Held (layout numbers : List Nat) : Prop :=
  ∀ g ∈ layout.zip numbers, g.2 < 256 ^ groupWidth g.1

instance (layout numbers : List Nat) : Decidable (Held layout numbers) :=
  inferInstanceAs (Decidable (∀ _ ∈ _, _))

/-- The bytes of a row of groups that hold the numbers. -/
def fill (layout numbers : List Nat) : Bytes :=
  (layout.zip numbers).flatMap fun g => Bytes.ofNatBE (groupWidth g.1) g.2

theorem length_ofNatBE (width n : Nat) : (Bytes.ofNatBE width n).length = width :=
  NumberFormat.length_encode (.big width) n

theorem length_fill {layout numbers : List Nat} (hlen : numbers.length = layout.length) :
    (fill layout numbers).length = layoutSize layout := by
  induction layout generalizing numbers with
  | nil => rfl
  | cons digits layout ih =>
    obtain ⟨n, numbers, rfl⟩ := List.exists_cons_of_length_eq_add_one hlen
    have hrest := ih (Nat.succ.inj hlen)
    rw [fill, List.zip_cons_cons, List.flatMap_cons, List.length_append, length_ofNatBE]
    exact congrArg (groupWidth digits + ·) hrest

/-- Numbers that the bytes hold are read back, whatever follows. -/
theorem groups_fill {layout numbers : List Nat} (hlen : numbers.length = layout.length)
    (hheld : Held layout numbers) (t : Bytes) :
    groups layout (fill layout numbers ++ t) = numbers := by
  induction layout generalizing numbers with
  | nil => exact (List.eq_nil_of_length_eq_zero hlen).symm
  | cons digits layout ih =>
    obtain ⟨n, numbers, rfl⟩ := List.exists_cons_of_length_eq_add_one hlen
    rw [Held, List.zip_cons_cons, List.forall_mem_cons] at hheld
    have hn : (Bytes.ofNatBE (groupWidth digits) n).toNatBE = n :=
      NumberFormat.decode_encode (.big _) n hheld.1
    have hcons : fill (digits :: layout) (n :: numbers) ++ t =
        Bytes.ofNatBE (groupWidth digits) n ++ (fill layout numbers ++ t) := by
      rw [fill, List.zip_cons_cons, List.flatMap_cons, List.append_assoc]
      rfl
    rw [groups, hcons, List.take_left' (length_ofNatBE _ n), List.drop_left' (length_ofNatBE _ n),
      hn, ih (Nat.succ.inj hlen) hheld.2]

/-- Bytes that are cut into groups are filled again. -/
theorem fill_groups {layout : List Nat} {bs : Bytes} (hlen : bs.length = layoutSize layout) :
    fill layout (groups layout bs) = bs := by
  induction layout generalizing bs with
  | nil => exact (List.eq_nil_of_length_eq_zero hlen).symm
  | cons digits layout ih =>
    have hsize : layoutSize (digits :: layout) = groupWidth digits + layoutSize layout := rfl
    rw [hsize] at hlen
    have htake : (bs.take (groupWidth digits)).length = groupWidth digits :=
      List.length_take_of_le (by omega)
    have hdrop : (bs.drop (groupWidth digits)).length = layoutSize layout := by
      rw [List.length_drop]
      omega
    have hfirst : Bytes.ofNatBE (groupWidth digits) (Bytes.toNatBE (bs.take (groupWidth digits))) =
        bs.take (groupWidth digits) := NumberFormat.encode_decode (.big _) _ htake
    have hrest := ih hdrop
    rw [fill] at hrest ⊢
    rw [groups, List.zip_cons_cons, List.flatMap_cons, hrest, hfirst, List.take_append_drop]

theorem length_groups (layout : List Nat) (bs : Bytes) :
    (groups layout bs).length = layout.length := by
  induction layout generalizing bs with
  | nil => rfl
  | cons digits layout ih => rw [groups, List.length_cons, ih, List.length_cons]

/-- The groups of a row hold no more than their bytes can. -/
theorem held_groups (layout : List Nat) (bs : Bytes) : Held layout (groups layout bs) := by
  induction layout generalizing bs with
  | nil => exact fun g hg => absurd hg List.not_mem_nil
  | cons digits layout ih =>
    rw [Held, groups, List.zip_cons_cons, List.forall_mem_cons]
    refine ⟨?_, ih _⟩
    have hle : (bs.take (groupWidth digits)).length ≤ groupWidth digits :=
      List.length_take_le _ _
    exact Nat.lt_of_lt_of_le (Bytes.toNatBE_lt _) (Nat.pow_le_pow_right (by decide) hle)

/-- The first group is below half the bound of its bytes exactly if the first bit is clear. -/
theorem first_lt_iff {digits : Nat} {layout : List Nat} (hpos : 0 < digits) {b : UInt8}
    {bs : Bytes} (hlen : (b :: bs).length = layoutSize (digits :: layout)) :
    (∀ g ∈ ((digits :: layout).zip (groups (digits :: layout) (b :: bs))).head?,
      g.2 < 256 ^ groupWidth g.1 / 2) ↔ b < 0x80 := by
  have hsize : layoutSize (digits :: layout) = groupWidth digits + layoutSize layout := rfl
  obtain ⟨width, hwidth⟩ : ∃ width, groupWidth digits = width + 1 :=
    ⟨groupWidth digits - 1, by simp only [groupWidth]; omega⟩
  have htake : (b :: bs.take width).length = width + 1 := by
    rw [List.length_cons] at hlen ⊢
    rw [List.length_take_of_le (by omega)]
  rw [groups, List.zip_cons_cons, List.head?_cons, hwidth, List.take_succ_cons]
  simp only [Option.mem_some_iff, forall_eq', hwidth]
  rw [← htake]
  exact Bytes.toNatBE_lt_half_iff b _

/-! ## Signs -/

/-- The bytes of a number with its sign in the top bit. -/
def sign (negative : Bool) (bytes : Bytes) : Bytes :=
  if negative then complement (flipTop bytes) else flipTop bytes

@[simp] theorem length_sign (negative : Bool) (bytes : Bytes) :
    (sign negative bytes).length = bytes.length := by
  cases negative <;> cases bytes <;> simp [sign, complement, flipTop]

theorem complement_complement (block : Bytes) : complement (complement block) = block := by
  have hbyte (b : UInt8) : b ^^^ 0xff ^^^ 0xff = b := by
    rw [UInt8.xor_assoc, UInt8.xor_self, UInt8.xor_zero]
  simp [complement, Function.comp_def, hbyte]

theorem flipTop_flipTop (block : Bytes) : flipTop (flipTop block) = block := by
  cases block with
  | nil => rfl
  | cons b rest => rw [flipTop, flipTop, UInt8.xor_assoc, UInt8.xor_self, UInt8.xor_zero]

theorem flipTop_complement (block : Bytes) :
    flipTop (complement block) = complement (flipTop block) := by
  cases block with
  | nil => rfl
  | cons b rest =>
    simp only [complement, flipTop, List.map_cons, UInt8.xor_assoc, UInt8.xor_comm 0xff]

theorem isNegative_sign (negative : Bool) {b : UInt8} (hb : b < 0x80) (rest : Bytes) :
    isNegative (sign negative (b :: rest)) = negative := by
  have hall : ∀ b : UInt8, b < 0x80 →
      (b ^^^ 0x80) &&& 0x80 ≠ 0 ∧ (b ^^^ 0x80 ^^^ 0xff) &&& 0x80 = 0 := by
    apply Bytes.forall_byte
    decide +kernel
  obtain ⟨hpositive, hnegative⟩ := hall b hb
  cases negative with
  | false => simpa [sign, flipTop, isNegative] using hpositive
  | true => simpa [sign, flipTop, complement, isNegative] using hnegative

theorem magnitude_sign (negative : Bool) {b : UInt8} (hb : b < 0x80) (rest : Bytes) :
    magnitude (sign negative (b :: rest)) = b :: rest := by
  rw [magnitude, isNegative_sign negative hb]
  cases negative with
  | false =>
    change flipTop (flipTop (b :: rest)) = _
    exact flipTop_flipTop _
  | true =>
    change complement (flipTop (complement (flipTop (b :: rest)))) = _
    rw [flipTop_complement, flipTop_flipTop, complement_complement]

/-- Behind the sign the first bit of a block is clear. -/
theorem exists_magnitude_eq_cons (b : UInt8) (rest : Bytes) :
    ∃ c more, magnitude (b :: rest) = c :: more ∧ c < 0x80 := by
  have hall : ∀ b : UInt8, ((b &&& 0x80 == 0) = true → b ^^^ 0x80 ^^^ 0xff < 0x80) ∧
      ((b &&& 0x80 == 0) = false → b ^^^ 0x80 < 0x80) := by
    apply Bytes.forall_byte
    decide +kernel
  obtain ⟨hnegative, hpositive⟩ := hall b
  cases hsign : isNegative (b :: rest) with
  | true =>
    rw [magnitude, hsign, if_pos rfl]
    exact ⟨_, _, rfl, hnegative hsign⟩
  | false =>
    rw [magnitude, hsign, if_neg Bool.false_ne_true]
    exact ⟨_, _, rfl, hpositive hsign⟩

/-- A block is its sign over what it holds. -/
theorem sign_magnitude (block : Bytes) : sign (isNegative block) (magnitude block) = block := by
  cases hsign : isNegative block with
  | true =>
    rw [magnitude, hsign, if_pos rfl, sign, if_pos rfl, flipTop_complement, flipTop_flipTop,
      complement_complement]
  | false =>
    rw [magnitude, hsign, if_neg Bool.false_ne_true, sign, if_neg Bool.false_ne_true,
      flipTop_flipTop]

/-! ## Layouts -/

variable {precision scale : Nat}

theorem pos_of_mem_shortGroup {digits k : Nat} (h : k ∈ shortGroup digits) : 0 < k := by
  unfold shortGroup at h
  split at h
  next => exact absurd h List.not_mem_nil
  next hne =>
    rw [List.mem_singleton.mp h]
    exact Nat.pos_of_ne_zero hne

theorem pos_of_mem_integerLayout {precision scale k : Nat}
    (h : k ∈ integerLayout precision scale) : 0 < k := by
  obtain h | h := List.mem_append.mp h
  · exact pos_of_mem_shortGroup h
  · rw [List.eq_of_mem_replicate h]
    decide

theorem pos_of_mem_fractionLayout {scale k : Nat} (h : k ∈ fractionLayout scale) : 0 < k := by
  obtain h | h := List.mem_append.mp h
  · rw [List.eq_of_mem_replicate h]
    decide
  · exact pos_of_mem_shortGroup h

/-- How many digits each group of a block has. -/
def blockLayout (precision scale : Nat) : List Nat :=
  integerLayout precision scale ++ fractionLayout scale

theorem layoutSize_blockLayout (precision scale : Nat) :
    layoutSize (blockLayout precision scale) = size precision scale :=
  layoutSize_append _ _

theorem length_shortGroup (digits : Nat) :
    (shortGroup digits).length = (digits + 8) / 9 - digits / 9 := by
  unfold shortGroup
  split
  · rw [List.length_nil]
    omega
  · rw [List.length_singleton]
    omega

theorem length_integerLayout (precision scale : Nat) :
    (integerLayout precision scale).length = (precision - scale + 8) / 9 := by
  rw [integerLayout, List.length_append, length_shortGroup, List.length_replicate]
  omega

theorem length_fractionLayout (scale : Nat) :
    (fractionLayout scale).length = (scale + 8) / 9 := by
  rw [fractionLayout, List.length_append, length_shortGroup, List.length_replicate]
  omega

theorem pos_of_mem_blockLayout {digits : Nat} (h : digits ∈ blockLayout precision scale) :
    0 < digits := by
  rcases List.mem_append.mp h with h | h
  · exact pos_of_mem_integerLayout h
  · exact pos_of_mem_fractionLayout h

/-- A block that is admitted has a first group. -/
theorem exists_blockLayout_eq_cons (h : Admitted precision scale) :
    ∃ digits layout, blockLayout precision scale = digits :: layout ∧ 0 < digits := by
  cases hlayout : blockLayout precision scale with
  | nil =>
    have hpos := size_pos h
    rw [← layoutSize_blockLayout, hlayout] at hpos
    exact absurd hpos (Nat.lt_irrefl 0)
  | cons digits layout =>
    have hmem : digits ∈ blockLayout precision scale := by
      rw [hlayout]
      exact List.mem_cons_self
    exact ⟨digits, layout, rfl, pos_of_mem_blockLayout hmem⟩

/-! ## Blocks -/

/-- A decimal that a block can hold: as many groups on either side of the point as there are nines
of digits, rounded up; every group within its bytes; and the very first within half their bound. -/
structure Fits (precision scale : Nat) (d : Decimal) : Prop where
  precision_eq : d.precision = precision
  scale_eq : d.scale = scale
  length_integer : d.integer.length = (precision - scale + 8) / 9
  length_fraction : d.fraction.length = (scale + 8) / 9
  held : Held (blockLayout precision scale) (d.integer ++ d.fraction)
  first_lt : ∀ g ∈ ((blockLayout precision scale).zip (d.integer ++ d.fraction)).head?,
    g.2 < 256 ^ groupWidth g.1 / 2

/-- The block that holds a decimal. -/
def toBlock (d : Decimal) : Bytes :=
  sign d.negative (fill (blockLayout d.precision d.scale) (d.integer ++ d.fraction))

theorem integer_append_fraction (precision scale : Nat) (block : Bytes) :
    (ofBlock precision scale block).integer ++ (ofBlock precision scale block).fraction =
      groups (blockLayout precision scale) (magnitude block) :=
  (groups_append _ _ _).symm

/-- The decimal that a block holds tells the block. -/
theorem toBlock_ofBlock {block : Bytes} (hblock : block.length = size precision scale) :
    (ofBlock precision scale block).toBlock = block := by
  have hlen : (magnitude block).length = layoutSize (blockLayout precision scale) := by
    rw [length_magnitude, layoutSize_blockLayout, hblock]
  rw [toBlock, integer_append_fraction]
  change sign (isNegative block) (fill (blockLayout precision scale) _) = block
  rw [fill_groups hlen, sign_magnitude]

/-- Two blocks with the same sign and the same groups are the same. -/
theorem ofBlock_injective {block block' : Bytes} (hblock : block.length = size precision scale)
    (hblock' : block'.length = size precision scale)
    (hsame : (ofBlock precision scale block).negative = (ofBlock precision scale block').negative ∧
      (ofBlock precision scale block).integer = (ofBlock precision scale block').integer ∧
        (ofBlock precision scale block).fraction = (ofBlock precision scale block').fraction) :
    block = block' := by
  obtain ⟨hnegative, hinteger, hfraction⟩ := hsame
  rw [← toBlock_ofBlock hblock, ← toBlock_ofBlock hblock', toBlock, toBlock, hnegative, hinteger,
    hfraction]
  rfl

theorem exists_block_eq_cons (h : Admitted precision scale) {block : Bytes}
    (hblock : block.length = size precision scale) : ∃ b rest, block = b :: rest := by
  apply List.exists_cons_of_length_pos
  rw [hblock]
  exact size_pos h

/-- Every block of the right size holds a decimal that fits. -/
theorem fits_ofBlock (h : Admitted precision scale) {block : Bytes}
    (hblock : block.length = size precision scale) :
    Fits precision scale (ofBlock precision scale block) := by
  refine ⟨rfl, rfl, ?_, ?_, ?_, ?_⟩
  · rw [← length_integerLayout]
    exact length_groups _ _
  · rw [← length_fractionLayout]
    exact length_groups _ _
  · rw [integer_append_fraction]
    exact held_groups _ _
  · obtain ⟨b, rest, rfl⟩ := exists_block_eq_cons h hblock
    obtain ⟨c, more, hmagnitude, hc⟩ := exists_magnitude_eq_cons b rest
    obtain ⟨digits, layout, hlayout, hpos⟩ := exists_blockLayout_eq_cons h
    have hlen : (c :: more).length = layoutSize (digits :: layout) := by
      rw [← hmagnitude, length_magnitude, hblock, ← hlayout, layoutSize_blockLayout]
    rw [integer_append_fraction, hmagnitude, hlayout]
    exact (first_lt_iff hpos hlen).mpr hc

namespace Fits

variable {d : Decimal}

theorem length_append (hd : Fits precision scale d) :
    (d.integer ++ d.fraction).length = (blockLayout precision scale).length := by
  rw [List.length_append, hd.length_integer, hd.length_fraction, blockLayout, List.length_append,
    length_integerLayout, length_fractionLayout]

theorem toBlock_eq (hd : Fits precision scale d) : d.toBlock =
    sign d.negative (fill (blockLayout precision scale) (d.integer ++ d.fraction)) := by
  rw [toBlock, hd.precision_eq, hd.scale_eq]

theorem length_toBlock (hd : Fits precision scale d) :
    d.toBlock.length = size precision scale := by
  rw [hd.toBlock_eq, length_sign, length_fill hd.length_append, layoutSize_blockLayout]

/-- The bytes of the groups leave room for the sign. -/
theorem exists_fill_eq_cons (hd : Fits precision scale d) (h : Admitted precision scale) :
    ∃ b rest, fill (blockLayout precision scale) (d.integer ++ d.fraction) = b :: rest ∧
      b < 0x80 := by
  have hgroups := groups_fill hd.length_append hd.held []
  have hlen := length_fill hd.length_append
  have hfirst := hd.first_lt
  obtain ⟨digits, layout, hlayout, hpos⟩ := exists_blockLayout_eq_cons h
  cases hfill : fill (blockLayout precision scale) (d.integer ++ d.fraction) with
  | nil =>
    rw [hfill, layoutSize_blockLayout] at hlen
    exact absurd (size_pos h) (Nat.not_lt_of_le (Nat.le_of_eq hlen.symm))
  | cons b rest =>
    rw [hfill, List.append_nil, hlayout] at hgroups
    rw [hfill, hlayout] at hlen
    rw [hlayout, ← hgroups] at hfirst
    exact ⟨b, rest, rfl, (first_lt_iff hpos hlen).mp hfirst⟩

/-- A decimal that fits is held by its block. -/
theorem ofBlock_toBlock (hd : Fits precision scale d) (h : Admitted precision scale) :
    ofBlock precision scale d.toBlock = d := by
  obtain ⟨b, rest, hfill, hb⟩ := hd.exists_fill_eq_cons h
  have hnegative : isNegative d.toBlock = d.negative := by
    rw [hd.toBlock_eq, hfill, isNegative_sign d.negative hb]
  have hmagnitude : magnitude d.toBlock =
      fill (blockLayout precision scale) (d.integer ++ d.fraction) := by
    rw [hd.toBlock_eq, hfill, magnitude_sign d.negative hb]
  have hgroups := groups_fill hd.length_append hd.held []
  rw [List.append_nil, ← hmagnitude, ← integer_append_fraction] at hgroups
  have hlen : (ofBlock precision scale d.toBlock).integer.length = d.integer.length := by
    rw [hd.length_integer, ← length_integerLayout]
    exact length_groups _ _
  obtain ⟨hinteger, hfraction⟩ := List.append_inj hgroups hlen
  cases d with
  | mk precision' scale' negative integer fraction =>
    rw [ofBlock, Decimal.mk.injEq]
    exact ⟨hd.precision_eq.symm, hd.scale_eq.symm, hnegative, hinteger, hfraction⟩

end Fits

end Binlog.Decimal
