import Binlog.Proofs.CanonicalDecimal

/-!
# Blocks and groups correspond one to one

A block of packed digits tells its sign and its groups, and these tell the block: no two blocks hold
the same sign and groups, and every decimal that fits is held by a block.

**Complements.** With every bit flipped, a block has the other sign over the same row. So it is read
as the opposite number, and its text differs in the sign alone.

Main statement: `read_one_to_one`.
-/

namespace Binlog.Decimal

variable {precision scale : Nat}

/-! ## Complements -/

theorem isNegative_complement (b : UInt8) (rest : Bytes) :
    isNegative (complement (b :: rest)) = !isNegative (b :: rest) := by
  have hall : ∀ b : UInt8, ((b ^^^ 0xff) &&& 0x80 == 0) = !(b &&& 0x80 == 0) := by
    apply Bytes.forall_byte
    decide +kernel
  exact hall b

/-- With every bit flipped a block holds the same row. -/
theorem magnitude_complement (b : UInt8) (rest : Bytes) :
    magnitude (complement (b :: rest)) = magnitude (b :: rest) := by
  rw [magnitude, magnitude, isNegative_complement, flipTop_complement]
  cases isNegative (b :: rest) with
  | true => rfl
  | false => exact complement_complement _

theorem complement_eq (block : Bytes) : complement block = block.map (~~~ ·) :=
  List.map_congr_left fun _ _ => UInt8.xor_neg_one

/-- A block with every bit flipped holds the same groups, with the other sign. -/
theorem ofBlock_complement (h : Admitted precision scale) {block : Bytes}
    (hblock : block.length = size precision scale) :
    ofBlock precision scale (complement block) =
      { ofBlock precision scale block with
        negative := !(ofBlock precision scale block).negative } := by
  obtain ⟨b, rest, rfl⟩ := exists_block_eq_cons h hblock
  simp only [ofBlock, isNegative_complement, magnitude_complement]

/-- The number as text, without its sign. -/
def unsignedText (d : Decimal) : String :=
  .ofList (d.integerDigits ++ if d.scale = 0 then [] else '.' :: d.fractionDigits)

theorem text_eq (d : Decimal) : d.text = (if d.negative then "-" else "") ++ d.unsignedText := by
  rw [text, chars, unsignedText, List.append_assoc, String.ofList_append]
  cases d.negative <;> rfl

theorem minus_notMem_unsignedText (d : Decimal) : '-' ∉ d.unsignedText.toList := by
  have hdigit : Char.isDigit '-' = false := by decide
  rw [unsignedText, String.toList_ofList, List.mem_append, not_or]
  constructor
  · intro hmem
    rw [isDigit_of_mem_integerDigits hmem] at hdigit
    cases hdigit
  · intro hmem
    split at hmem
    · exact absurd hmem List.not_mem_nil
    · rcases List.mem_cons.mp hmem with hmem | hmem
      · exact absurd hmem (by decide)
      · rw [isDigit_of_mem_groupDigits hmem] at hdigit
        cases hdigit

/-! ## The main result -/

/-- **Blocks and groups.** Every block of the right size is read as a decimal that fits, no two
blocks are read as the same sign and groups, and every decimal that fits, of either sign, is read
from a block. With every bit flipped a block is read as the same groups with the other sign, and the
texts differ in the sign alone. -/
theorem read_one_to_one (h : Admitted precision scale) :
    (∀ block t : Bytes, block.length = size precision scale → ∃ d : Decimal,
      (read precision scale : Reader Bytes DecodeError Decimal) (block ++ t) = .ok d t ∧
        Fits precision scale d) ∧
    (∀ (block block' t t' : Bytes) (d d' : Decimal),
      block.length = size precision scale → block'.length = size precision scale →
        (read precision scale : Reader Bytes DecodeError Decimal) (block ++ t) = .ok d t →
          (read precision scale : Reader Bytes DecodeError Decimal) (block' ++ t') = .ok d' t' →
            (d.negative, d.integer, d.fraction) = (d'.negative, d'.integer, d'.fraction) →
              block = block') ∧
    (∀ d : Decimal, Fits precision scale d →
      ∃ block : Bytes, block.length = size precision scale ∧ ∀ t : Bytes,
        (read precision scale : Reader Bytes DecodeError Decimal) (block ++ t) = .ok d t) ∧
    ∀ (block t : Bytes) (d : Decimal), block.length = size precision scale →
      (read precision scale : Reader Bytes DecodeError Decimal) (block ++ t) = .ok d t →
        (read precision scale : Reader Bytes DecodeError Decimal) (block.map (~~~ ·) ++ t) =
            .ok { d with negative := !d.negative } t ∧
          ∃ digits : String, '-' ∉ digits.toList ∧
            d.text = (if d.negative then "-" else "") ++ digits ∧
            ({ d with negative := !d.negative } : Decimal).text =
              (if d.negative then "" else "-") ++ digits := by
  have hread {block t : Bytes} {d : Decimal} (hblock : block.length = size precision scale)
      (hd : (read precision scale : Reader Bytes DecodeError Decimal) (block ++ t) = .ok d t) :
      d = ofBlock precision scale block := by
    rw [read_append h hblock] at hd
    cases hd
    rfl
  refine ⟨?_, ?_, ?_, ?_⟩
  · intro block t hblock
    exact ⟨_, read_append h hblock t, fits_ofBlock h hblock⟩
  · intro block block' t t' d d' hblock hblock' hd hd' hsame
    rw [hread hblock hd, hread hblock' hd', Prod.mk.injEq, Prod.mk.injEq] at hsame
    exact ofBlock_injective hblock hblock' hsame
  · intro d hd
    refine ⟨d.toBlock, hd.length_toBlock, fun t => ?_⟩
    rw [read_append h hd.length_toBlock, hd.ofBlock_toBlock h]
  · intro block t d hblock hd
    have hflipped : (block.map (~~~ ·)).length = size precision scale := by
      rw [List.length_map, hblock]
    refine ⟨?_, d.unsignedText, d.minus_notMem_unsignedText, d.text_eq, ?_⟩
    · rw [read_append h hflipped, ← complement_eq, ofBlock_complement h hblock, hread hblock hd]
    · rw [text_eq]
      cases d.negative <;> rfl

/-- Without digits before the point the sign is in the byte of the first group behind it, which
leaves seven bits for the group. A block with every bit flipped is that of the opposite number. -/
theorem read_one_to_one_fraction_first :
    (∃ block : Bytes, block.length = 1 ∧
      (read 1 1 : Reader Bytes DecodeError Decimal) (block ++ [9]) =
        .ok ⟨1, 1, true, [], [127]⟩ [9]) ∧
      ¬ Fits 1 1 ⟨1, 1, true, [], [128]⟩ ∧
      (read 10 0 : Reader Bytes DecodeError Decimal) [0x7e, 0xff, 0xff, 0xff, 0xfd] =
        .ok ⟨10, 0, true, [1, 2], []⟩ [] := by
  have hfits : Fits 1 1 ⟨1, 1, true, [], [127]⟩ := ⟨rfl, rfl, rfl, rfl, by decide, by decide⟩
  obtain ⟨-, -, hblocks, -⟩ := read_one_to_one (by decide : Admitted 1 1)
  obtain ⟨-, -, -, hflip⟩ := read_one_to_one (by decide : Admitted 10 0)
  refine ⟨?_, ?_, ?_⟩
  · obtain ⟨block, hblock, hread⟩ := hblocks _ hfits
    exact ⟨block, hblock, hread [9]⟩
  · intro htoo
    exact absurd (htoo.first_lt (1, 128) rfl) (by decide)
  · have hread : (read 10 0 : Reader Bytes DecodeError Decimal) ([0x81, 0, 0, 0, 2] ++ []) =
        .ok ⟨10, 0, false, [1, 2], []⟩ [] := Bytes.read_eq_ok_iff.mp (by decide +kernel)
    exact (hflip _ _ _ (by decide) hread).1

end Binlog.Decimal
