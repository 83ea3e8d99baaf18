import Binlog.Proofs.DecimalBlock
import Binlog.Proofs.Faultless
import Binlog.Proofs.Stopping

/-!
# Decimals are read whole or not at all

A decimal is read exactly if its digits are admitted and the bytes of its groups are ahead. Then
these bytes are passed over and no others are looked at. Otherwise the decimal is malformed, and the
bytes stay where they are.

**Two layouts.** How many bytes the groups have is computed before the first of them is read: by
quotient and remainder on either side of the point, and from a table. The groups are then read one
after the other from a buffer of these bytes. The two agree for all digits that are admitted, so no
group is cut and the buffer is used up.

**Domains.** The guarded reader subtracts the digits behind the point from all digits, looks widths
up, and takes the sign from the first byte of the buffer. It has no fault, over any bytes.

Main statement: `read_all_or_nothing`.
-/

namespace Binlog

open Reader GuardedCursor

/-! ## Guarded cursors -/

theorem GuardedCursor.Reads.run {α : Type} {r : Reader GuardedCursor DecodeError α} {bs t : Bytes}
    {a : α} (hr : Reads r bs a t) (hlen : bs.length < 2 ^ 64) :
    Faultless (GuardedCursor.run bs r) (.ok (a, bs.length - t.length)) := by
  obtain ⟨c, hrun, hc⟩ := hr bs _ (follows_start hlen)
  rw [← hc.offset_eq]
  exact run_of_ok hrun hc.offset_le_length hc.fault_eq

/-- Known values are taken from bytes of their own, and the cursor stays as it is. -/
theorem GuardedCursor.Reads.within {α : Type} {r : Reader GuardedCursor DecodeError α}
    {bs t : Bytes} {a : α} (hr : Reads r bs a t) (hlen : bs.length < 2 ^ 64) {c : GuardedCursor}
    (hc : c.fault = none) : GuardedCursor.within bs r c = .ok a c := by
  obtain ⟨c', hrun, hc'⟩ := hr bs _ (follows_start hlen)
  unfold GuardedCursor.within
  rw [hc]
  unfold start at hrun
  rw [hrun]
  dsimp only
  rw [hc'.firstFault_eq, ← hc]

theorem GuardedCursor.check_bind {ε α β : Type} [Inhabited α] {x : Except Fault α} {a : α}
    (hx : x = .ok a) (f : α → Reader GuardedCursor ε β) : (check x >>= f) = f a := by
  subst hx
  rfl

namespace Decimal

variable {precision scale : Nat}

/-! ## Refusals -/

/-- Why no decimal is read from the front of the bytes. -/
inductive Refused (precision scale : Nat) (bs : Bytes) : DecimalError → Prop
  | outOfRange (h : ¬ Admitted precision scale) : Refused precision scale bs
      (.outOfRange precision scale)
  | tooShort (h : Admitted precision scale) (hlen : bs.length < size precision scale) :
      Refused precision scale bs (.tooShort precision scale (size precision scale) bs.length)

/-- A decimal has a block in front of the bytes, or it is refused. -/
theorem block_or_refused (precision scale : Nat) (bs : Bytes) :
    (Admitted precision scale ∧ ∃ block t : Bytes,
      block.length = size precision scale ∧ bs = block ++ t) ∨
    ∃ cause, Refused precision scale bs cause := by
  by_cases h : Admitted precision scale
  · by_cases hlen : size precision scale ≤ bs.length
    · exact .inl ⟨h, _, _, List.length_take_of_le hlen, (List.take_append_drop _ bs).symm⟩
    · exact .inr ⟨_, .tooShort h (Nat.lt_of_not_le hlen)⟩
  · exact .inr ⟨_, .outOfRange h⟩

/-- What is refused is malformed, and the bytes stay unread. -/
theorem read_of_refused {bs : Bytes} {cause : DecimalError} (h : Refused precision scale bs cause) :
    (read precision scale : Reader Bytes DecodeError Decimal) bs =
      .error (.malformedDecimal cause) bs := by
  unfold read
  cases h with
  | outOfRange h =>
    rw [if_neg h]
    rfl
  | tooShort h hlen =>
    rw [if_pos h, left_bind, if_pos hlen]
    rfl

theorem read_eq_error_iff {bs t : Bytes} {e : DecodeError} :
    (read precision scale : Reader Bytes DecodeError Decimal) bs = .error e t ↔
      t = bs ∧ ∃ cause, Refused precision scale bs cause ∧ e = .malformedDecimal cause := by
  constructor
  · intro hread
    rcases block_or_refused precision scale bs with ⟨h, block, t', hblock, rfl⟩ | ⟨cause, hcause⟩
    · rw [read_append h hblock] at hread
      cases hread
    · rw [read_of_refused hcause] at hread
      cases hread
      exact ⟨rfl, cause, hcause, rfl⟩
  · rintro ⟨rfl, cause, hcause, rfl⟩
    exact read_of_refused hcause

/-! ## Groups -/

/-- The groups are read from the bytes of the block, all of them, and none is cut. -/
theorem readGroups_faultless (h : Admitted precision scale) {block : Bytes}
    (hblock : block.length = size precision scale) :
    Faultless (GuardedCursor.run (magnitude block) (readGroups (precision - scale) scale))
      (.ok (((ofBlock precision scale block).integer, (ofBlock precision scale block).fraction),
        size precision scale)) := by
  have hlen : (magnitude block).length = size precision scale := by
    rw [length_magnitude, hblock]
  have hrun := (reads_readGroups hlen).run (hlen ▸ size_lt h)
  -- behind the last group nothing is left
  have hpassed : (magnitude block).length -
      (((magnitude block).drop (layoutSize (integerLayout precision scale))).drop
        (layoutSize (fractionLayout scale))).length = size precision scale := by
    rw [List.drop_drop, List.length_drop, hlen, size, Nat.sub_self, Nat.sub_zero]
  rw [hpassed] at hrun
  exact hrun

/-! ## Guards -/

/-- Without a fault so far, the guarded reader goes as far as the end of the block. -/
theorem readGuarded_append (h : Admitted precision scale) {block : Bytes}
    (hblock : block.length = size precision scale) (t : Bytes) :
    readGuarded precision scale (start (block ++ t)) =
      .ok (ofBlock precision scale block) ⟨block ++ t, size precision scale, none⟩ := by
  have hmagnitude : (magnitude block).length = size precision scale := by
    rw [length_magnitude, hblock]
  have hwithin := (reads_readGroups hmagnitude).within (hmagnitude ▸ size_lt h)
    (c := ⟨block ++ t, size precision scale, none⟩) rfl
  have hle : size precision scale ≤ (block ++ t).length := by
    rw [List.length_append, hblock]
    exact Nat.le_add_right _ _
  have htake := take_start (ε := DecodeError) (size_lt h) hle
  rw [List.take_left' hblock] at htake
  -- a block has a first byte, which holds the sign
  obtain ⟨top, rest, rfl⟩ := exists_block_eq_cons h hblock
  have hfirst : Guard.get (top :: rest) 0 = .ok top := rfl
  have hsub : Guard.sub precision scale = .ok (precision - scale) := if_pos h.2.2.2
  rw [readGuarded, if_pos h, check_bind (sizeGuarded_eq h)]
  rw [left_start_bind, if_neg (Nat.not_lt_of_le hle)]
  refine bind_eq_ok_iff.mpr ⟨_, _, htake, ?_⟩
  rw [check_bind hfirst]
  simp only [check_bind hsub]
  exact bind_eq_ok_iff.mpr ⟨_, _, hwithin, rfl⟩

theorem readGuarded_of_refused {bs : Bytes} {cause : DecimalError}
    (h : Refused precision scale bs cause) :
    readGuarded precision scale (start bs) = .error (.malformedDecimal cause) (start bs) := by
  unfold readGuarded
  cases h with
  | outOfRange h =>
    rw [if_neg h]
    rfl
  | tooShort h hlen =>
    rw [if_pos h, check_bind (sizeGuarded_eq h), left_start_bind, if_pos hlen]
    rfl

/-- Over any bytes the guarded reader does what the reader does, without a fault. -/
theorem readGuarded_faultless (precision scale : Nat) (bs : Bytes) :
    Faultless (GuardedCursor.run bs (readGuarded precision scale))
      (passedOver bs <$> bs.read (read precision scale)) := by
  unfold Bytes.read
  rcases block_or_refused precision scale bs with ⟨h, block, t, hblock, rfl⟩ | ⟨cause, hcause⟩
  · rw [read_append h hblock]
    have hpassed : (block ++ t).length - t.length = size precision scale := by
      rw [List.length_append, Nat.add_sub_cancel, hblock]
    change Faultless _ (.ok (_, (block ++ t).length - t.length))
    rw [hpassed]
    refine run_of_ok (readGuarded_append h hblock t) ?_ rfl
    rw [← hpassed]
    exact Nat.sub_le _ _
  · rw [read_of_refused hcause]
    exact run_of_error (readGuarded_of_refused hcause) (Nat.zero_le _) rfl

/-! ## The main result -/

/-- **Whole decimals.** A decimal is read exactly if there are at least one and at most 65 digits,
of which at most 30 and no more than all stand behind the point, and the bytes of their groups are
ahead. Then the number of these bytes can be computed, exactly as many are passed over, the groups
are read from them without one being cut or a byte being left, and other bytes behind them would
change nothing. Otherwise the decimal is malformed, which is no underrun, and no byte is passed
over. Over all bytes the guarded reader does the same without a fault. -/
theorem read_all_or_nothing (precision scale : Nat) (bs : Bytes) :
    ((∃ d t, (read precision scale : Reader Bytes DecodeError Decimal) bs = .ok d t) ↔
      1 ≤ precision ∧ precision ≤ 65 ∧ scale ≤ 30 ∧ scale ≤ precision ∧
        size precision scale ≤ bs.length) ∧
    (∀ d t, (read precision scale : Reader Bytes DecodeError Decimal) bs = .ok d t →
      sizeGuarded precision scale = .ok (size precision scale) ∧
        ∃ block : Bytes, block.length = size precision scale ∧ bs = block ++ t ∧
          Faultless (GuardedCursor.run (magnitude block) (readGroups (precision - scale) scale))
            (.ok ((d.integer, d.fraction), size precision scale)) ∧
          ∀ tail, (read precision scale : Reader Bytes DecodeError Decimal) (block ++ tail) =
            .ok d tail) ∧
    (∀ e t, (read precision scale : Reader Bytes DecodeError Decimal) bs = .error e t ↔
      t = bs ∧ ∃ cause, Refused precision scale bs cause ∧ e = .malformedDecimal cause) ∧
    (∀ e t, (read precision scale : Reader Bytes DecodeError Decimal) bs = .error e t →
      e.isUnderrun = false) ∧
    Faultless (GuardedCursor.run bs (readGuarded precision scale))
      (passedOver bs <$> bs.read (read precision scale)) := by
  refine ⟨⟨?_, ?_⟩, ?_, fun e t => read_eq_error_iff, ?_, readGuarded_faultless precision scale bs⟩
  · rintro ⟨d, t, hread⟩
    obtain ⟨⟨hone, hmax, hscale, hle⟩, block, hblock, rfl, -⟩ := read_eq_ok_iff.mp hread
    refine ⟨hone, hmax, hscale, hle, ?_⟩
    rw [List.length_append, hblock]
    exact Nat.le_add_right _ _
  · rintro ⟨hone, hmax, hscale, hle, hsize⟩
    rcases block_or_refused precision scale bs with ⟨h, block, t, hblock, rfl⟩ | ⟨cause, hcause⟩
    · exact ⟨_, t, read_append h hblock t⟩
    · cases hcause with
      | outOfRange h => exact absurd ⟨hone, hmax, hscale, hle⟩ h
      | tooShort h hlen => exact absurd hsize (Nat.not_le_of_lt hlen)
  · intro d t hread
    obtain ⟨h, block, hblock, rfl, rfl⟩ := read_eq_ok_iff.mp hread
    exact ⟨sizeGuarded_eq h, block, hblock, rfl, readGroups_faultless h hblock,
      read_append h hblock⟩
  · intro e t hread
    obtain ⟨-, cause, -, rfl⟩ := read_eq_error_iff.mp hread
    rfl

/-- A partial group on either side of the point and a byte behind them; then the same block without
its last byte, and more digits behind the point than there are digits. -/
theorem read_all_or_nothing_partial_groups :
    (∃ d block, (read 5 2 : Reader Bytes DecodeError Decimal) [0x7f, 0x84, 0xd2, 9] = .ok d [9] ∧
      block ++ [9] = [0x7f, 0x84, 0xd2, 9] ∧
      (read 5 2 : Reader Bytes DecodeError Decimal) (block ++ [8]) = .ok d [8]) ∧
    (read 5 2 : Reader Bytes DecodeError Decimal) [0x7f, 0x84] =
      .error (.malformedDecimal (.tooShort 5 2 3 2)) [0x7f, 0x84] ∧
    (read 1 2 : Reader Bytes DecodeError Decimal) [0x80, 0] =
      .error (.malformedDecimal (.outOfRange 1 2)) [0x80, 0] ∧
    DecodeError.isUnderrun (.malformedDecimal (.tooShort 5 2 3 2)) = false := by
  obtain ⟨-, hwhole, -⟩ := read_all_or_nothing 5 2 [0x7f, 0x84, 0xd2, 9]
  obtain ⟨-, -, hshort, hunderrun, -⟩ := read_all_or_nothing 5 2 [0x7f, 0x84]
  obtain ⟨-, -, hrange, -⟩ := read_all_or_nothing 1 2 [0x80, 0]
  have hread : (read 5 2 : Reader Bytes DecodeError Decimal) [0x7f, 0x84, 0xd2, 9] =
      .ok ⟨5, 2, true, [123], [45]⟩ [9] := Bytes.read_eq_ok_iff.mp (by decide +kernel)
  have herror := (hshort (.malformedDecimal (.tooShort 5 2 3 2)) _).mpr
    ⟨rfl, _, .tooShort (by decide) (by decide), rfl⟩
  obtain ⟨-, block, -, hblock, -, hlater⟩ := hwhole _ _ hread
  refine ⟨⟨_, block, hread, hblock.symm, hlater [8]⟩, herror, ?_, hunderrun _ _ herror⟩
  exact (hrange _ _).mpr ⟨rfl, _, .outOfRange (by decide), rfl⟩

end Decimal

end Binlog
