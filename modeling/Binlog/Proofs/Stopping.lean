import Binlog.Bytes.Script
import Binlog.Proofs.Failing

/-!
# Where a read stops

Behind a failure a reader may have passed over bytes that it does not give back. So a failure has a
place besides its cause, and whoever goes on reading needs to know it. Here the equivalences of
`Binlog.Proofs.Failing` are given with the place: `r s = .error e t` tells which bytes are left.

**Stops** (`ReadStep.Stops`). All ways in which a step fails, with the number of bytes that stay
passed over. Only two of them leave anything behind: the length in front of bytes that are cut, and
the tag in front of a number that is cut.

**Settled reads** (`Reader.Settles`). What a successful step gives is settled by the bytes that it
passes over, whatever stands behind them. A step that takes all that is left is settled by its end
too, and one that only looks ahead is not settled by what it passes over, which is nothing.

Main statements: `ReadStep.run_eq_error_iff` and `ReadStep.settles_run`.
-/

namespace Binlog

theorem NumberFormat.drop_little_append (width n : Nat) (t : Bytes) :
    ((little width).encode n ++ t).drop width = t := List.drop_left' (length_encode _ n)

namespace Reader

/-! ## Composition -/

section Composition

variable {σ ε α β : Type} {s t : σ} {e : ε}

theorem pure_ne_error {a : α} : (pure a : Reader σ ε α) s ≠ .error e t := by
  change EStateM.Result.ok a s ≠ .error e t
  simp

theorem throw_eq_error_iff {e' : ε} :
    (throw e' : Reader σ ε α) s = .error e t ↔ e = e' ∧ t = s := by
  change EStateM.Result.error e' s = .error e t ↔ _
  rw [EStateM.Result.error.injEq, @eq_comm _ e, @eq_comm _ t]

theorem bind_eq_error_iff {x : Reader σ ε α} {f : α → Reader σ ε β} :
    (x >>= f) s = .error e t ↔ x s = .error e t ∨ ∃ a u, x s = .ok a u ∧ f a u = .error e t := by
  change EStateM.bind x f s = .error e t ↔ _
  unfold EStateM.bind
  cases x s with
  | ok a u =>
    refine ⟨fun h => .inr ⟨a, u, rfl, h⟩, ?_⟩
    rintro (hx | ⟨_, _, hx, h⟩)
    · cases hx
    · cases hx
      exact h
  | error e' u => simp

/-- What is made of a value cannot fail. -/
theorem bind_pure_eq_error_iff {x : Reader σ ε α} {f : α → β} :
    (x >>= fun a => pure (f a)) s = .error e t ↔ x s = .error e t := by
  simp only [bind_eq_error_iff, pure_ne_error, and_false, exists_false, or_false]

end Composition

/-! ## Runs of bytes -/

section Bytes

variable {ε : Type} [OfReadError ε] {s t : Bytes} {e : ε}

theorem take_eq_error_iff {n : Nat} : (take n : Reader Bytes ε Bytes) s = .error e t ↔
    s.length < n ∧ e = cut (n - s.length) ∧ t = s := by
  have htake : ByteSource.take? n s =
      if n ≤ s.length then some (s.take n, s.drop n) else none := rfl
  unfold take
  rw [htake]
  by_cases hn : n ≤ s.length
  · simp [hn, Nat.not_lt_of_le hn]
  · rw [if_neg hn]
    change EStateM.Result.error (cut (n - s.length)) s = .error e t ↔ _
    rw [EStateM.Result.error.injEq, @eq_comm _ e, @eq_comm _ t]
    exact ⟨fun h => ⟨Nat.lt_of_not_le hn, h⟩, fun h => h.2⟩

theorem rest_ne_error : (rest : Reader Bytes ε Bytes) s ≠ .error e t := by
  have hrest : (rest : Reader Bytes ε Bytes) s = .ok s [] := rest_eq_ok_iff.mpr ⟨rfl, rfl⟩
  simp [hrest]

theorem takeUntil_eq_error_iff {b : UInt8} {inclusive : Bool} :
    (takeUntil b inclusive : Reader Bytes ε Bytes) s = .error e t ↔
      b ∉ s ∧ e = OfReadError.ofReadError (.incomplete .unknown) ∧ t = s := by
  by_cases hb : b ∈ s
  · obtain ⟨front, rest, rfl, hfront⟩ := List.eq_append_cons_of_mem hb
    simp [takeUntil_append_cons hfront]
  · rw [takeUntil_of_notMem hb, EStateM.Result.error.injEq, @eq_comm _ e, @eq_comm _ t]
    exact ⟨fun h => ⟨hb, h⟩, fun h => h.2⟩

/-- A NUL within the limit ends the text. -/
theorem takeCString_append_cons {max : Nat} {bs : Bytes} (hbs : 0 ∉ bs) (hmax : bs.length < max) :
    (takeCString max : Reader Bytes ε Bytes) (bs ++ 0 :: t) = .ok bs t := by
  have hfront : (bs ++ 0 :: t).take max = bs ++ 0 :: t.take (max - bs.length - 1) := by
    obtain ⟨k, rfl⟩ := Nat.exists_eq_add_of_lt hmax
    rw [List.take_append, List.take_of_length_le (by omega)]
    simp [Nat.add_assoc]
  have hunread : (unread : Reader Bytes ε Bytes) (bs ++ 0 :: t) =
      .ok (bs ++ 0 :: t) (bs ++ 0 :: t) := rfl
  have htake : (take (bs.length + 1) : Reader Bytes ε Bytes) (bs ++ 0 :: t) =
      .ok (bs ++ [0]) t := take_eq_ok_iff.mpr ⟨by simp, by simp⟩
  rw [takeCString, bind_of_ok hunread, hfront, Bytes.idxOf?_append_cons hbs]
  dsimp only
  rw [bind_of_ok htake, pure_eq_ok_iff]
  simp

/-- Without a NUL within the limit, the bytes up to the limit are taken. -/
theorem takeCString_of_notMem {max : Nat} (h : 0 ∉ s.take max) :
    (takeCString max : Reader Bytes ε Bytes) s = take max s := by
  have hunread : (unread : Reader Bytes ε Bytes) s = .ok s s := rfl
  rw [takeCString, bind_of_ok hunread, List.idxOf?_eq_none_iff.mpr h]

/-- A NUL among the first bytes has others in front of it that are not NUL. -/
theorem exists_append_cons_of_mem_take {b : UInt8} {max : Nat} (h : b ∈ s.take max) :
    ∃ front rest, s = front ++ b :: rest ∧ b ∉ front ∧ front.length < max := by
  obtain ⟨front, rest, htake, hfront⟩ := List.eq_append_cons_of_mem h
  refine ⟨front, rest ++ s.drop max, ?_, hfront, ?_⟩
  · rw [← List.cons_append, ← List.append_assoc, ← htake, List.take_append_drop]
  · have hlen := congrArg List.length htake
    rw [List.length_take, List.length_append, List.length_cons] at hlen
    omega

theorem takeCString_eq_error_iff {max : Nat} :
    (takeCString max : Reader Bytes ε Bytes) s = .error e t ↔
      0 ∉ s ∧ s.length < max ∧ e = cut (max - s.length) ∧ t = s := by
  by_cases h : 0 ∈ s.take max
  · obtain ⟨front, rest, rfl, hfront, hmax⟩ := exists_append_cons_of_mem_take h
    simp [takeCString_append_cons hfront hmax]
  · rw [takeCString_of_notMem h, take_eq_error_iff]
    refine ⟨fun hcut => ⟨?_, hcut⟩, fun hcut => hcut.2⟩
    rwa [List.take_of_length_le (Nat.le_of_lt hcut.1)] at h

/-! ### Numbers -/

theorem number_eq_error_iff {f : NumberFormat} : (number f : Reader Bytes ε Nat) s = .error e t ↔
    s.length < f.width ∧ e = cut (f.width - s.length) ∧ t = s := by
  rw [number, bind_pure_eq_error_iff, take_eq_error_iff]

theorem u8_eq_error_iff :
    (u8 : Reader Bytes ε UInt8) s = .error e t ↔ s = [] ∧ e = cut 1 ∧ t = s := by
  rw [u8, bind_pure_eq_error_iff, number_eq_error_iff]
  cases s with
  | nil => simp [NumberFormat.little]
  | cons b rest => simp [NumberFormat.little]

theorem u16_eq_error_iff : (u16 : Reader Bytes ε UInt16) s = .error e t ↔
    s.length < 2 ∧ e = cut (2 - s.length) ∧ t = s := by
  rw [u16, bind_pure_eq_error_iff, number_eq_error_iff]
  rfl

theorem u24_eq_error_iff : (u24 : Reader Bytes ε UInt32) s = .error e t ↔
    s.length < 3 ∧ e = cut (3 - s.length) ∧ t = s := by
  rw [u24, bind_pure_eq_error_iff, number_eq_error_iff]
  rfl

theorem u64_eq_error_iff : (u64 : Reader Bytes ε UInt64) s = .error e t ↔
    s.length < 8 ∧ e = cut (8 - s.length) ∧ t = s := by
  rw [u64, bind_pure_eq_error_iff, number_eq_error_iff]
  rfl

/-- A length-encoded integer fails at its tag, which stays unread, or behind it. -/
theorem lenEncInt_eq_error_iff : (lenEncInt : Reader Bytes ε LenEncInt) s = .error e t ↔
    s = [] ∧ e = cut 1 ∧ t = s ∨
      ∃ tag width, (tag, width) ∈ [((0xfc : UInt8), 2), (0xfd, 3), (0xfe, 8)] ∧
        s = tag :: t ∧ t.length < width ∧ e = cut (width - t.length) := by
  rw [lenEncInt, bind_eq_error_iff, u8_eq_error_iff]
  refine or_congr_right ⟨?_, ?_⟩
  · rintro ⟨tag, u, htag, h⟩
    obtain rfl := u8_eq_ok_iff.mp htag
    split at h
    · exact absurd h pure_ne_error
    · rw [bind_pure_eq_error_iff, u16_eq_error_iff] at h
      obtain ⟨hlt, rfl, rfl⟩ := h
      exact ⟨0xfc, 2, by decide, rfl, hlt, rfl⟩
    · rw [bind_pure_eq_error_iff, u24_eq_error_iff] at h
      obtain ⟨hlt, rfl, rfl⟩ := h
      exact ⟨0xfd, 3, by decide, rfl, hlt, rfl⟩
    · rw [bind_pure_eq_error_iff, u64_eq_error_iff] at h
      obtain ⟨hlt, rfl, rfl⟩ := h
      exact ⟨0xfe, 8, by decide, rfl, hlt, rfl⟩
    · exact absurd h pure_ne_error
    · exact absurd h pure_ne_error
  · rintro ⟨tag, width, hmem, rfl, hlt, rfl⟩
    refine ⟨tag, t, u8_eq_ok_iff.mpr rfl, ?_⟩
    simp only [List.mem_cons, Prod.mk.injEq, List.not_mem_nil, or_false] at hmem
    obtain ⟨rfl, rfl⟩ | ⟨rfl, rfl⟩ | ⟨rfl, rfl⟩ := hmem
    · exact bind_pure_eq_error_iff.mpr (u16_eq_error_iff.mpr ⟨hlt, rfl, rfl⟩)
    · exact bind_pure_eq_error_iff.mpr (u24_eq_error_iff.mpr ⟨hlt, rfl, rfl⟩)
    · exact bind_pure_eq_error_iff.mpr (u64_eq_error_iff.mpr ⟨hlt, rfl, rfl⟩)

/-- A run of bytes behind its length fails for a width that there is none of, at the length, which
stays unread, or behind it. -/
theorem takePrefixed_eq_error_iff {width : Nat} :
    (takePrefixed width : Reader Bytes ε Bytes) s = .error e t ↔
      width ∉ prefixWidths ∧ e = OfReadError.ofReadError (.badWidth width) ∧ t = s ∨
      width ∈ prefixWidths ∧ s.length < width ∧ e = cut (width - s.length) ∧ t = s ∨
      width ∈ prefixWidths ∧ ∃ n < 256 ^ width, s = (NumberFormat.little width).encode n ++ t ∧
        t.length < n ∧ e = cut (n - t.length) := by
  by_cases hw : width ∈ prefixWidths
  · simp only [takePrefixed, hw, ↓reduceIte, bind_eq_error_iff, number_eq_error_iff,
      number_eq_ok_iff, take_eq_error_iff, not_true_eq_false, false_and, true_and, false_or]
    refine or_congr_right ⟨?_, ?_⟩
    · rintro ⟨n, u, ⟨hn, rfl⟩, hlt, rfl, rfl⟩
      exact ⟨n, hn, rfl, hlt, rfl⟩
    · rintro ⟨n, hn, rfl, hlt, rfl⟩
      exact ⟨n, t, ⟨hn, rfl⟩, hlt, rfl, rfl⟩
  · simp only [takePrefixed, hw, ↓reduceIte, fail, throw_eq_error_iff, not_false_eq_true, true_and,
      false_and, or_false]

end Bytes

/-! ## Settled reads -/

section Settled

variable {ε α β : Type}

/-- What the reader gives is settled by the bytes it passes over, whatever stands behind them. -/
def Settles (r : Reader Bytes ε α) : Prop :=
  ∀ s a t, r s = .ok a t → ∃ front, s = front ++ t ∧ ∀ tail, r (front ++ tail) = .ok a tail

namespace Settles

theorem pure (a : α) : Settles (Pure.pure a : Reader Bytes ε α) := by
  intro s b t h
  obtain ⟨rfl, rfl⟩ := pure_eq_ok_iff.mp h
  exact ⟨[], rfl, fun tail => rfl⟩

theorem throw (e : ε) : Settles (MonadExcept.throw e : Reader Bytes ε α) :=
  fun _ _ _ h => absurd h throw_ne_ok

theorem bind {x : Reader Bytes ε α} {f : α → Reader Bytes ε β} (hx : Settles x)
    (hf : ∀ a, Settles (f a)) : Settles (x >>= f) := by
  intro s b t h
  obtain ⟨a, u, hxa, hfb⟩ := bind_eq_ok_iff.mp h
  obtain ⟨front, rfl, hfront⟩ := hx s a u hxa
  obtain ⟨back, rfl, hback⟩ := hf a u b t hfb
  refine ⟨front ++ back, (List.append_assoc ..).symm, fun tail => ?_⟩
  rw [List.append_assoc]
  exact bind_eq_ok_iff.mpr ⟨a, back ++ tail, hfront _, hback tail⟩

variable [OfReadError ε]

theorem take (n : Nat) : Settles (Reader.take n : Reader Bytes ε Bytes) := by
  intro s bs t h
  obtain ⟨hlen, rfl⟩ := take_eq_ok_iff.mp h
  exact ⟨bs, rfl, fun tail => take_eq_ok_iff.mpr ⟨hlen, rfl⟩⟩

theorem skip (n : Nat) : Settles (Reader.skip n : Reader Bytes ε Unit) :=
  (take n).bind fun _ => .pure ()

theorem takeUntil (b : UInt8) (inclusive : Bool) :
    Settles (Reader.takeUntil b inclusive : Reader Bytes ε Bytes) := by
  intro s bs t h
  by_cases hb : b ∈ s
  · obtain ⟨front, rest, rfl, hfront⟩ := List.eq_append_cons_of_mem hb
    rw [takeUntil_append_cons hfront] at h
    cases h
    refine ⟨front ++ [b], by simp, fun tail => ?_⟩
    rw [List.append_assoc]
    exact takeUntil_append_cons hfront
  · rw [takeUntil_of_notMem hb] at h
    cases h

theorem takeCString (max : Nat) : Settles (Reader.takeCString max : Reader Bytes ε Bytes) := by
  intro s bs t h
  by_cases h0 : 0 ∈ s.take max
  · obtain ⟨front, rest, rfl, hfront, hmax⟩ := exists_append_cons_of_mem_take h0
    rw [takeCString_append_cons hfront hmax] at h
    cases h
    refine ⟨bs ++ [0], by simp, fun tail => ?_⟩
    rw [List.append_assoc]
    exact takeCString_append_cons hfront hmax
  · rw [takeCString_of_notMem h0] at h
    obtain ⟨rfl, rfl⟩ := take_eq_ok_iff.mp h
    rw [List.take_left] at h0
    refine ⟨bs, rfl, fun tail => ?_⟩
    rw [takeCString_of_notMem (by rwa [List.take_left])]
    exact take_eq_ok_iff.mpr ⟨rfl, rfl⟩

theorem number (f : NumberFormat) : Settles (Reader.number f : Reader Bytes ε Nat) :=
  (take f.width).bind fun bs => .pure (f.decode bs)

theorem u8 : Settles (Reader.u8 : Reader Bytes ε UInt8) := (number _).bind fun _ => .pure _

theorem u16 : Settles (Reader.u16 : Reader Bytes ε UInt16) := (number _).bind fun _ => .pure _

theorem u24 : Settles (Reader.u24 : Reader Bytes ε UInt32) := (number _).bind fun _ => .pure _

theorem u64 : Settles (Reader.u64 : Reader Bytes ε UInt64) := (number _).bind fun _ => .pure _

theorem i64 : Settles (Reader.i64 : Reader Bytes ε Int64) := u64.bind fun _ => .pure _

theorem takePrefixed (width : Nat) :
    Settles (Reader.takePrefixed width : Reader Bytes ε Bytes) := by
  unfold Reader.takePrefixed
  split
  · exact (number _).bind fun n => take n
  · exact .throw _

theorem lenEncInt : Settles (Reader.lenEncInt : Reader Bytes ε LenEncInt) := by
  refine u8.bind fun tag => ?_
  split
  · exact .pure _
  · exact u16.bind fun _ => .pure _
  · exact u24.bind fun _ => .pure _
  · exact u64.bind fun _ => .pure _
  · exact .pure _
  · exact .pure _

end Settles

end Settled

end Reader

/-! ## Steps -/

namespace ReadStep

open Reader

/-- The number of bytes that a step takes, where its arguments tell it. -/
def size? : ReadStep → Option Nat
  | number f => some f.width
  | signed | real => some 8
  | take n | skip n => some n
  | _ => none

/-- Whether a step only looks at what is ahead. -/
def looks : ReadStep → Bool
  | hasMore | peek => true
  | _ => false

/-- How a step fails over the bytes ahead, and how many of them stay passed over. -/
inductive Stops : ReadStep → (ahead : Bytes) → (passed : Nat) → ReadError → Prop where
  /-- Fewer bytes are ahead than the step takes. -/
  | short {step : ReadStep} {n : Nat} {ahead : Bytes} :
    step.size? = some n → ahead.length < n →
      Stops step ahead 0 (.incomplete (.size (n - ahead.length)))
  /-- The end of the run is not ahead. -/
  | noDelimiter {b : UInt8} {inclusive : Bool} {ahead : Bytes} :
    b ∉ ahead → Stops (takeUntil b inclusive) ahead 0 (.incomplete .unknown)
  /-- No NUL is ahead, and fewer bytes than the text may have. -/
  | noNul {max : Nat} {ahead : Bytes} :
    0 ∉ ahead → ahead.length < max →
      Stops (takeCString max) ahead 0 (.incomplete (.size (max - ahead.length)))
  /-- A length is not written in so many bytes. -/
  | badWidth {width : Nat} {ahead : Bytes} :
    width ∉ prefixWidths → Stops (takePrefixed width) ahead 0 (.badWidth width)
  | cutLength {width : Nat} {ahead : Bytes} :
    width ∈ prefixWidths → ahead.length < width →
      Stops (takePrefixed width) ahead 0 (.incomplete (.size (width - ahead.length)))
  /-- The length is there, but fewer bytes behind it. -/
  | cutContent {width n : Nat} {content : Bytes} :
    width ∈ prefixWidths → n < 256 ^ width → content.length < n →
      Stops (takePrefixed width) ((NumberFormat.little width).encode n ++ content) width
        (.incomplete (.size (n - content.length)))
  | noTag : Stops lenEncInt [] 0 (.incomplete (.size 1))
  /-- The tag is there, but fewer bytes behind it than it stands for. -/
  | cutPayload {tag : UInt8} {width : Nat} {payload : Bytes} :
    (tag, width) ∈ [((0xfc : UInt8), 2), (0xfd, 3), (0xfe, 8)] → payload.length < width →
      Stops lenEncInt (tag :: payload) 1 (.incomplete (.size (width - payload.length)))

variable {step : ReadStep} {s t : Bytes} {e : ReadError}

/-- At least one byte is missing where bytes are. -/
theorem Stops.pos {passed m : Nat} (h : Stops step s passed (.incomplete (.size m))) : 0 < m := by
  cases h with
  | noTag => exact Nat.one_pos
  | _ => omega

theorem Stops.le_length {passed : Nat} (h : Stops step s passed e) : passed ≤ s.length := by
  cases h with
  | cutContent => simp [NumberFormat.little]
  | cutPayload => simp
  | _ => exact Nat.zero_le _

theorem run_sized_eq_error_iff {n : Nat} (hn : step.size? = some n) :
    (step.run : Reader Bytes ReadError ReadValue) s = .error e t ↔
      s.length < n ∧ e = .incomplete (.size (n - s.length)) ∧ t = s := by
  cases step with
  | number f =>
    cases hn
    exact bind_pure_eq_error_iff.trans number_eq_error_iff
  | signed =>
    cases hn
    exact bind_pure_eq_error_iff.trans (bind_pure_eq_error_iff.trans u64_eq_error_iff)
  | real =>
    cases hn
    exact bind_pure_eq_error_iff.trans u64_eq_error_iff
  | take n =>
    cases hn
    exact bind_pure_eq_error_iff.trans take_eq_error_iff
  | skip n =>
    cases hn
    exact bind_pure_eq_error_iff.trans (bind_pure_eq_error_iff.trans take_eq_error_iff)
  | _ => cases hn

theorem stops_sized_iff {n passed : Nat} (hn : step.size? = some n) : Stops step s passed e ↔
    passed = 0 ∧ s.length < n ∧ e = .incomplete (.size (n - s.length)) := by
  refine ⟨fun h => ?_, ?_⟩
  · cases h with
    | short hn' hlt =>
      rw [hn] at hn'
      cases hn'
      exact ⟨rfl, hlt, rfl⟩
    | _ => cases hn
  · rintro ⟨rfl, hlt, rfl⟩
    exact .short hn hlt

/-- A step fails in the ways that are listed, and in no other. -/
theorem run_eq_error_iff : (step.run : Reader Bytes ReadError ReadValue) s = .error e t ↔
    ∃ passed, Stops step s passed e ∧ t = s.drop passed := by
  have hsized (n : Nat) (hn : step.size? = some n) :
      (step.run : Reader Bytes ReadError ReadValue) s = .error e t ↔
        ∃ passed, Stops step s passed e ∧ t = s.drop passed := by
    simp only [run_sized_eq_error_iff hn, stops_sized_iff hn]
    refine ⟨fun ⟨hlt, he, ht⟩ => ⟨0, ⟨rfl, hlt, he⟩, ht⟩, ?_⟩
    rintro ⟨_, ⟨rfl, hlt, he⟩, ht⟩
    exact ⟨hlt, he, ht⟩
  cases step with
  | number _ | signed | real | take _ | skip _ => exact hsized _ rfl
  | rest =>
    refine bind_pure_eq_error_iff.trans (iff_of_false rest_ne_error ?_)
    rintro ⟨_, h, -⟩
    cases h with
    | short hn => cases hn
  | takeUntil b inclusive =>
    refine bind_pure_eq_error_iff.trans (takeUntil_eq_error_iff.trans ⟨?_, ?_⟩)
    · rintro ⟨hb, rfl, rfl⟩
      exact ⟨0, .noDelimiter hb, rfl⟩
    · rintro ⟨_, h, rfl⟩
      cases h with
      | short hn => cases hn
      | noDelimiter hb => exact ⟨hb, rfl, rfl⟩
  | takeCString max =>
    refine bind_pure_eq_error_iff.trans (takeCString_eq_error_iff.trans ⟨?_, ?_⟩)
    · rintro ⟨h0, hlt, rfl, rfl⟩
      exact ⟨0, .noNul h0 hlt, rfl⟩
    · rintro ⟨_, h, rfl⟩
      cases h with
      | short hn => cases hn
      | noNul h0 hlt => exact ⟨h0, hlt, rfl, rfl⟩
  | takePrefixed width =>
    refine bind_pure_eq_error_iff.trans (takePrefixed_eq_error_iff.trans ⟨?_, ?_⟩)
    · rintro (⟨hw, rfl, rfl⟩ | ⟨hw, hlt, rfl, rfl⟩ | ⟨hw, n, hn, rfl, hlt, rfl⟩)
      · exact ⟨0, .badWidth hw, rfl⟩
      · exact ⟨0, .cutLength hw hlt, rfl⟩
      · exact ⟨width, .cutContent hw hn hlt, (NumberFormat.drop_little_append width n t).symm⟩
    · rintro ⟨_, h, rfl⟩
      cases h with
      | short hn => cases hn
      | badWidth hw => exact .inl ⟨hw, rfl, rfl⟩
      | cutLength hw hlt => exact .inr (.inl ⟨hw, hlt, rfl, rfl⟩)
      | @cutContent _ n content hw hn hlt =>
        rw [NumberFormat.drop_little_append]
        exact .inr (.inr ⟨hw, n, hn, rfl, hlt, rfl⟩)
  | lenEncInt =>
    refine bind_pure_eq_error_iff.trans (lenEncInt_eq_error_iff.trans ⟨?_, ?_⟩)
    · rintro (⟨rfl, rfl, rfl⟩ | ⟨tag, width, hmem, rfl, hlt, rfl⟩)
      · exact ⟨0, .noTag, rfl⟩
      · exact ⟨1, .cutPayload hmem hlt, rfl⟩
    · rintro ⟨_, h, rfl⟩
      cases h with
      | short hn => cases hn
      | noTag => exact .inl ⟨rfl, rfl, rfl⟩
      | @cutPayload tag width payload hmem hlt => exact .inr ⟨tag, width, hmem, rfl, hlt, rfl⟩
  | hasMore | peek =>
    refine iff_of_false (fun h => ?_) ?_
    · cases h
    · rintro ⟨_, h, -⟩
      cases h with
      | short hn => cases hn

/-- What a step gives is settled by what it passes over, unless it takes all or only looks. -/
theorem settles_run (hrest : step ≠ .rest) (hlooks : step.looks = false) :
    Settles (step.run : Reader Bytes ReadError ReadValue) := by
  cases step with
  | number f => exact (Settles.number f).bind fun _ => .pure _
  | signed => exact Settles.i64.bind fun _ => .pure _
  | real => exact Settles.u64.bind fun _ => .pure _
  | take n => exact (Settles.take n).bind fun _ => .pure _
  | skip n => exact (Settles.skip n).bind fun _ => .pure _
  | rest => exact absurd rfl hrest
  | takeUntil b inclusive => exact (Settles.takeUntil b inclusive).bind fun _ => .pure _
  | takeCString max => exact (Settles.takeCString max).bind fun _ => .pure _
  | takePrefixed width => exact (Settles.takePrefixed width).bind fun _ => .pure _
  | lenEncInt => exact Settles.lenEncInt.bind fun _ => .pure _
  | hasMore | peek => cases hlooks

/-- A successful step passes over bytes at the front. If it does not only look, the same bytes give
the same value again; behind all that was left, nothing may stand. -/
theorem exists_front_of_run {v : ReadValue}
    (h : (step.run : Reader Bytes ReadError ReadValue) s = .ok v t) :
    ∃ front, s = front ++ t ∧ (step.looks = false → ∀ tail, (step = .rest → tail = []) →
      (step.run : Reader Bytes ReadError ReadValue) (front ++ tail) = .ok v tail) := by
  by_cases hlooks : step.looks = false
  · by_cases hrest : step = .rest
    · subst hrest
      obtain ⟨bs, _, hbs, hv⟩ := bind_eq_ok_iff.mp h
      obtain ⟨rfl, rfl⟩ := rest_eq_ok_iff.mp hbs
      obtain ⟨rfl, rfl⟩ := pure_eq_ok_iff.mp hv
      refine ⟨bs, (List.append_nil bs).symm, fun _ tail htail => ?_⟩
      rw [htail rfl, List.append_nil]
      exact h
    · obtain ⟨front, rfl, hfront⟩ := settles_run hrest hlooks s v t h
      exact ⟨front, rfl, fun _ tail _ => hfront tail⟩
  · have hst : s = t := by
      cases step with
      | hasMore | peek =>
        cases h
        rfl
      | _ => exact absurd rfl hlooks
    exact ⟨[], hst, fun hno => absurd hno hlooks⟩

end ReadStep

end Binlog
