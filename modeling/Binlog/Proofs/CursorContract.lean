import Binlog.Proofs.Cursors
import Binlog.Proofs.GuardedCursor
import Binlog.Proofs.Stopping

/-!
# What a cursor can be relied on for

After any run of reads and rewinds, some of which may have failed, a cursor stands within its
buffer, and the next operation does exactly what it should (`Cursor.Contract`): it gives what the
bytes ahead settle and moves over these, or fails for a cause that tells how many bytes are missing
and stops where the cause says.

**Offsets.** A cursor carries the proof that it stands within its buffer. So that nothing is lost in
that, the same runs are made over a guarded cursor, whose offset is only a number: it is moved back
and forth without a fault, and always shows what the cursor shows (`GuardedCursor.Mirrors`).

Main statement: `Cursor.contract_after`.
-/

namespace Binlog

open Reader

/-- The source that readers leave, each run where the one before stopped. -/
def Reader.after {σ ε α : Type} (rs : List (Reader σ ε α)) (s : σ) : σ :=
  rs.foldl (fun s r => (r.result s).2) s

/-- Readers that agree one by one leave related sources. -/
theorem Reader.Agrees.after {σ τ ε α β : Type} {R : σ → τ → Prop} {E : ε → Prop}
    {f : β → Reader σ ε α} {g : β → Reader τ ε α} (h : ∀ b, Agrees R E (f b) (g b)) (bs : List β)
    {s : σ} {t : τ} (hs : R s t) : R (Reader.after (bs.map f) s) (Reader.after (bs.map g) t) := by
  induction bs generalizing s t with
  | nil => exact hs
  | cons b bs ih => exact ih ((h b).result hs).2

/-! ## Guarded runs -/

namespace GuardedCursor

/-- Steps back over `n` bytes. -/
def rewind {ε : Type} [OfReadError ε] (n : Nat) : Reader GuardedCursor ε Unit := fun g =>
  if g.offset < n then
    .error (OfReadError.ofReadError (.rewindTooFar n g.offset)) g
  else
    match Guard.sub g.offset n with
    | .ok offset => .ok () { g with offset }
    | .error f => .ok () (g.mark f)

end GuardedCursor

/-- Performs a step of a guarded cursor. -/
def CursorStep.runGuarded {ε : Type} [OfReadError ε] : CursorStep → Reader GuardedCursor ε ReadValue
  | read step => step.run
  | rewind n => do
    GuardedCursor.rewind n
    return .nothing

namespace GuardedCursor

/-- The guarded cursor stands where the cursor stands, over the same buffer, and has no fault. -/
def Mirrors (buffer : Bytes) (g : GuardedCursor) (c : Cursor) : Prop :=
  ∃ s, Follows buffer g s ∧ Cursor.Shows buffer c s

variable {buffer : Bytes} {g : GuardedCursor} {c : Cursor}

theorem mirrors_start (h : buffer.length < 2 ^ 64) :
    Mirrors buffer (start buffer) (Cursor.ofBytes buffer) :=
  ⟨buffer, follows_start h, Cursor.shows_ofBytes buffer⟩

theorem Mirrors.offset_eq (h : Mirrors buffer g c) : g.offset = c.consumed := by
  obtain ⟨s, hg, hc⟩ := h
  have hadd := hc.consumed_add
  rw [hg.offset_eq]
  omega

theorem Mirrors.ahead_eq (h : Mirrors buffer g c) : g.ahead = .ok c.remaining := by
  obtain ⟨s, hg, hc⟩ := h
  rw [hg.ahead_eq, hc.remaining_eq]

theorem simulation_mirrors (buffer : Bytes) {ε : Type} [OfReadError ε] {E : ε → Prop}
    (hE : ∀ n, E (OfReadError.ofReadError (.incomplete (.size n)))) :
    Simulation (Mirrors buffer) E :=
  (simulation buffer hE).comp (Cursor.simulation buffer hE)

end GuardedCursor

namespace Cursor

variable {c c' : Cursor} {n : Nat}

/-! ## Rewinding -/

theorem exists_back (h : n ≤ c.consumed) : ∃ d : Cursor, d.MovesBy n c :=
  ⟨⟨c.buffer, c.consumed - n, Nat.le_trans (Nat.sub_le _ _) c.offset_le⟩, rfl,
    (Nat.sub_add_cancel h).symm⟩

section Rewinding

variable {ε : Type} [OfReadError ε]

theorem rewind_of_movesBy (h : c'.MovesBy n c) :
    (Reader.rewind n : Reader Cursor ε Unit) c = .ok () c' := by
  obtain ⟨buffer, offset, hle⟩ := c'
  obtain ⟨hbuffer, hconsumed⟩ := h
  change c.buffer = buffer at hbuffer
  change c.offset = offset + n at hconsumed
  have hoffset : c.offset - n = offset := by omega
  have hback : c.back? n = some ⟨buffer, offset, hle⟩ := by
    rw [Cursor.back?, if_pos (by omega : n ≤ c.offset)]
    simp only [hbuffer, hoffset]
  rw [Reader.rewind, hback]

theorem rewind_of_lt (h : c.consumed < n) : (Reader.rewind n : Reader Cursor ε Unit) c =
    .error (OfReadError.ofReadError (.rewindTooFar n c.consumed)) c := by
  have hback : c.back? n = none := if_neg (Nat.not_le_of_lt h)
  rw [Reader.rewind, hback]

/-- A cursor can be moved back exactly over what is behind it. -/
theorem rewind_eq_ok_iff {u : Unit} : (Reader.rewind n : Reader Cursor ε Unit) c = .ok u c' ↔
    n ≤ c.consumed ∧ c'.MovesBy n c := by
  refine ⟨fun h => ?_, fun h => rewind_of_movesBy h.2⟩
  rcases Nat.lt_or_ge c.consumed n with hn | hn
  · rw [rewind_of_lt hn] at h
    cases h
  · obtain ⟨d, hmoves⟩ := exists_back hn
    rw [rewind_of_movesBy hmoves] at h
    cases h
    exact ⟨hn, hmoves⟩

theorem rewind_eq_error_iff {e : ε} : (Reader.rewind n : Reader Cursor ε Unit) c = .error e c' ↔
    c.consumed < n ∧ e = OfReadError.ofReadError (.rewindTooFar n c.consumed) ∧ c' = c := by
  rcases Nat.lt_or_ge c.consumed n with hn | hn
  · rw [rewind_of_lt hn, EStateM.Result.error.injEq, @eq_comm _ e, @eq_comm _ c']
    exact ⟨fun h => ⟨hn, h⟩, fun h => h.2⟩
  · obtain ⟨d, hmoves⟩ := exists_back hn
    rw [rewind_of_movesBy hmoves]
    refine iff_of_false (fun h => ?_) fun h => absurd h.1 (Nat.not_lt_of_le hn)
    cases h

theorem agrees_rewind (buffer : Bytes) (n : Nat) :
    Agrees (GuardedCursor.Mirrors buffer) (fun _ => True)
      (GuardedCursor.rewind n : Reader GuardedCursor ε Unit) (Reader.rewind n) := by
  intro g c h
  have hoffset := h.offset_eq
  obtain ⟨s, hg, hc⟩ := h
  unfold GuardedCursor.rewind
  by_cases hn : g.offset < n
  · rw [if_pos hn, rewind_of_lt (hoffset ▸ hn), hoffset]
    exact .error True.intro ⟨s, hg, hc⟩
  · have hle : n ≤ g.offset := Nat.le_of_not_lt hn
    obtain ⟨d, hmoves⟩ := exists_back (hoffset ▸ hle)
    have hconsumed : g.offset - n = d.consumed := by
      have := hmoves.consumed_eq
      omega
    have hbuffer : d.buffer = buffer := hmoves.buffer_eq.symm.trans hc.buffer_eq
    rw [if_neg hn, Guard.sub, if_pos hle, rewind_of_movesBy hmoves, hconsumed]
    refine .ok ⟨d.remaining, ⟨hg.buffer_eq, ?_, ?_, hg.fault_eq, hg.length_lt⟩, hbuffer, rfl⟩
    · exact hbuffer ▸ d.offset_le
    · change buffer.drop d.consumed = d.buffer.drop d.consumed
      rw [hbuffer]

end Rewinding

end Cursor

/-- A step of a cursor does the same with a guarded one. -/
theorem CursorStep.agrees_runGuarded {ε : Type} [OfReadError ε] (buffer : Bytes)
    (step : CursorStep) :
    Agrees (GuardedCursor.Mirrors buffer) (fun _ => True)
      (step.runGuarded : Reader GuardedCursor ε ReadValue) step.run := by
  cases step with
  | read step =>
    exact step.agrees_run (GuardedCursor.simulation_mirrors buffer fun _ => True.intro)
      fun _ => True.intro
  | rewind n => exact (Cursor.agrees_rewind buffer n).bind fun _ => .pure _

namespace Cursor

/-! ## The next operation -/

/-- What every operation on a cursor gives, and where it leaves the cursor. -/
structure Contract (c : Cursor) : Prop where
  /-- Bytes are given as they are. -/
  take_ok : ∀ n bs c', (take n : Reader Cursor ReadError Bytes) c = .ok bs c' ↔
    n ≤ c.remaining.length ∧ bs = c.remaining.take n ∧ c.MovesBy n c'
  /-- All that is left can always be taken. -/
  rest_ok : ∃ c', (rest : Reader Cursor ReadError Bytes) c = .ok c.remaining c' ∧
    c.MovesBy c.remaining.length c'
  /-- A step moves over bytes, and if it does not only look it gives the same wherever it finds
  these bytes; if it takes all that is left, they must be all. -/
  settled : ∀ (step : ReadStep) (v : ReadValue) (c' : Cursor),
    (step.run : Reader Cursor ReadError ReadValue) c = .ok v c' →
      ∃ k, c.MovesBy k c' ∧ (step.looks = false → ∀ d : Cursor,
        c.remaining.take k <+: d.remaining → (step = .rest → d.remaining.length = k) →
          ∃ d', (step.run : Reader Cursor ReadError ReadValue) d = .ok v d' ∧ d.MovesBy k d')
  /-- A step fails exactly in the ways that are listed, and stops there. -/
  stops : ∀ (step : ReadStep) (e : ReadError) (c' : Cursor),
    (step.run : Reader Cursor ReadError ReadValue) c = .error e c' ↔
      ∃ passed, step.Stops c.remaining passed e ∧ c.MovesBy passed c'
  /-- If bytes are missing, there is one at least. -/
  missing_pos : ∀ (step : ReadStep) (m : Nat) (c' : Cursor),
    (step.run : Reader Cursor ReadError ReadValue) c = .error (.incomplete (.size m)) c' → 0 < m
  /-- Only what is behind the cursor can be taken back. -/
  rewind_ok : ∀ n c', (Reader.rewind n : Reader Cursor ReadError Unit) c = .ok () c' ↔
    n ≤ c.consumed ∧ c'.MovesBy n c
  rewind_error : ∀ n e c', (Reader.rewind n : Reader Cursor ReadError Unit) c = .error e c' ↔
    c.consumed < n ∧ e = .rewindTooFar n c.consumed ∧ c' = c
  /-- Behind a step back, the bytes that were behind the cursor are read again. -/
  take_rewind : ∀ n c', (Reader.rewind n : Reader Cursor ReadError Unit) c = .ok () c' →
    (take n : Reader Cursor ReadError Bytes) c' =
      .ok ((c.buffer.take c.consumed).drop (c.consumed - n)) c
  /-- A step that is taken back leads to the cursor that it came from. -/
  rewind_run : ∀ (step : ReadStep) (v : ReadValue) (c' : Cursor),
    (step.run : Reader Cursor ReadError ReadValue) c = .ok v c' →
      (Reader.rewind (c'.consumed - c.consumed) : Reader Cursor ReadError Unit) c' = .ok () c

variable {step : ReadStep} {v : ReadValue}

theorem alike_take {ε : Type} [OfReadError ε] (n : Nat) :
    Alike (take n : Reader Cursor ε Bytes) (take n) :=
  fun buffer => .take (simulation buffer fun _ => True.intro) n

theorem alike_rest {ε : Type} [OfReadError ε] : Alike (rest : Reader Cursor ε Bytes) rest :=
  fun buffer => .rest (simulation buffer fun _ => True.intro)

theorem take_ok_iff {bs : Bytes} : (take n : Reader Cursor ReadError Bytes) c = .ok bs c' ↔
    n ≤ c.remaining.length ∧ bs = c.remaining.take n ∧ c.MovesBy n c' := by
  rw [ok_iff (alike_take n), take_eq_ok_iff, movesBy_iff]
  refine ⟨?_, ?_⟩
  · rintro ⟨hbuffer, rfl, hahead⟩
    refine ⟨?_, ?_, hbuffer, bs, rfl, hahead⟩
    · rw [hahead, List.length_append]
      exact Nat.le_add_right _ _
    · rw [hahead, List.take_left]
  · rintro ⟨-, rfl, hbuffer, front, rfl, hahead⟩
    rw [hahead, List.take_left]
    exact ⟨hbuffer, rfl, rfl⟩

/-- A successful step moves over what it passes, and what it passes settles what it gives. -/
theorem exists_movesBy_of_run
    (h : (step.run : Reader Cursor ReadError ReadValue) c = .ok v c') :
    ∃ k, c.MovesBy k c' ∧ (step.looks = false → ∀ d : Cursor,
      c.remaining.take k <+: d.remaining → (step = .rest → d.remaining.length = k) →
        ∃ d', (step.run : Reader Cursor ReadError ReadValue) d = .ok v d' ∧ d.MovesBy k d') := by
  obtain ⟨hbuffer, hrun⟩ := (ok_iff step.alike_run).mp h
  obtain ⟨front, hfront, hsettled⟩ := ReadStep.exists_front_of_run hrun
  refine ⟨front.length, movesBy_iff.mpr ⟨hbuffer, front, rfl, hfront⟩, ?_⟩
  intro hlooks d hprefix hrest
  rw [hfront, List.take_left] at hprefix
  obtain ⟨tail, htail⟩ := hprefix
  have hnil (hstep : step = .rest) : tail = [] := by
    have hlen := hrest hstep
    rw [← htail, List.length_append] at hlen
    exact List.eq_nil_of_length_eq_zero (by omega)
  exact step.alike_run.exists_movesBy htail.symm (hsettled hlooks tail hnil)

theorem run_eq_error_iff {e : ReadError} :
    (step.run : Reader Cursor ReadError ReadValue) c = .error e c' ↔
      ∃ passed, step.Stops c.remaining passed e ∧ c.MovesBy passed c' := by
  rw [error_iff step.alike_run, ReadStep.run_eq_error_iff]
  refine ⟨?_, ?_⟩
  · rintro ⟨hbuffer, passed, hstops, hahead⟩
    refine ⟨passed, hstops, movesBy_iff.mpr ⟨hbuffer, c.remaining.take passed, ?_, ?_⟩⟩
    · exact List.length_take_of_le hstops.le_length
    · rw [hahead, List.take_append_drop]
  · rintro ⟨passed, hstops, hmoves⟩
    obtain ⟨hbuffer, front, rfl, hahead⟩ := movesBy_iff.mp hmoves
    refine ⟨hbuffer, front.length, hstops, ?_⟩
    rw [hahead, List.drop_left]

theorem contract (c : Cursor) : c.Contract where
  take_ok _ _ _ := take_ok_iff
  rest_ok := by
    have hrest : (rest : Reader Bytes ReadError Bytes) (c.remaining ++ []) = .ok c.remaining [] :=
      rest_eq_ok_iff.mpr ⟨(List.append_nil _).symm, rfl⟩
    exact alike_rest.exists_movesBy (List.append_nil _).symm hrest
  settled _ _ _ h := exists_movesBy_of_run h
  stops _ _ _ := run_eq_error_iff
  missing_pos _ _ _ h := by
    obtain ⟨passed, hstops, -⟩ := run_eq_error_iff.mp h
    exact hstops.pos
  rewind_ok _ _ := rewind_eq_ok_iff
  rewind_error _ _ _ := rewind_eq_error_iff
  take_rewind n c' h := by
    obtain ⟨hn, hmoves⟩ := rewind_eq_ok_iff.mp h
    have hbuffer := hmoves.buffer_eq
    have hconsumed := hmoves.consumed_eq
    refine take_ok_iff.mpr ⟨?_, ?_, hmoves⟩
    · have := c'.consumed_add_length
      have := c.consumed_add_length
      rw [hbuffer] at *
      omega
    · change _ = (c'.buffer.drop c'.consumed).take n
      rw [hbuffer, List.take_drop, hconsumed, Nat.add_sub_cancel]
  rewind_run step v c' h := by
    obtain ⟨k, hmoves, -⟩ := exists_movesBy_of_run h
    have hk : c'.consumed - c.consumed = k := by
      rw [hmoves.consumed_eq]
      omega
    rw [hk]
    exact rewind_eq_ok_iff.mpr ⟨by rw [hmoves.consumed_eq]; omega, hmoves⟩

/-- **The contract of a cursor.** After any run of reads and rewinds the cursor stands within its
buffer and shows all that is behind its offset, the same run over a guarded cursor has had no fault
and stands at the same offset, and the next operation keeps the contract. -/
theorem contract_after (buffer : Bytes) (hlen : buffer.length < 2 ^ 64) (steps : List CursorStep) :
    let c := after (steps.map fun step => (step.run : Reader _ ReadError _)) (ofBytes buffer)
    let g := after (steps.map fun step => (step.runGuarded : Reader _ ReadError _))
      (GuardedCursor.start buffer)
    (c.buffer = buffer ∧ c.consumed ≤ buffer.length ∧ c.remaining = buffer.drop c.consumed) ∧
      (g.fault = none ∧ g.buffer = buffer ∧ g.offset = c.consumed ∧ g.ahead = .ok c.remaining ∧
        ∀ step : CursorStep, ((step.runGuarded : Reader _ ReadError _).result g).1 =
          ((step.run : Reader _ ReadError _).result c).1) ∧
      c.Contract := by
  intro c g
  have hmirrors : GuardedCursor.Mirrors buffer g c :=
    Agrees.after (CursorStep.agrees_runGuarded buffer) steps (GuardedCursor.mirrors_start hlen)
  have hresult (step : CursorStep) :=
    ((step.agrees_runGuarded (ε := ReadError) buffer).result hmirrors).1
  have hoffset := hmirrors.offset_eq
  have hahead := hmirrors.ahead_eq
  obtain ⟨s, hg, hc⟩ := hmirrors
  refine ⟨⟨hc.buffer_eq, ?_, ?_⟩, ⟨hg.fault_eq, hg.buffer_eq, hoffset, hahead, hresult⟩, c.contract⟩
  · rw [← hoffset]
    exact hg.offset_le
  · rw [← hoffset, hg.drop_offset, hc.remaining_eq]

/-- A number cut behind its tag, a step back too far, and a step back onto what was read: from there
a length of two bytes stands in front of too few. -/
theorem contract_after_cut_content :
    let buffer : Bytes := [0xfe, 1, 3, 65]
    let steps : List CursorStep := [.read .lenEncInt, .rewind 2, .read (.skip 1), .rewind 1]
    let c := after (steps.map fun step => (step.run : Reader _ ReadError _)) (ofBytes buffer)
    buffer.length < 2 ^ 64 ∧ c = ⟨buffer, 1, by decide⟩ ∧ c.Contract ∧
      ((ReadStep.takePrefixed 2).run : Reader _ ReadError _) c =
        .error (.incomplete (.size 768)) ⟨buffer, 3, by decide⟩ := by
  intro buffer steps c
  have hcontract : c.Contract := (contract_after buffer (by decide) steps).2.2
  have hc : c = ⟨buffer, 1, by decide⟩ := by decide +kernel
  have hstops : ReadStep.Stops (.takePrefixed 2) ((NumberFormat.little 2).encode 769 ++ [65]) 2
      (.incomplete (.size 768)) := .cutContent (by decide) (by decide) (by decide)
  refine ⟨by decide, hc, hcontract, (hcontract.stops _ _ _).mpr ⟨2, ?_, ?_⟩⟩
  · rw [hc]
    exact hstops
  · rw [hc]
    exact ⟨rfl, rfl⟩

end Cursor

end Binlog
