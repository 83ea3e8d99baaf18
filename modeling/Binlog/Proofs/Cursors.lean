import Mathlib.Data.List.Forall2
import Binlog.Bytes.Script
import Binlog.Proofs.Reading
import Binlog.Proofs.Sources

/-!
# Cursors and what is ahead of them

A run of bytes forgets what was taken off its front; a cursor keeps the whole buffer and counts.
Readers see of either only the bytes ahead, so they cannot tell the two apart: step by step they
give the same values, fail with the same errors and leave the same bytes unread, also behind a step
that failed.

**Shows.** A cursor shows the bytes that are left of its buffer (`Cursor.Shows`). Together with the
buffer they determine the cursor, so whatever a reader does over a cursor can be read off what it
does over the bytes ahead (`Cursor.ok_iff`, `Cursor.error_iff`).

Main statement: `ReadStep.trace_cursor`.
-/

namespace Binlog

open Reader

/-! ## Runs of readers -/

section Traces

variable {σ τ ε α : Type} {R : σ → τ → Prop} {E : ε → Prop}

/-- Readers that agree give the same results and leave related sources. -/
theorem Reader.Agrees.result {r : Reader σ ε α} {r' : Reader τ ε α} (h : Agrees R E r r') {s : σ}
    {t : τ} (hs : R s t) : (r.result s).1 = (r'.result t).1 ∧ R (r.result s).2 (r'.result t).2 := by
  have hout := h s t hs
  unfold Reader.result
  revert hout
  generalize r s = o
  generalize r' t = o'
  intro hout
  cases hout with
  | ok left => exact ⟨rfl, left⟩
  | error _ left => exact ⟨rfl, left⟩

/-- Readers that agree one by one agree along a run, whether some of them fail or not. -/
theorem Reader.Agrees.trace {β : Type} {f : β → Reader σ ε α} {g : β → Reader τ ε α}
    (h : ∀ b, Agrees R E (f b) (g b)) (bs : List β) {s : σ} {t : τ} (hs : R s t) :
    List.Forall₂ (fun x y => x.1 = y.1 ∧ R x.2 y.2) (Reader.trace (bs.map f) s)
      (Reader.trace (bs.map g) t) := by
  induction bs generalizing s t with
  | nil => exact .nil
  | cons b bs ih =>
    have hstep := (h b).result hs
    exact .cons hstep (ih hstep.2)

end Traces

/-! ## Cursors -/

namespace Cursor

/-- The cursor stands over the buffer where the bytes are what is left. -/
structure Shows (buffer : Bytes) (c : Cursor) (s : Bytes) : Prop where
  buffer_eq : c.buffer = buffer
  remaining_eq : c.remaining = s

/-- The second cursor stands over the same buffer, so many bytes further on. -/
structure MovesBy (c : Cursor) (n : Nat) (c' : Cursor) : Prop where
  buffer_eq : c'.buffer = c.buffer
  consumed_eq : c'.consumed = c.consumed + n

variable {buffer s t : Bytes} {c c' : Cursor} {n : Nat}

theorem shows_ofBytes (buffer : Bytes) : Shows buffer (ofBytes buffer) buffer := ⟨rfl, rfl⟩

@[simp] theorem length_remaining (c : Cursor) :
    c.remaining.length = c.buffer.length - c.consumed := List.length_drop

/-- Every byte of the buffer is behind the cursor or ahead of it. -/
theorem consumed_add_length (c : Cursor) :
    c.consumed + c.remaining.length = c.buffer.length := by
  have hle : c.consumed ≤ c.buffer.length := c.offset_le
  rw [length_remaining]
  omega

theorem Shows.consumed_add (h : Shows buffer c s) : c.consumed + s.length = buffer.length := by
  rw [← h.remaining_eq, ← h.buffer_eq, consumed_add_length]

/-- A cursor is determined by its buffer and what is ahead. -/
theorem eq_of_remaining (hbuffer : c.buffer = c'.buffer) (hahead : c.remaining = c'.remaining) :
    c = c' := by
  have hconsumed : c.consumed = c'.consumed := by
    have h := consumed_add_length c
    rw [hbuffer, hahead, ← consumed_add_length c'] at h
    omega
  cases c
  cases c'
  cases hbuffer
  cases hconsumed
  rfl

/-- What is passed over is what is no longer ahead. -/
theorem movesBy_iff : c.MovesBy n c' ↔
    c'.buffer = c.buffer ∧ ∃ front, front.length = n ∧ c.remaining = front ++ c'.remaining := by
  refine ⟨fun ⟨hbuffer, hconsumed⟩ => ⟨hbuffer, c.remaining.take n, ?_, ?_⟩, ?_⟩
  · have h := consumed_add_length c
    rw [← hbuffer, ← consumed_add_length c'] at h
    rw [List.length_take]
    omega
  · have hahead : c'.remaining = c.remaining.drop n := by
      change c'.buffer.drop c'.consumed = (c.buffer.drop c.consumed).drop n
      rw [hbuffer, hconsumed, List.drop_drop]
    rw [hahead, List.take_append_drop]
  · rintro ⟨hbuffer, front, rfl, hahead⟩
    refine ⟨hbuffer, ?_⟩
    have h := consumed_add_length c
    rw [hahead, List.length_append, ← hbuffer, ← consumed_add_length c'] at h
    omega

/-- A cursor can be moved over what is ahead. -/
theorem exists_movesBy {front : Bytes} (h : c.remaining = front ++ t) :
    ∃ c' : Cursor, c.MovesBy front.length c' ∧ c'.remaining = t := by
  have hlen := consumed_add_length c
  rw [h, List.length_append] at hlen
  refine ⟨⟨c.buffer, c.consumed + front.length, by omega⟩, ⟨rfl, rfl⟩, ?_⟩
  have hdrop : c.buffer.drop (c.consumed + front.length) = c.remaining.drop front.length :=
    List.drop_drop.symm
  exact hdrop.trans (by rw [h, List.drop_left])

/-- A cursor can be exchanged for the bytes ahead of it. -/
theorem simulation (buffer : Bytes) {ε : Type} [OfReadError ε] {E : ε → Prop}
    (hE : ∀ n, E (OfReadError.ofReadError (.incomplete (.size n)))) :
    Simulation (Shows buffer) E where
  unread_eq h := h.remaining_eq
  take_rel := by
    rintro c s n ⟨rfl, rfl⟩
    have hcursor : ByteSource.take? n c = c.advance? n := rfl
    have hbytes : ByteSource.take? n c.remaining =
      if n ≤ c.remaining.length then some (c.remaining.take n, c.remaining.drop n) else none := rfl
    have hlen : c.remaining.length = c.buffer.length - c.offset := length_remaining c
    rw [hcursor, hbytes, hlen, advance?]
    by_cases hn : n ≤ c.buffer.length - c.offset
    · rw [dif_pos hn, if_pos hn]
      exact .some ⟨rfl, rfl, by rw [remaining, remaining, List.drop_drop]⟩
    · rw [dif_neg hn, if_neg hn]
      exact .none
  underrun := hE

/-! ### Reading off the bytes ahead -/

section Transfer

variable {ε α : Type}

/-- A reader over cursors that cannot be told from one over bytes. -/
def Alike (r : Reader Cursor ε α) (r' : Reader Bytes ε α) : Prop :=
  ∀ buffer, Agrees (Shows buffer) (fun _ => True) r r'

variable {r : Reader Cursor ε α} {r' : Reader Bytes ε α} {a : α} {e : ε}

theorem Alike.outcome (h : Alike r r') (c : Cursor) :
    SameOutcome (Shows c.buffer) (fun _ => True) (r c) (r' c.remaining) :=
  h c.buffer c c.remaining ⟨rfl, rfl⟩

/-- A reader succeeds over a cursor as it does over the bytes ahead. -/
theorem ok_iff (h : Alike r r') :
    r c = .ok a c' ↔ c'.buffer = c.buffer ∧ r' c.remaining = .ok a c'.remaining := by
  have hout := h.outcome c
  revert hout
  generalize r c = o
  generalize r' c.remaining = o'
  intro hout
  cases hout with
  | @ok b d s left =>
    obtain ⟨hbuffer, rfl⟩ := left
    refine ⟨fun heq => ?_, fun ⟨hbuffer', heq⟩ => ?_⟩
    · cases heq
      exact ⟨hbuffer, rfl⟩
    · injection heq with hvalue hahead
      rw [hvalue, eq_of_remaining (hbuffer.trans hbuffer'.symm) hahead]
  | error _ _ =>
    refine ⟨fun heq => ?_, fun heq => ?_⟩
    · cases heq
    · cases heq.2

/-- A reader fails over a cursor as it does over the bytes ahead. -/
theorem error_iff (h : Alike r r') :
    r c = .error e c' ↔ c'.buffer = c.buffer ∧ r' c.remaining = .error e c'.remaining := by
  have hout := h.outcome c
  revert hout
  generalize r c = o
  generalize r' c.remaining = o'
  intro hout
  cases hout with
  | ok left =>
    refine ⟨fun heq => ?_, fun heq => ?_⟩
    · cases heq
    · cases heq.2
  | @error e' d s _ left =>
    obtain ⟨hbuffer, rfl⟩ := left
    refine ⟨fun heq => ?_, fun ⟨hbuffer', heq⟩ => ?_⟩
    · cases heq
      exact ⟨hbuffer, rfl⟩
    · injection heq with hcause hahead
      rw [hcause, eq_of_remaining (hbuffer.trans hbuffer'.symm) hahead]

/-- Readers that cannot be told apart one by one cannot be told apart in turn. -/
theorem Alike.mapM {β : Type} {f : β → Reader Cursor ε α} {g : β → Reader Bytes ε α}
    (h : ∀ b, Alike (f b) (g b)) (bs : List β) : Alike (bs.mapM f) (bs.mapM g) := by
  intro buffer
  induction bs with
  | nil => exact .pure []
  | cons b bs ih =>
    rw [List.mapM_cons, List.mapM_cons]
    exact (h b buffer).bind fun a => ih.bind fun as => .pure (a :: as)

/-- A cursor is moved over what the reader takes off the bytes ahead. -/
theorem Alike.exists_movesBy (h : Alike r r') {front tail : Bytes}
    (hahead : c.remaining = front ++ tail) (hrun : r' (front ++ tail) = .ok a tail) :
    ∃ c', r c = .ok a c' ∧ c.MovesBy front.length c' := by
  obtain ⟨c', hmoves, hrest⟩ := Cursor.exists_movesBy hahead
  refine ⟨c', (ok_iff h).mpr ⟨hmoves.buffer_eq, ?_⟩, hmoves⟩
  rw [hahead, hrest]
  exact hrun

end Transfer

end Cursor

/-! ## Steps -/

/-- A step does the same over related sources. -/
theorem ReadStep.agrees_run {σ τ ε : Type} [ByteSource σ] [ByteSource τ] [OfReadError ε]
    {R : σ → τ → Prop} {E : ε → Prop} (h : Simulation R E)
    (hE : ∀ e : ReadError, E (OfReadError.ofReadError e)) (step : ReadStep) :
    Agrees R E (step.run : Reader σ ε ReadValue) step.run := by
  cases step with
  | number f => exact (Agrees.number h f).bind fun n => .pure _
  | signed => exact (Agrees.i64 h).bind fun n => .pure _
  | real => exact (Agrees.u64 h).bind fun bits => .pure _
  | take n => exact (Agrees.take h n).bind fun bs => .pure _
  | skip n => exact (Agrees.skip h n).bind fun _ => .pure _
  | rest => exact (Agrees.rest h).bind fun bs => .pure _
  | takeUntil b inclusive =>
    exact (Agrees.takeUntil h (hE _) b inclusive).bind fun bs => .pure _
  | takeCString max => exact (Agrees.takeCString h max).bind fun bs => .pure _
  | takePrefixed width => exact (Agrees.takePrefixed h (.inr (hE _))).bind fun bs => .pure _
  | lenEncInt => exact (Agrees.lenEncInt h).bind fun n => .pure _
  | hasMore => exact (Agrees.hasMore h).bind fun b => .pure _
  | peek => exact (Agrees.unread h).bind fun bs => .pure _

theorem ReadStep.alike_run {ε : Type} [OfReadError ε] (step : ReadStep) :
    Cursor.Alike (step.run : Reader Cursor ε ReadValue) step.run :=
  fun buffer => step.agrees_run (Cursor.simulation buffer fun _ => True.intro) fun _ => True.intro

/-- **One reader.** Steps in turn over a cursor and over the bytes themselves give, one by one, the
same value or the same error and leave the same bytes unread. What the cursor has consumed and what
is unread always make up the buffer. -/
theorem ReadStep.trace_cursor (buffer : Bytes) (steps : List ReadStep) :
    List.Forall₂
      (fun (x : Except ReadError ReadValue × Cursor) (y : Except ReadError ReadValue × Bytes) =>
        x.1 = y.1 ∧ x.2.remaining = y.2 ∧ x.2.consumed + y.2.length = buffer.length)
      (trace (steps.map ReadStep.run) (Cursor.ofBytes buffer))
      (trace (steps.map ReadStep.run) buffer) := by
  have htrace := Agrees.trace (fun step => ReadStep.alike_run (ε := ReadError) step buffer) steps
    (Cursor.shows_ofBytes buffer)
  refine htrace.imp fun x y h => ?_
  obtain ⟨hresult, hshows⟩ := h
  exact ⟨hresult, hshows.remaining_eq, hshows.consumed_add⟩

end Binlog
