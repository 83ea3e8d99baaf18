import Binlog.Proofs.Framing
import Binlog.Proofs.Guarded
import Binlog.Proofs.Sources

/-!
# Following what is left

A guarded cursor that stands within its buffer, and has no fault, does the same as the bytes that
are left of the buffer (`GuardedCursor.Follows`). So it can be exchanged for them
(`GuardedCursor.simulation`), and readers agree over the two.

**Sizes.** A count of bytes that is added to an offset must not leave the machine word. The offset
stays within the buffer, so it is enough that the buffer does not have 2^64 bytes.

**Steps that are none.** A partial operation that is in its domain goes on with its value, and so
does a reader that takes known values from bytes of its own. Reading without a guard has no such
step, so the rules for them have it on one side only.
-/

namespace Binlog

open Reader

/-! ## Cursors -/

/-- The cursor stands where the bytes are what is left of the buffer, and has no fault. -/
structure GuardedCursor.Follows (buffer : Bytes) (c : GuardedCursor) (s : Bytes) : Prop where
  buffer_eq : c.buffer = buffer
  offset_le : c.offset ≤ buffer.length
  drop_offset : buffer.drop c.offset = s
  fault_eq : c.fault = none
  length_lt : buffer.length < 2 ^ 64

namespace GuardedCursor

variable {buffer s : Bytes} {c : GuardedCursor}

/-! ### Looking ahead -/

/-- An offset within the buffer shows what is behind it. -/
theorem ahead_eq_ok (h : c.offset ≤ c.buffer.length) : c.ahead = .ok (c.buffer.drop c.offset) := by
  unfold ahead Guard.slice
  rw [if_pos ⟨h, Nat.le_refl _⟩, List.take_length]

theorem unread_eq (h : c.offset ≤ c.buffer.length) :
    ByteSource.unread c = c.buffer.drop c.offset := by
  change c.unread = _
  rw [unread, ahead_eq_ok h]

theorem firstFault_eq_none (h : c.offset ≤ c.buffer.length) (hfault : c.fault = none) :
    c.firstFault = none := by
  rw [firstFault, ahead_eq_ok h, hfault]

theorem settle_eq_ok {α : Type} (h : c.offset ≤ c.buffer.length) (hfault : c.fault = none)
    (outcome : α) : c.settle outcome = .ok outcome := by
  rw [settle, firstFault_eq_none h hfault]

theorem unread_start (bs : Bytes) : ByteSource.unread (start bs) = bs :=
  unread_eq (Nat.zero_le _)

/-! ### What is left -/

theorem follows_start (h : buffer.length < 2 ^ 64) : Follows buffer (start buffer) buffer where
  buffer_eq := rfl
  offset_le := Nat.zero_le _
  drop_offset := List.drop_zero
  fault_eq := rfl
  length_lt := h

/-- Bytes of their own are followed from their front, as long as there was no fault. -/
theorem Follows.start_within (hc : Follows buffer c s) {bs : Bytes} (hlen : bs.length < 2 ^ 64) :
    Follows bs ⟨bs, 0, c.fault⟩ bs := by
  rw [hc.fault_eq]
  exact follows_start hlen

/-- Behind a cursor that follows what is left are all other bytes. -/
theorem Follows.offset_eq (hc : Follows buffer c s) : c.offset = buffer.length - s.length := by
  have hle := hc.offset_le
  rw [← hc.drop_offset, List.length_drop]
  omega

theorem Follows.offset_le_length (hc : Follows buffer c s) : c.offset ≤ c.buffer.length := by
  rw [hc.buffer_eq]
  exact hc.offset_le

theorem Follows.ahead_eq (hc : Follows buffer c s) : c.ahead = .ok s := by
  rw [ahead_eq_ok hc.offset_le_length, hc.buffer_eq, hc.drop_offset]

theorem Follows.firstFault_eq (hc : Follows buffer c s) : c.firstFault = none :=
  firstFault_eq_none hc.offset_le_length hc.fault_eq

/-! ### Taking bytes -/

theorem advance_eq_none {n : Nat} (hle : c.offset ≤ c.buffer.length)
    (hn : c.buffer.length - c.offset < n) : c.advance n = .ok none := by
  refine Except.bind_eq_ok_iff.mpr ⟨_, if_pos hle, ?_⟩
  rw [if_pos hn]
  exact Except.bind_eq_ok_iff.mpr ⟨_, if_pos (Nat.le_of_lt hn), rfl⟩

theorem advance_eq_some {n : Nat} (hn : c.offset + n ≤ c.buffer.length)
    (hword : c.offset + n < 2 ^ 64) : c.advance n =
      .ok (some ((c.buffer.drop c.offset).take n, { c with offset := c.offset + n })) := by
  refine Except.bind_eq_ok_iff.mpr ⟨_, if_pos (by omega), ?_⟩
  rw [if_neg (by omega)]
  refine Except.bind_eq_ok_iff.mpr ⟨_, if_pos hword, ?_⟩
  refine Except.bind_eq_ok_iff.mpr ⟨_, if_pos ⟨Nat.le_add_right _ _, hn⟩, ?_⟩
  rw [List.take_drop]
  rfl

/-- Without a fault, bytes are taken as `advance` does. -/
theorem take?_of_advance {n : Nat} {r : Option (Bytes × GuardedCursor)}
    (h : c.advance n = .ok r) : ByteSource.take? n c = r := by
  change c.split? n = r
  unfold split?
  rw [h]

/-- The cursor can be exchanged for the bytes that are left. -/
theorem simulation (buffer : Bytes) {ε : Type} [OfReadError ε] {E : ε → Prop}
    (hE : ∀ n, E (OfReadError.ofReadError (.incomplete (.size n)))) :
    Simulation (Follows buffer) E where
  unread_eq := by
    intro c s hc
    rw [unread_eq hc.offset_le_length, hc.buffer_eq, hc.drop_offset]
    rfl
  take_rel := by
    intro c s n hc
    have hbytes : ByteSource.take? n s =
      if n ≤ s.length then some (s.take n, s.drop n) else none := rfl
    have hlen : s.length = buffer.length - c.offset := by
      rw [← hc.drop_offset, List.length_drop]
    have hle := hc.offset_le
    have hlt := hc.length_lt
    by_cases hn : n ≤ s.length
    · have hfits : c.offset + n ≤ buffer.length := by omega
      have hfits' : c.offset + n ≤ c.buffer.length := by rwa [hc.buffer_eq]
      rw [take?_of_advance (advance_eq_some hfits' (by omega)), hbytes, if_pos hn]
      refine .some ⟨?_, hc.buffer_eq, hfits, ?_, hc.fault_eq, hlt⟩
      · rw [hc.buffer_eq, hc.drop_offset]
      · rw [← hc.drop_offset, List.drop_drop]
    · have hfits : c.buffer.length - c.offset < n := by
        rw [hc.buffer_eq]
        omega
      rw [take?_of_advance (advance_eq_none hc.offset_le_length hfits), hbytes, if_neg hn]
      exact .none
  underrun := hE

/-! ### Reading any bytes

From the front of bytes of any number a cursor can go as far as a word can say.
-/

section Front

variable {ε β : Type} {bs : Bytes} {n : Nat}

theorem take_start [OfReadError ε] (hn : n < 2 ^ 64) (hle : n ≤ bs.length) :
    (Reader.take n : Reader GuardedCursor ε Bytes) (start bs) = .ok (bs.take n) ⟨bs, n, none⟩ := by
  have hadvance : (start bs).advance n = _ :=
    advance_eq_some (by simpa [start] using hle) (by simpa [start] using hn)
  unfold Reader.take
  rw [take?_of_advance hadvance]
  simp [start]

theorem take_start_of_lt [OfReadError ε] (h : bs.length < n) :
    (Reader.take n : Reader GuardedCursor ε Bytes) (start bs) =
      .error (OfReadError.ofReadError (.incomplete (.size (n - bs.length)))) (start bs) := by
  have hadvance : (start bs).advance n = .ok none := advance_eq_none (Nat.zero_le _) h
  unfold Reader.take
  rw [take?_of_advance hadvance, unread_start]

theorem left_start_bind (f : Nat → Reader GuardedCursor ε β) (bs : Bytes) :
    (Reader.left >>= f) (start bs) = f bs.length (start bs) := by
  change f (ByteSource.unread (start bs)).length (start bs) = _
  rw [unread_start]

end Front

/-! ## Rules -/

/-- From what is left as `s`, a reader gives `a` and leaves `t`. -/
def Reads {ε α : Type} (r : Reader GuardedCursor ε α) (s : Bytes) (a : α) (t : Bytes) : Prop :=
  ∀ buffer c, Follows buffer c s → ∃ c', r c = .ok a c' ∧ Follows buffer c' t

section Rules

variable {ε α β : Type} {E : ε → Prop}

theorem Reads.pure (a : α) (s : Bytes) : Reads (Pure.pure a : Reader GuardedCursor ε α) s a s :=
  fun _ c hc => ⟨c, rfl, hc⟩

theorem Reads.bind {x : Reader GuardedCursor ε α} {f : α → Reader GuardedCursor ε β}
    {t u : Bytes} {a : α} {b : β} (hx : Reads x s a t) (hf : Reads (f a) t b u) :
    Reads (x >>= f) s b u := by
  intro buffer c hc
  obtain ⟨c', hx', hc'⟩ := hx buffer c hc
  obtain ⟨c'', hf', hc''⟩ := hf buffer c' hc'
  exact ⟨c'', bind_eq_ok_iff.mpr ⟨a, c', hx', hf'⟩, hc''⟩

theorem Reads.check_bind [Inhabited α] {x : Except Fault α} {f : α → Reader GuardedCursor ε β}
    {t : Bytes} {a : α} {b : β} (hx : x = .ok a) (hf : Reads (f a) s b t) :
    Reads (check x >>= f) s b t := by
  subst hx
  exact hf

theorem reads_number [OfReadError ε] (f : NumberFormat) (hs : f.width ≤ s.length) :
    Reads (Reader.number f : Reader GuardedCursor ε Nat) s (f.decode (s.take f.width))
      (s.drop f.width) := by
  intro buffer c hc
  have hbytes : (Reader.number f : Reader Bytes ε Nat) s =
      .ok (f.decode (s.take f.width)) (s.drop f.width) := by
    refine bind_eq_ok_iff.mpr ⟨s.take f.width, s.drop f.width, take_eq_ok_iff.mpr ?_, rfl⟩
    exact ⟨List.length_take_of_le hs, (List.take_append_drop _ _).symm⟩
  have hout := Agrees.number (E := fun _ : ε => True)
    (simulation buffer fun _ => True.intro) f c s hc
  rw [hbytes] at hout
  revert hout
  generalize (Reader.number f : Reader GuardedCursor ε Nat) c = o
  intro hout
  cases hout with
  | ok left => exact ⟨_, rfl, left⟩

/-- An operation in its domain is no step. -/
theorem agrees_check_bind [Inhabited α] {x : Except Fault α} {a : α}
    {f : α → Reader GuardedCursor ε β} {r : Reader Bytes ε β} (hx : x = .ok a)
    (hf : Agrees (Follows buffer) E (f a) r) : Agrees (Follows buffer) E (check x >>= f) r := by
  subst hx
  exact hf

/-- Taken bytes are as many as were asked for. -/
theorem agrees_take_bind [OfReadError ε] {n : Nat} {f : Bytes → Reader GuardedCursor ε β}
    {f' : Bytes → Reader Bytes ε β} (hsim : Simulation (Follows buffer) E)
    (hf : ∀ bs : Bytes, bs.length = n → Agrees (Follows buffer) E (f bs) (f' bs)) :
    Agrees (Follows buffer) E (Reader.take n >>= f) (Reader.take n >>= f') := by
  refine (Agrees.take hsim n).bind_of_ok fun bs hbs => ?_
  obtain ⟨s, t, htake⟩ := hbs
  exact hf bs (take_eq_ok_iff.mp htake).1

theorem agrees_within {bs : Bytes} {r : Reader GuardedCursor ε α} {r' : Reader Bytes ε α}
    (hlen : bs.length < 2 ^ 64) (hr : Agrees (Follows bs) E r r') :
    Agrees (Follows buffer) E (within bs r) (Reader.within bs r') := by
  intro c s hc
  have hout := hr _ _ (hc.start_within hlen)
  unfold GuardedCursor.within Reader.within
  revert hout
  generalize r ⟨bs, 0, c.fault⟩ = o
  generalize r' bs = o'
  intro hout
  cases hout with
  | ok left => exact .ok { hc with fault_eq := left.firstFault_eq }
  | error admitted left => exact .error admitted { hc with fault_eq := left.firstFault_eq }

/-- A reader that takes known values from bytes of its own is no step either. -/
theorem agrees_within_bind {bs t : Bytes} {r : Reader GuardedCursor ε α} {a : α}
    {f : α → Reader GuardedCursor ε β} {r' : Reader Bytes ε β} (hlen : bs.length < 2 ^ 64)
    (hr : Reads r bs a t) (hf : Agrees (Follows buffer) E (f a) r') :
    Agrees (Follows buffer) E (within bs r >>= f) r' := by
  intro c s hc
  obtain ⟨c', hr', hc'⟩ := hr _ _ (hc.start_within hlen)
  have hwithin : within bs r c = .ok a { c with fault := c'.firstFault } := by
    unfold within
    rw [hr']
  change SameOutcome _ _ (EStateM.bind (within bs r) f c) _
  unfold EStateM.bind
  rw [hwithin]
  exact hf _ _ { hc with fault_eq := hc'.firstFault_eq }

end Rules

end GuardedCursor

end Binlog
