import Binlog.Payload

/-!
# Decoders and their sources

A decoder learns of its source only by looking at the bytes ahead and by taking bytes off. So over
two sources that show the same bytes, and of which the same bytes can be taken, it gives the same
value or fails for the same reason, and leaves sources that are alike again.

**Agreement** (`Reader.Agrees`). One reader over two kinds of sources, or two readers, that take
related sources to the same outcome. The relation also has a set of errors, to which every failure
must belong; so one walk over the decoders tells both that a source can be exchanged for another,
and for which reasons each of them fails.

Main statements: one lemma of `Agrees` for each reader, and `Agrees.admitted`.
-/

namespace Binlog

namespace Reader

/-! ## Outcomes -/

section Composition

variable {σ τ ε α β : Type} {R : σ → τ → Prop} {E : ε → Prop}

/-- The same value or the same error, with related sources left. -/
inductive SameOutcome (R : σ → τ → Prop) (E : ε → Prop) :
    EStateM.Result ε σ α → EStateM.Result ε τ α → Prop where
  | ok {a : α} {s : σ} {t : τ} (left : R s t) : SameOutcome R E (.ok a s) (.ok a t)
  | error {e : ε} {s : σ} {t : τ} (admitted : E e) (left : R s t) :
    SameOutcome R E (.error e s) (.error e t)

/-- Two readers take related sources to the same outcome, and all their errors are in `E`. -/
def Agrees (R : σ → τ → Prop) (E : ε → Prop) (r : Reader σ ε α) (r' : Reader τ ε α) : Prop :=
  ∀ s t, R s t → SameOutcome R E (r s) (r' t)

namespace Agrees

/-- What the second reader fails with is in the set of errors. -/
theorem admitted {r : Reader σ ε α} {r' : Reader τ ε α} (h : Agrees R E r r') {s : σ} {t t' : τ}
    {e : ε} (hs : R s t) (he : r' t = .error e t') : E e := by
  have hout := h s t hs
  rw [he] at hout
  revert hout
  generalize r s = o
  intro hout
  cases hout with
  | error admitted _ => exact admitted

theorem pure (a : α) : Agrees R E (Pure.pure a : Reader σ ε α) (Pure.pure a) :=
  fun _ _ hs => .ok hs

theorem throw {e : ε} (he : E e) :
    Agrees R E (MonadExcept.throw e : Reader σ ε α) (MonadExcept.throw e) :=
  fun _ _ hs => .error he hs

/-- How a reader goes on matters only for the values that it can give. -/
theorem bind_of_ok {x : Reader σ ε α} {x' : Reader τ ε α} {f : α → Reader σ ε β}
    {f' : α → Reader τ ε β} (hx : Agrees R E x x')
    (hf : ∀ a, (∃ t t', x' t = .ok a t') → Agrees R E (f a) (f' a)) :
    Agrees R E (x >>= f) (x' >>= f') := by
  intro s t hs
  change SameOutcome R E (EStateM.bind x f s) (EStateM.bind x' f' t)
  have hstep := hx s t hs
  have hgives (a : α) (t' : τ) (ha : x' t = .ok a t') := hf a ⟨t, t', ha⟩
  unfold EStateM.bind
  revert hstep hgives
  generalize x s = o
  generalize x' t = o'
  intro hstep hgives
  cases hstep with
  | ok left => exact hgives _ _ rfl _ _ left
  | error admitted left => exact .error admitted left

theorem bind {x : Reader σ ε α} {x' : Reader τ ε α} {f : α → Reader σ ε β} {f' : α → Reader τ ε β}
    (hx : Agrees R E x x') (hf : ∀ a, Agrees R E (f a) (f' a)) :
    Agrees R E (x >>= f) (x' >>= f') :=
  hx.bind_of_ok fun a _ => hf a

theorem map {x : Reader σ ε α} {x' : Reader τ ε α} (f : α → β) (hx : Agrees R E x x') :
    Agrees R E (f <$> x) (f <$> x') := by
  intro s t hs
  change SameOutcome R E (EStateM.map f x s) (EStateM.map f x' t)
  have hstep := hx s t hs
  unfold EStateM.map
  revert hstep
  generalize x s = o
  generalize x' t = o'
  intro hstep
  cases hstep with
  | ok left => exact .ok left
  | error admitted left => exact .error admitted left

theorem ite {c : Prop} [Decidable c] {x y : Reader σ ε α} {x' y' : Reader τ ε α}
    (hx : c → Agrees R E x x') (hy : ¬ c → Agrees R E y y') :
    Agrees R E (if c then x else y) (if c then x' else y') := by
  by_cases h : c
  · rw [if_pos h, if_pos h]
    exact hx h
  · rw [if_neg h, if_neg h]
    exact hy h

/-- The two branches of a step go on alike. -/
theorem ite_bind {c : Prop} [Decidable c] {x y : Reader σ ε α} {x' y' : Reader τ ε α}
    {f : α → Reader σ ε β} {f' : α → Reader τ ε β} (hx : c → Agrees R E x x')
    (hy : ¬ c → Agrees R E y y') (hf : ∀ a, Agrees R E (f a) (f' a)) :
    Agrees R E (if c then x >>= f else y >>= f) (if c then x' >>= f' else y' >>= f') :=
  .ite (fun hc => (hx hc).bind hf) fun hc => (hy hc).bind hf

theorem count {item : Reader σ ε α} {item' : Reader τ ε α} (hitem : Agrees R E item item')
    (n : Nat) : Agrees R E (Reader.count item n) (Reader.count item' n) := by
  induction n with
  | zero => exact .pure []
  | succ n ih => exact hitem.bind fun x => ih.bind fun xs => .pure (x :: xs)

end Agrees

end Composition

/-! ## Sources -/

section Sources

variable {σ τ ε : Type} [ByteSource σ] [ByteSource τ] [OfReadError ε]

/-- Related sources show the same bytes, and the same bytes can be taken off them. The errors have
among them that bytes are missing. -/
structure Simulation (R : σ → τ → Prop) (E : ε → Prop) : Prop where
  unread_eq : ∀ {s t}, R s t → ByteSource.unread s = ByteSource.unread t
  take_rel : ∀ {s t} (n : Nat), R s t →
    Option.Rel (fun x y => x.1 = y.1 ∧ R x.2 y.2) (ByteSource.take? n s) (ByteSource.take? n t)
  underrun : ∀ n, E (OfReadError.ofReadError (.incomplete (.size n)))

/-- Every source is like itself. -/
theorem Simulation.refl {E : ε → Prop}
    (hE : ∀ n, E (OfReadError.ofReadError (.incomplete (.size n)))) :
    Simulation (Eq : σ → σ → Prop) E where
  unread_eq := by
    rintro s _ rfl
    rfl
  take_rel := by
    rintro s _ n rfl
    cases ByteSource.take? n s with
    | none => exact .none
    | some x => exact .some ⟨rfl, rfl⟩
  underrun := hE

variable {R : σ → τ → Prop} {E : ε → Prop}

/-- Two sources that are like a third one are like each other. -/
theorem Simulation.comp {υ : Type} [ByteSource υ] {R : σ → υ → Prop} {R' : τ → υ → Prop}
    (h : Simulation R E) (h' : Simulation R' E) :
    Simulation (fun s t => ∃ u, R s u ∧ R' t u) E where
  unread_eq := by
    rintro s t ⟨u, hs, ht⟩
    rw [h.unread_eq hs, h'.unread_eq ht]
  take_rel := by
    rintro s t n ⟨u, hs, ht⟩
    have hrel := h.take_rel n hs
    have hrel' := h'.take_rel n ht
    revert hrel hrel'
    generalize ByteSource.take? n s = x
    generalize ByteSource.take? n t = y
    generalize ByteSource.take? n u = z
    intro hrel hrel'
    cases hrel with
    | none =>
      cases hrel' with
      | none => exact .none
    | some hxz =>
      cases hrel' with
      | some hyz => exact .some ⟨hxz.1.trans hyz.1.symm, _, hxz.2, hyz.2⟩
  underrun := h.underrun

namespace Agrees

theorem unread (h : Simulation R E) :
    Agrees R E (Reader.unread : Reader σ ε Bytes) Reader.unread := by
  intro s t hs
  change SameOutcome R E (.ok (ByteSource.unread s) s) (.ok (ByteSource.unread t) t)
  rw [h.unread_eq hs]
  exact .ok hs

theorem left (h : Simulation R E) : Agrees R E (Reader.left : Reader σ ε Nat) Reader.left :=
  (unread h).bind fun bs => .pure bs.length

theorem hasMore (h : Simulation R E) :
    Agrees R E (Reader.hasMore : Reader σ ε Bool) Reader.hasMore :=
  (unread h).bind fun bs => .pure (!bs.isEmpty)

theorem take (h : Simulation R E) (n : Nat) :
    Agrees R E (Reader.take n : Reader σ ε Bytes) (Reader.take n) := by
  intro s t hs
  have hrel := h.take_rel n hs
  unfold Reader.take
  rw [h.unread_eq hs]
  revert hrel
  generalize ByteSource.take? n s = x
  generalize ByteSource.take? n t = y
  intro hrel
  cases hrel with
  | none => exact .error (h.underrun _) hs
  | @some x y hxy =>
    obtain ⟨bs, s'⟩ := x
    obtain ⟨_, t'⟩ := y
    obtain ⟨rfl, hleft⟩ := hxy
    exact .ok hleft

theorem skip (h : Simulation R E) (n : Nat) :
    Agrees R E (Reader.skip n : Reader σ ε Unit) (Reader.skip n) :=
  (take h n).bind fun _ => .pure ()

theorem rest (h : Simulation R E) : Agrees R E (Reader.rest : Reader σ ε Bytes) Reader.rest :=
  (left h).bind fun n => take h n

theorem takeUntil (h : Simulation R E)
    (hunknown : E (OfReadError.ofReadError (.incomplete .unknown))) (b : UInt8) (inclusive : Bool) :
    Agrees R E (Reader.takeUntil b inclusive : Reader σ ε Bytes)
      (Reader.takeUntil b inclusive) := by
  refine (unread h).bind fun bs => ?_
  cases bs.idxOf? b with
  | none => exact .throw hunknown
  | some i => exact (take h (i + 1)).bind fun bs => .pure _

theorem takeCString (h : Simulation R E) (max : Nat) :
    Agrees R E (Reader.takeCString max : Reader σ ε Bytes) (Reader.takeCString max) := by
  refine (unread h).bind fun bs => ?_
  cases (bs.take max).idxOf? 0 with
  | none => exact take h max
  | some i => exact (take h (i + 1)).bind fun bs => .pure _

theorem number (h : Simulation R E) (f : NumberFormat) :
    Agrees R E (Reader.number f : Reader σ ε Nat) (Reader.number f) :=
  (take h f.width).bind fun bs => .pure (f.decode bs)

theorem u8 (h : Simulation R E) : Agrees R E (Reader.u8 : Reader σ ε UInt8) Reader.u8 :=
  (number h _).bind fun _ => .pure _

theorem u16 (h : Simulation R E) : Agrees R E (Reader.u16 : Reader σ ε UInt16) Reader.u16 :=
  (number h _).bind fun _ => .pure _

theorem u24 (h : Simulation R E) : Agrees R E (Reader.u24 : Reader σ ε UInt32) Reader.u24 :=
  (number h _).bind fun _ => .pure _

theorem u32 (h : Simulation R E) : Agrees R E (Reader.u32 : Reader σ ε UInt32) Reader.u32 :=
  (number h _).bind fun _ => .pure _

theorem u56 (h : Simulation R E) : Agrees R E (Reader.u56 : Reader σ ε UInt64) Reader.u56 :=
  (number h _).bind fun _ => .pure _

theorem u64 (h : Simulation R E) : Agrees R E (Reader.u64 : Reader σ ε UInt64) Reader.u64 :=
  (number h _).bind fun _ => .pure _

theorem i64 (h : Simulation R E) : Agrees R E (Reader.i64 : Reader σ ε Int64) Reader.i64 :=
  (u64 h).bind fun _ => .pure _

theorem lenEncInt (h : Simulation R E) :
    Agrees R E (Reader.lenEncInt : Reader σ ε LenEncInt) Reader.lenEncInt := by
  refine (u8 h).bind fun tag => ?_
  split
  · exact .pure _
  · exact (u16 h).bind fun _ => .pure _
  · exact (u24 h).bind fun _ => .pure _
  · exact (u64 h).bind fun _ => .pure _
  · exact .pure _
  · exact .pure _

theorem takePrefixed (h : Simulation R E) {width : Nat}
    (hw : width ∈ prefixWidths ∨ E (OfReadError.ofReadError (.badWidth width))) :
    Agrees R E (Reader.takePrefixed width : Reader σ ε Bytes) (Reader.takePrefixed width) :=
  .ite (fun _ => (number h _).bind fun n => take h n) fun hno => .throw (hw.resolve_left hno)

theorem untilEnd {α : Type} (h : Simulation R E) {item : Reader σ ε α} {item' : Reader τ ε α}
    (hitem : Agrees R E item item') :
    Agrees R E (Reader.untilEnd item) (Reader.untilEnd item') := by
  refine (left h).bind fun fuel => ?_
  induction fuel with
  | zero => exact .pure []
  | succ fuel ih =>
    exact (hasMore h).bind fun more =>
      .ite (fun _ => hitem.bind fun x => ih.bind fun xs => .pure (x :: xs)) fun _ => .pure []

end Agrees

end Sources

end Reader

end Binlog
