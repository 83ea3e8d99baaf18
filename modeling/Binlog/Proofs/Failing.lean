import Binlog.Proofs.StrictText

/-!
# What a failed read says

The counterpart of `Binlog.Proofs.Reading` for errors. A reader over a run of bytes fails exactly
when the run has a certain defect at its front, and the error tells which: `r s = .error e t` is
equivalent to a condition on `s` and `e`. Where the reader leaves its source is of no interest
behind an error, so it is left open (`Fails`).

**Composition.** A failure of `x >>= f` is one of `x`, or a success of `x` followed by a failure of
`f` (`fails_bind_iff`). So the first defect in the order of reading is the one that is told.

**Cut input.** Where bytes of a known number are missing, the error is `cut n` for the number of
those that are missing (`fails_take_iff`).
-/

namespace Binlog

theorem Bytes.idxOf?_append_cons {b : UInt8} {bs t : Bytes} (hb : b ∉ bs) :
    (bs ++ b :: t).idxOf? b = some bs.length := by
  induction bs with
  | nil => simp [List.idxOf?_cons]
  | cons c bs ih =>
    have hc : ¬ c = b := fun hc => hb (hc ▸ List.mem_cons_self)
    simp [List.idxOf?_cons, hc, ih (fun h => hb (List.mem_cons_of_mem _ h))]

namespace Reader

/-- The reader fails with an error. -/
def Fails {σ ε α : Type} (r : Reader σ ε α) (s : σ) (e : ε) : Prop := ∃ t, r s = .error e t

/-! ## Composition -/

section Composition

variable {σ ε α β : Type} {s : σ} {e : ε}

theorem not_fails_pure {a : α} : ¬ Fails (pure a : Reader σ ε α) s e := by
  rintro ⟨t, h⟩
  cases h

theorem fails_throw_iff {e' : ε} : Fails (throw e' : Reader σ ε α) s e ↔ e = e' := by
  refine ⟨fun ⟨t, h⟩ => ?_, fun h => ⟨s, ?_⟩⟩
  · cases h
    rfl
  · rw [h]
    rfl

theorem fails_bind_iff {x : Reader σ ε α} {f : α → Reader σ ε β} :
    Fails (x >>= f) s e ↔ Fails x s e ∨ ∃ a u, x s = .ok a u ∧ Fails (f a) u e := by
  unfold Fails
  change (∃ t, EStateM.bind x f s = .error e t) ↔ _
  unfold EStateM.bind
  cases x s with
  | ok a u =>
    refine ⟨fun h => .inr ⟨a, u, rfl, h⟩, ?_⟩
    rintro (⟨_, hx⟩ | ⟨_, _, hx, h⟩)
    · cases hx
    · cases hx
      exact h
  | error e' u => simp

theorem fails_map_iff {x : Reader σ ε α} {f : α → β} : Fails (f <$> x) s e ↔ Fails x s e := by
  unfold Fails
  change (∃ t, EStateM.map f x s = .error e t) ↔ _
  unfold EStateM.map
  cases x s with
  | ok a u => simp
  | error e' u => simp

theorem fails_ite_iff {c : Prop} [Decidable c] {x y : Reader σ ε α} :
    Fails (if c then x else y) s e ↔ c ∧ Fails x s e ∨ ¬ c ∧ Fails y s e := by
  by_cases h : c <;> simp [h]

theorem fails_congr {x y : Reader σ ε α} (h : x s = y s) : Fails x s e ↔ Fails y s e := by
  unfold Fails
  rw [h]

theorem not_fails_of_ok {x : Reader σ ε α} {a : α} {t : σ} (h : x s = .ok a t) :
    ¬ Fails x s e := by
  rintro ⟨u, hx⟩
  rw [h] at hx
  cases hx

theorem fails_unique {x : Reader σ ε α} {e' : ε} (h : Fails x s e) (h' : Fails x s e') :
    e = e' := by
  obtain ⟨t, h⟩ := h
  obtain ⟨t', h'⟩ := h'
  rw [h] at h'
  cases h'
  rfl

/-- A reader succeeds or fails. -/
theorem ok_or_fails (x : Reader σ ε α) (s : σ) : (∃ a t, x s = .ok a t) ∨ ∃ e, Fails x s e := by
  cases h : x s with
  | ok a t => exact .inl ⟨a, t, rfl⟩
  | error e t => exact .inr ⟨e, t, h⟩

end Composition

/-! ## Runs of bytes -/

section Bytes

variable {ε : Type} [OfReadError ε] {s : Bytes} {e : ε}

/-- So many bytes are missing. -/
def cut {ε : Type} [OfReadError ε] (missing : Nat) : ε :=
  OfReadError.ofReadError (.incomplete (.size missing))

theorem fails_take_iff {n : Nat} :
    Fails (take n : Reader Bytes ε Bytes) s e ↔ s.length < n ∧ e = cut (n - s.length) := by
  unfold Fails
  rw [← Bytes.read_eq_error_iff, read_take]
  by_cases hn : n ≤ s.length
  · have hlt : ¬ s.length < n := by omega
    simp [hn, hlt]
  · have hlt : s.length < n := by omega
    simp [hn, hlt, cut, eq_comm]

theorem fails_number_iff {f : NumberFormat} : Fails (number f : Reader Bytes ε Nat) s e ↔
    s.length < f.width ∧ e = cut (f.width - s.length) := by
  simp only [number, fails_bind_iff, fails_take_iff, not_fails_pure, and_false, exists_false,
    or_false]

theorem fails_u8_iff : Fails (u8 : Reader Bytes ε UInt8) s e ↔ s = [] ∧ e = cut 1 := by
  simp only [u8, fails_bind_iff, fails_number_iff, not_fails_pure, and_false, exists_false,
    or_false]
  cases s with
  | nil => simp [NumberFormat.little]
  | cons b rest => simp [NumberFormat.little]

/-- A run of bytes behind a length of one byte. -/
theorem takePrefixed_one_eq :
    (takePrefixed 1 : Reader Bytes ε Bytes) = (u8 >>= fun n => take n.toNat) := by
  funext s
  cases s with
  | nil => rfl
  | cons b rest =>
    have hu8 : (u8 : Reader Bytes ε UInt8) (b :: rest) = .ok b rest := u8_eq_ok_iff.mpr rfl
    have hnumber : (number (.little 1) : Reader Bytes ε Nat) (b :: rest) = .ok b.toNat rest := by
      refine number_eq_ok_iff.mpr ⟨b.toNat_lt, ?_⟩
      simp [NumberFormat.encode, NumberFormat.little, Bytes.ofNatLE]
    rw [bind_of_ok hu8]
    exact bind_of_ok hnumber

theorem takeUntil_append_cons {b : UInt8} {inclusive : Bool} {bs t : Bytes} (hb : b ∉ bs) :
    (takeUntil b inclusive : Reader Bytes ε Bytes) (bs ++ b :: t) =
      .ok (if inclusive then bs ++ [b] else bs) t := by
  have hunread : (unread : Reader Bytes ε Bytes) (bs ++ b :: t) =
      .ok (bs ++ b :: t) (bs ++ b :: t) := rfl
  have htake : (take (bs.length + 1) : Reader Bytes ε Bytes) (bs ++ b :: t) =
      .ok (bs ++ [b]) t := take_eq_ok_iff.mpr ⟨by simp, by simp⟩
  rw [takeUntil, bind_of_ok hunread, Bytes.idxOf?_append_cons hb]
  dsimp only
  rw [bind_of_ok htake, pure_eq_ok_iff]
  simp

theorem takeUntil_of_notMem {b : UInt8} {inclusive : Bool} (hb : b ∉ s) :
    (takeUntil b inclusive : Reader Bytes ε Bytes) s =
      .error (OfReadError.ofReadError (.incomplete .unknown)) s := by
  have hunread : (unread : Reader Bytes ε Bytes) s = .ok s s := rfl
  rw [takeUntil, bind_of_ok hunread, List.idxOf?_eq_none_iff.mpr hb]
  rfl

theorem fails_takeUntil_iff {b : UInt8} : Fails (takeUntil b false : Reader Bytes ε Bytes) s e ↔
    b ∉ s ∧ e = OfReadError.ofReadError (.incomplete .unknown) := by
  by_cases hb : b ∈ s
  · obtain ⟨bs, t, rfl, hbs⟩ := List.eq_append_cons_of_mem hb
    simp [not_fails_of_ok (takeUntil_append_cons hbs)]
  · simp [Fails, takeUntil_of_notMem hb, hb, eq_comm]

/-- The bytes up to a terminator are those in front of the first one. -/
theorem takeUntil_eq_ok_iff {b : UInt8} {bs t : Bytes} :
    (takeUntil b false : Reader Bytes ε Bytes) s = .ok bs t ↔ b ∉ bs ∧ s = bs ++ b :: t := by
  refine ⟨fun h => ?_, ?_⟩
  · by_cases hb : b ∈ s
    · obtain ⟨bs', t', rfl, hbs'⟩ := List.eq_append_cons_of_mem hb
      rw [takeUntil_append_cons hbs'] at h
      cases h
      exact ⟨hbs', rfl⟩
    · exact absurd (fails_takeUntil_iff.mpr ⟨hb, rfl⟩) (not_fails_of_ok h)
  · rintro ⟨hb, rfl⟩
    exact takeUntil_append_cons hb

end Bytes

theorem fails_strictText_iff {σ : Type} {bs : Bytes} {s : σ} {e : DecodeError} :
    Fails (strictText bs : Reader σ DecodeError String) s e ↔
      ∃ cause, Utf8.decode bs = .error cause ∧ e = .malformedText cause := by
  rw [strictText]
  cases Utf8.decode bs with
  | error cause => simp [fails_throw_iff]
  | ok text => simp [not_fails_pure]

end Reader

end Binlog
