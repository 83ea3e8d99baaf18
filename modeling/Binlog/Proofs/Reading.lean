import Binlog.Error

/-!
# What a successful read says

A reader over a run of bytes succeeds exactly when the run starts with the written form of the value
it gives. For each reader this is one equivalence, `r s = .ok a t ↔ s = w a ++ t`, where `w a` is
the written form, `t` what is left, and conditions on `a` stand beside it where the form is too
narrow for some values. Read from left to right it inverts the reader, from right to left it runs
it.

**Composition.** A success of `x >>= f` is a success of `x` followed by one of `f`
(`bind_eq_ok_iff`), so the equivalence of a decoder is assembled from those of its steps.

**Rows.** Values one behind the other are rows of their forms, of which a value may have several
(`Rows`). Most have one, and then rows are the forms put together (`Rows.eq_iff`).

Main statements: `take_eq_ok_iff`, `number_eq_ok_iff` and `count_eq_ok_iff`.
-/

namespace Binlog

/-- Reading the front of a run of bytes is running the reader on it. -/
theorem Bytes.read_eq_ok_iff {ε α : Type} {bs t : Bytes} {r : Reader Bytes ε α} {a : α} :
    bs.read r = .ok (a, t) ↔ r bs = .ok a t := by
  unfold Bytes.read
  cases r bs with
  | ok b u => simp
  | error e u => simp

theorem Bytes.read_eq_error_iff {ε α : Type} {bs : Bytes} {r : Reader Bytes ε α} {e : ε} :
    bs.read r = .error e ↔ ∃ t, r bs = .error e t := by
  unfold Bytes.read
  cases r bs with
  | ok b u => simp
  | error e u => simp

/-- What holds of the numbers below 256 as bytes holds of every byte. -/
theorem Bytes.forall_byte {P : UInt8 → Prop} (h : ∀ n < 256, P (.ofNat n)) : ∀ b : UInt8, P b := by
  intro b
  have hb := h b.toNat b.toNat_lt
  rwa [UInt8.ofNat_toNat] at hb

/-- Eight bytes are the written form of a word. -/
theorem Bytes.exists_word {s : Bytes} (h : 8 ≤ s.length) :
    ∃ (n : UInt64) (rest : Bytes), s = ofNatLE 8 n.toNat ++ rest := by
  have hlen : (s.take 8).length = 8 := List.length_take_of_le h
  have hlt : toNatLE (s.take 8) < 2 ^ 64 := by
    have hbound := toNatLE_lt (s.take 8)
    rwa [hlen] at hbound
  refine ⟨.ofNat (toNatLE (s.take 8)), s.drop 8, ?_⟩
  have hword := ofNatLE_toNatLE (s.take 8)
  rw [hlen] at hword
  rw [UInt64.toNat_ofNat_of_lt' hlt, hword, List.take_append_drop]

/-! ## Rows -/

/-- The bytes are forms of the values, one behind the other. -/
inductive Rows {α : Type} (Writes : α → Bytes → Prop) : List α → Bytes → Prop
  | nil : Rows Writes [] []
  | cons {a : α} {as : List α} {front rest : Bytes} :
    Writes a front → Rows Writes as rest → Rows Writes (a :: as) (front ++ rest)

namespace Rows

variable {α : Type} {Writes : α → Bytes → Prop} {as : List α} {s : Bytes}

theorem cons_iff {a : α} : Rows Writes (a :: as) s ↔
    ∃ front rest, s = front ++ rest ∧ Writes a front ∧ Rows Writes as rest := by
  refine ⟨fun h => ?_, ?_⟩
  · cases h with
    | cons ha has => exact ⟨_, _, rfl, ha, has⟩
  · rintro ⟨front, rest, rfl, ha, has⟩
    exact .cons ha has

theorem nil_iff : Rows Writes [] s ↔ s = [] := by
  refine ⟨fun h => ?_, fun h => h ▸ .nil⟩
  cases h
  rfl

/-- Rows of values with one form each, if they have one. -/
theorem eq_and_iff {write : α → Bytes} {P : α → Prop} :
    Rows (fun a form => form = write a ∧ P a) as s ↔ s = as.flatMap write ∧ ∀ a ∈ as, P a := by
  induction as generalizing s with
  | nil => simp [nil_iff]
  | cons a as ih =>
    simp only [cons_iff, ih, List.flatMap_cons, List.forall_mem_cons]
    refine ⟨?_, ?_⟩
    · rintro ⟨_, _, rfl, ⟨rfl, ha⟩, rfl, has⟩
      exact ⟨rfl, ha, has⟩
    · rintro ⟨rfl, ha, has⟩
      exact ⟨_, _, rfl, ⟨rfl, ha⟩, rfl, has⟩

/-- Rows of values with one form each. -/
theorem eq_iff {write : α → Bytes} :
    Rows (fun a form => form = write a) as s ↔ s = as.flatMap write := by
  have h : Rows (fun a form => form = write a ∧ True) as s ↔ _ := eq_and_iff
  simpa using h

end Rows

namespace Reader

/-! ## Composition -/

section Composition

variable {σ ε α β : Type} {s t : σ}

theorem pure_eq_ok_iff {a b : α} : (pure a : Reader σ ε α) s = .ok b t ↔ a = b ∧ s = t := by
  change EStateM.Result.ok a s = .ok b t ↔ _
  simp

theorem throw_ne_ok {e : ε} {a : α} : (throw e : Reader σ ε α) s ≠ .ok a t := by
  change EStateM.Result.error e s ≠ .ok a t
  simp

theorem bind_eq_ok_iff {x : Reader σ ε α} {f : α → Reader σ ε β} {b : β} :
    (x >>= f) s = .ok b t ↔ ∃ a u, x s = .ok a u ∧ f a u = .ok b t := by
  change EStateM.bind x f s = .ok b t ↔ _
  unfold EStateM.bind
  cases x s with
  | ok a u =>
    constructor
    · exact fun h => ⟨a, u, rfl, h⟩
    · rintro ⟨_, _, hx, h⟩
      cases hx
      exact h
  | error e u => simp

theorem bind_of_ok {x : Reader σ ε α} {f : α → Reader σ ε β} {a : α} (h : x s = .ok a t) :
    (x >>= f) s = f a t := by
  change EStateM.bind x f s = f a t
  unfold EStateM.bind
  rw [h]

theorem map_eq_ok_iff {x : Reader σ ε α} {f : α → β} {b : β} :
    (f <$> x) s = .ok b t ↔ ∃ a, x s = .ok a t ∧ f a = b := by
  change EStateM.map f x s = .ok b t ↔ _
  unfold EStateM.map
  cases x s with
  | ok a u =>
    refine ⟨fun h => ?_, fun h => ?_⟩
    · cases h
      exact ⟨a, rfl, rfl⟩
    · rcases h with ⟨_, hx, rfl⟩
      cases hx
      rfl
  | error e u => simp

theorem map_injective_eq_ok_iff {x : Reader σ ε α} {f : α → β} (hf : ∀ a a', f a = f a' → a = a')
    {a : α} : (f <$> x) s = .ok (f a) t ↔ x s = .ok a t := by
  rw [map_eq_ok_iff]
  refine ⟨fun h => ?_, fun h => ⟨a, h, rfl⟩⟩
  obtain ⟨a', hx, ha⟩ := h
  rwa [hf a' a ha] at hx

theorem ite_eq_ok_iff {c : Prop} [Decidable c] {x y : Reader σ ε α} {a : α} :
    (if c then x else y) s = .ok a t ↔ c ∧ x s = .ok a t ∨ ¬ c ∧ y s = .ok a t := by
  by_cases h : c <;> simp [h]

/-- How a reader goes on is the same behind both branches. -/
theorem ite_bind {c : Prop} [Decidable c] (x y : Reader σ ε α) (f : α → Reader σ ε β) :
    (if c then x else y) >>= f = if c then x >>= f else y >>= f := by
  by_cases h : c
  · rw [if_pos h, if_pos h]
  · rw [if_neg h, if_neg h]

end Composition

/-! ## Runs of bytes -/

variable {ε α : Type} {s t : Bytes}

theorem unread_eq_ok_iff {bs : Bytes} :
    (unread : Reader Bytes ε Bytes) s = .ok bs t ↔ bs = s ∧ t = s := by
  change EStateM.Result.ok s s = .ok bs t ↔ _
  simp [eq_comm]

theorem left_eq_ok_iff {n : Nat} :
    (left : Reader Bytes ε Nat) s = .ok n t ↔ n = s.length ∧ t = s := by
  change EStateM.Result.ok s.length s = .ok n t ↔ _
  simp [eq_comm]

theorem left_bind {β : Type} (f : Nat → Reader Bytes ε β) (s : Bytes) :
    (left >>= f) s = f s.length s := rfl

theorem hasMore_eq_ok_iff {b : Bool} :
    (hasMore : Reader Bytes ε Bool) s = .ok b t ↔ b = !s.isEmpty ∧ t = s := by
  change EStateM.Result.ok (!s.isEmpty) s = .ok b t ↔ _
  rw [EStateM.Result.ok.injEq, @eq_comm _ b, @eq_comm _ t]

variable [OfReadError ε]

theorem take_eq_ok_iff {n : Nat} {bs : Bytes} :
    (take n : Reader Bytes ε Bytes) s = .ok bs t ↔ bs.length = n ∧ s = bs ++ t := by
  have htake : ByteSource.take? n s =
      if n ≤ s.length then some (s.take n, s.drop n) else none := rfl
  unfold take
  rw [htake]
  refine ⟨fun h => ?_, fun h => ?_⟩
  · split at h
    next bs' t' heq =>
      split at heq
      next hn =>
        cases heq
        cases h
        exact ⟨List.length_take_of_le hn, (List.take_append_drop n s).symm⟩
      next => cases heq
    next => cases h
  · rcases h with ⟨rfl, rfl⟩
    simp

/-- Taking bytes says how many are missing, if they do not suffice. -/
theorem read_take (n : Nat) (bs : Bytes) : bs.read (take n : Reader Bytes ε Bytes) =
    if n ≤ bs.length then .ok (bs.take n, bs.drop n)
    else .error (OfReadError.ofReadError (.incomplete (.size (n - bs.length)))) := by
  have htake : ByteSource.take? n bs =
      if n ≤ bs.length then some (bs.take n, bs.drop n) else none := rfl
  unfold Bytes.read take
  rw [htake]
  by_cases hn : n ≤ bs.length
  · rw [if_pos hn, if_pos hn]
  · rw [if_neg hn, if_neg hn]
    rfl

theorem rest_eq_ok_iff {bs : Bytes} :
    (rest : Reader Bytes ε Bytes) s = .ok bs t ↔ bs = s ∧ t = [] := by
  simp only [rest, bind_eq_ok_iff, left_eq_ok_iff, take_eq_ok_iff]
  refine ⟨fun h => ?_, fun h => ?_⟩
  · rcases h with ⟨_, _, ⟨rfl, rfl⟩, hlen, hs⟩
    have ht : t = [] := by
      have := congrArg List.length hs
      rw [List.length_append] at this
      exact List.eq_nil_of_length_eq_zero (by omega)
    subst ht
    exact ⟨by simpa using hs.symm, rfl⟩
  · rcases h with ⟨rfl, rfl⟩
    exact ⟨_, _, ⟨rfl, rfl⟩, rfl, by simp⟩

/-! ## Numbers -/

theorem number_eq_ok_iff {f : NumberFormat} {n : Nat} :
    (number f : Reader Bytes ε Nat) s = .ok n t ↔ n < f.bound ∧ s = f.encode n ++ t := by
  simp only [number, bind_eq_ok_iff, take_eq_ok_iff, pure_eq_ok_iff]
  refine ⟨fun h => ?_, fun h => ?_⟩
  · rcases h with ⟨bs, _, ⟨hlen, rfl⟩, rfl, rfl⟩
    exact ⟨f.decode_lt bs hlen, by rw [f.encode_decode bs hlen]⟩
  · rcases h with ⟨hn, rfl⟩
    exact ⟨f.encode n, t, ⟨f.length_encode n, rfl⟩, f.decode_encode n hn, rfl⟩

/-- A number read into a word. The word may have more bits than were read, so its bound is a
condition of its own. -/
theorem word_eq_ok_iff {ω : Type} {ofNat : Nat → ω} {toNat : ω → Nat} {width : Nat} {w : ω}
    (hof : ∀ w, ofNat (toNat w) = w) (hto : ∀ n < 256 ^ width, toNat (ofNat n) = n) :
    (do return ofNat (← number (.little width)) : Reader Bytes ε ω) s = .ok w t ↔
      toNat w < 256 ^ width ∧ s = Bytes.ofNatLE width (toNat w) ++ t := by
  simp only [bind_eq_ok_iff, number_eq_ok_iff, pure_eq_ok_iff]
  refine ⟨fun h => ?_, fun h => ?_⟩
  · rcases h with ⟨n, _, ⟨hn, rfl⟩, rfl, rfl⟩
    rw [hto n hn]
    exact ⟨hn, rfl⟩
  · rcases h with ⟨hw, rfl⟩
    exact ⟨toNat w, t, ⟨hw, rfl⟩, hof w, rfl⟩

theorem u8_eq_ok_iff {b : UInt8} : (u8 : Reader Bytes ε UInt8) s = .ok b t ↔ s = b :: t := by
  rw [u8, word_eq_ok_iff (fun _ => UInt8.ofNat_toNat) fun _ hn => UInt8.toNat_ofNat_of_lt' hn]
  simp [Bytes.ofNatLE, b.toNat_lt]

theorem u16_eq_ok_iff {n : UInt16} :
    (u16 : Reader Bytes ε UInt16) s = .ok n t ↔ s = Bytes.ofNatLE 2 n.toNat ++ t := by
  rw [u16, word_eq_ok_iff (fun _ => UInt16.ofNat_toNat) fun _ hn => UInt16.toNat_ofNat_of_lt' hn]
  simp [n.toNat_lt]

theorem u32_eq_ok_iff {n : UInt32} :
    (u32 : Reader Bytes ε UInt32) s = .ok n t ↔ s = Bytes.ofNatLE 4 n.toNat ++ t := by
  rw [u32, word_eq_ok_iff (fun _ => UInt32.ofNat_toNat) fun _ hn => UInt32.toNat_ofNat_of_lt' hn]
  simp [n.toNat_lt]

theorem u64_eq_ok_iff {n : UInt64} :
    (u64 : Reader Bytes ε UInt64) s = .ok n t ↔ s = Bytes.ofNatLE 8 n.toNat ++ t := by
  rw [u64, word_eq_ok_iff (fun _ => UInt64.ofNat_toNat) fun _ hn => UInt64.toNat_ofNat_of_lt' hn]
  simp [n.toNat_lt]

/-- A number in two's complement is read as its word is. -/
theorem i64_eq_ok_iff {n : Int64} : (i64 : Reader Bytes ε Int64) s = .ok n t ↔
    s = Bytes.ofNatLE 8 n.toUInt64.toNat ++ t := by
  simp only [i64, bind_eq_ok_iff, u64_eq_ok_iff, pure_eq_ok_iff]
  refine ⟨?_, ?_⟩
  · rintro ⟨w, _, rfl, rfl, rfl⟩
    rw [UInt64.toUInt64_toInt64]
  · rintro rfl
    exact ⟨n.toUInt64, t, rfl, n.toInt64_toUInt64, rfl⟩

theorem takePrefixed_eq_ok_iff {width : Nat} {bs : Bytes} (hw : width ∈ prefixWidths) :
    (takePrefixed width : Reader Bytes ε Bytes) s = .ok bs t ↔
      bs.length < 256 ^ width ∧ s = Bytes.ofNatLE width bs.length ++ bs ++ t := by
  simp only [takePrefixed, if_pos hw, bind_eq_ok_iff, number_eq_ok_iff, take_eq_ok_iff]
  refine ⟨fun h => ?_, fun h => ?_⟩
  · rcases h with ⟨_, _, ⟨hn, rfl⟩, rfl, rfl⟩
    exact ⟨hn, by simp [NumberFormat.encode, NumberFormat.little]⟩
  · rcases h with ⟨hn, rfl⟩
    exact ⟨bs.length, bs ++ t, ⟨hn, by simp [NumberFormat.encode, NumberFormat.little]⟩, rfl, rfl⟩

/-! ## Repetition -/

section Count

variable {item : Reader Bytes ε α} {n : Nat} {xs : List α}

omit [OfReadError ε]

/-- If an item is read exactly from its forms, `n` items are read exactly from rows of `n`. -/
theorem count_eq_ok_iff_rows {Writes : α → Bytes → Prop}
    (hitem : ∀ s t a, item s = .ok a t ↔ ∃ front, s = front ++ t ∧ Writes a front) :
    count item n s = .ok xs t ↔ xs.length = n ∧ ∃ front, s = front ++ t ∧ Rows Writes xs front := by
  induction n generalizing s t xs with
  | zero =>
    simp only [count, pure_eq_ok_iff, List.length_eq_zero_iff]
    refine ⟨?_, ?_⟩
    · rintro ⟨rfl, rfl⟩
      exact ⟨rfl, [], rfl, .nil⟩
    · rintro ⟨rfl, front, rfl, hrows⟩
      rw [Rows.nil_iff.mp hrows]
      exact ⟨rfl, rfl⟩
  | succ n ih =>
    simp only [count, bind_eq_ok_iff, pure_eq_ok_iff, hitem, ih]
    refine ⟨?_, ?_⟩
    · rintro ⟨x, _, ⟨front, rfl, hx⟩, xs', _, ⟨hlen, rows, rfl, hrows⟩, rfl, rfl⟩
      exact ⟨by rw [List.length_cons, hlen], front ++ rows, by rw [List.append_assoc],
        .cons hx hrows⟩
    · rintro ⟨hlen, front, rfl, hrows⟩
      cases hrows with
      | nil => cases hlen
      | @cons x xs front rows hx hrows =>
        exact ⟨x, rows ++ t, ⟨front, by rw [List.append_assoc], hx⟩, xs, t,
          ⟨by simpa using hlen, rows, rfl, hrows⟩, rfl, rfl⟩

/-- If an item is read exactly from its written form, `n` items are read exactly from theirs, one
behind the other. -/
theorem count_eq_ok_iff {write : α → Bytes}
    (hitem : ∀ s a t, item s = .ok a t ↔ s = write a ++ t) :
    count item n s = .ok xs t ↔ xs.length = n ∧ s = xs.flatMap write ++ t := by
  have hrows : ∀ s t a, item s = .ok a t ↔ ∃ front, s = front ++ t ∧ front = write a := by
    simp [hitem]
  simp [count_eq_ok_iff_rows hrows, Rows.eq_iff]

end Count

end Reader

end Binlog
