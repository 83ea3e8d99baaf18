import Binlog.Proofs.Failing

/-!
# Readers and their grammars

A reader's grammar says for every value which runs of bytes stand for it (`Writes`), and at which
bytes reading fails with which error (`Defect`). A reader follows the grammar if it takes off the
front of its source exactly what the grammar allows there, and fails exactly at the defects
(`Follows`). The grammar may have several forms for a value, which is why it is a relation.

**Repetition.** Values one behind the other are `Rows`. A reader of rows fails at the first row that
is defective, behind rows that are not: for a given number of rows (`fails_count_iff`) and for as
many as there are (`fails_untilEnd_iff`).
-/

namespace Binlog

/-! ## Rows -/

namespace Rows

variable {α β : Type} {Writes : α → Bytes → Prop} {as bs : List α} {s t : Bytes}

theorem append (hs : Rows Writes as s) (ht : Rows Writes bs t) :
    Rows Writes (as ++ bs) (s ++ t) := by
  induction hs with
  | nil => exact ht
  | cons ha _ ih =>
    rw [List.cons_append, List.append_assoc]
    exact .cons ha ih

/-- Values that are images have the forms of what they are images of. -/
theorem map_iff {f : α → β} {ys : List β} :
    Rows (fun b form => ∃ a, f a = b ∧ Writes a form) ys s ↔
      ∃ xs, xs.map f = ys ∧ Rows Writes xs s := by
  refine ⟨fun h => ?_, ?_⟩
  · induction h with
    | nil => exact ⟨[], rfl, .nil⟩
    | cons hb _ ih =>
      obtain ⟨a, rfl, ha⟩ := hb
      obtain ⟨xs, rfl, hxs⟩ := ih
      exact ⟨a :: xs, rfl, .cons ha hxs⟩
  · rintro ⟨xs, rfl, h⟩
    induction h with
    | nil => exact .nil
    | cons ha _ ih => exact .cons ⟨_, rfl, ha⟩ ih

/-- What holds of every value that has a form holds of all values of rows. -/
theorem forall_mem {P : α → Prop} (hP : ∀ a front, Writes a front → P a)
    (h : Rows Writes as s) : ∀ a ∈ as, P a := by
  induction h with
  | nil => exact fun a ha => absurd ha List.not_mem_nil
  | cons ha _ ih =>
    rintro b hb
    obtain rfl | hb := List.mem_cons.mp hb
    · exact hP _ _ ha
    · exact ih b hb

/-- If the front of a run of bytes determines the value that starts there and its end, a run of
bytes is rows of one list of values only. -/
theorem unique (hfront : ∀ a b front front' rest rest', Writes a front → Writes b front' →
      front ++ rest = front' ++ rest' → a = b ∧ rest = rest')
    (hne : ∀ a front, Writes a front → front ≠ []) (has : Rows Writes as s)
    (hbs : Rows Writes bs s) : as = bs := by
  induction has generalizing bs with
  | nil =>
    cases bs with
    | nil => rfl
    | cons b bs =>
      obtain ⟨front, rest, hs, hb, -⟩ := cons_iff.mp hbs
      exact absurd (List.append_eq_nil_iff.mp hs.symm).1 (hne b front hb)
  | @cons a as front rest ha _ ih =>
    cases bs with
    | nil => exact absurd (List.append_eq_nil_iff.mp (nil_iff.mp hbs)).1 (hne a front ha)
    | cons b bs =>
      obtain ⟨front', rest', hs, hb, hbs⟩ := cons_iff.mp hbs
      obtain ⟨rfl, rfl⟩ := hfront a b front front' rest rest' ha hb hs
      rw [ih hbs]

/-- Behind rows, the bytes do not end but go on with no row. -/
def Defect {ε : Type} (Writes : α → Bytes → Prop) (Defect : Bytes → ε → Prop) (s : Bytes) (e : ε) :
    Prop :=
  ∃ xs front rest, s = front ++ rest ∧ rest ≠ [] ∧ Rows Writes xs front ∧ Defect rest e

theorem not_defect_nil {ε : Type} {Defect : Bytes → ε → Prop} {e : ε} :
    ¬ Rows.Defect Writes Defect [] e := by
  rintro ⟨xs, front, rest, hs, hrest, -⟩
  exact hrest (List.append_eq_nil_iff.mp hs.symm).2

end Rows

namespace Reader

variable {ε α : Type}

/-- The reader takes off the front exactly the forms of a value, and fails exactly at defects. -/
structure Follows (r : Reader Bytes ε α) (Writes : α → Bytes → Prop)
    (Defect : Bytes → ε → Prop) : Prop where
  ok_iff : ∀ s t a, r s = .ok a t ↔ ∃ front, s = front ++ t ∧ Writes a front
  fails_iff : ∀ s e, Fails r s e ↔ Defect s e

namespace Follows

variable {item : Reader Bytes ε α} {Writes : α → Bytes → Prop} {Defect : Bytes → ε → Prop}
  {s t : Bytes} {e : ε} {xs : List α}

/-- The front of a run of bytes determines the value that starts there and its end. -/
theorem unique (h : Follows item Writes Defect) {a b : α} {front front' rest rest' : Bytes}
    (ha : Writes a front) (hb : Writes b front') (heq : front ++ rest = front' ++ rest') :
    a = b ∧ rest = rest' := by
  have hreada := (h.ok_iff _ rest a).mpr ⟨front, rfl, ha⟩
  have hreadb := (h.ok_iff _ rest' b).mpr ⟨front', rfl, hb⟩
  rw [heq, hreadb] at hreada
  cases hreada
  exact ⟨rfl, rfl⟩

/-! ## A given number of rows -/

theorem count_eq_ok_iff (h : Follows item Writes Defect) {n : Nat} : count item n s = .ok xs t ↔
    xs.length = n ∧ ∃ front, s = front ++ t ∧ Rows Writes xs front :=
  count_eq_ok_iff_rows h.ok_iff

theorem fails_count_iff (h : Follows item Writes Defect) {n : Nat} : Fails (count item n) s e ↔
    ∃ xs front rest, xs.length < n ∧ s = front ++ rest ∧ Rows Writes xs front ∧
      Defect rest e := by
  induction n generalizing s with
  | zero => simp [count, not_fails_pure]
  | succ n ih =>
    simp only [count, fails_bind_iff, not_fails_pure, and_false, exists_false, or_false, h.ok_iff,
      h.fails_iff, ih]
    refine ⟨?_, ?_⟩
    · rintro (hdefect | ⟨x, _, ⟨front, rfl, hx⟩, xs, rows, rest, hlen, rfl, hrows, hdefect⟩)
      · exact ⟨[], [], s, Nat.succ_pos n, rfl, .nil, hdefect⟩
      · exact ⟨x :: xs, front ++ rows, rest, Nat.succ_lt_succ hlen, by rw [List.append_assoc],
          .cons hx hrows, hdefect⟩
    · rintro ⟨xs, front, rest, hlen, rfl, hrows, hdefect⟩
      cases hrows with
      | nil => exact .inl hdefect
      | @cons x xs front rows hx hrows =>
        exact .inr ⟨x, rows ++ rest, ⟨front, by rw [List.append_assoc], hx⟩, xs, rows, rest,
          Nat.lt_of_succ_lt_succ hlen, rfl, hrows, hdefect⟩

/-! ## All rows ahead

Each row has a byte, so the fuel suffices as long as it is no less than the bytes ahead. The
inductions are on the fuel with this bound, which the bytes behind the first row keep. -/

theorem untilEndWithin_nil (item : Reader Bytes ε α) (fuel : Nat) :
    untilEndWithin item fuel [] = .ok [] [] := by
  cases fuel <;> rfl

theorem untilEndWithin_succ {fuel : Nat} (hs : s ≠ []) : untilEndWithin item (fuel + 1) s =
    (item >>= fun x => untilEndWithin item fuel >>= fun xs => pure (x :: xs)) s := by
  have hmore : (hasMore : Reader Bytes ε Bool) s = .ok true s :=
    hasMore_eq_ok_iff.mpr ⟨by simp [hs], rfl⟩
  rw [untilEndWithin, bind_of_ok hmore]
  rfl

section Nonempty

variable (hne : ∀ a front, Writes a front → front ≠ [])

include hne

theorem rows_nil_iff : Rows Writes xs [] ↔ xs = [] := by
  refine ⟨fun h => ?_, fun h => h ▸ .nil⟩
  cases xs with
  | nil => rfl
  | cons x xs =>
    obtain ⟨front, rest, hs, hx, -⟩ := Rows.cons_iff.mp h
    exact absurd (List.append_eq_nil_iff.mp hs.symm).1 (hne x front hx)

theorem length_le_of_writes {a : α} {front rest : Bytes} {fuel : Nat} (ha : Writes a front)
    (hfuel : (front ++ rest).length ≤ fuel + 1) : rest.length ≤ fuel := by
  have hpos := List.length_pos_iff.mpr (hne a front ha)
  rw [List.length_append] at hfuel
  omega

theorem untilEndWithin_eq_ok_iff (h : Follows item Writes Defect) {fuel : Nat}
    (hfuel : s.length ≤ fuel) :
    untilEndWithin item fuel s = .ok xs t ↔ t = [] ∧ Rows Writes xs s := by
  induction fuel generalizing s t xs with
  | zero =>
    rw [List.eq_nil_of_length_eq_zero (Nat.le_zero.mp hfuel), untilEndWithin_nil, rows_nil_iff hne]
    simp [and_comm, eq_comm]
  | succ fuel ih =>
    by_cases hs : s = []
    · rw [hs, untilEndWithin_nil, rows_nil_iff hne]
      simp [and_comm, eq_comm]
    simp only [untilEndWithin_succ hs, bind_eq_ok_iff, pure_eq_ok_iff, h.ok_iff]
    refine ⟨?_, ?_⟩
    · rintro ⟨x, _, ⟨front, rfl, hx⟩, xs', _, hxs, rfl, rfl⟩
      obtain ⟨ht, hrows⟩ := (ih (length_le_of_writes hne hx hfuel)).mp hxs
      exact ⟨ht, .cons hx hrows⟩
    · rintro ⟨rfl, hrows⟩
      cases hrows with
      | nil => exact absurd rfl hs
      | @cons x xs front rows hx hrows =>
        exact ⟨x, rows, ⟨front, rfl, hx⟩, xs, [],
          (ih (length_le_of_writes hne hx hfuel)).mpr ⟨rfl, hrows⟩, rfl, rfl⟩

theorem fails_untilEndWithin_iff (h : Follows item Writes Defect) {fuel : Nat}
    (hfuel : s.length ≤ fuel) :
    Fails (untilEndWithin item fuel) s e ↔ Rows.Defect Writes Defect s e := by
  have hnil : ∀ fuel, Fails (untilEndWithin item fuel) [] e ↔ Rows.Defect Writes Defect [] e :=
    fun fuel => iff_of_false (not_fails_of_ok (untilEndWithin_nil item fuel)) Rows.not_defect_nil
  induction fuel generalizing s with
  | zero =>
    rw [List.eq_nil_of_length_eq_zero (Nat.le_zero.mp hfuel)]
    exact hnil 0
  | succ fuel ih =>
    by_cases hs : s = []
    · rw [hs]
      exact hnil _
    simp only [fails_congr (untilEndWithin_succ hs), fails_bind_iff, not_fails_pure, and_false,
      exists_false, or_false, h.ok_iff, h.fails_iff]
    refine ⟨?_, ?_⟩
    · rintro (hdefect | ⟨x, _, ⟨front, rfl, hx⟩, hfails⟩)
      · exact ⟨[], [], s, rfl, hs, .nil, hdefect⟩
      · obtain ⟨xs, rows, rest, rfl, hrest, hrows, hdefect⟩ :=
          (ih (length_le_of_writes hne hx hfuel)).mp hfails
        exact ⟨x :: xs, front ++ rows, rest, by rw [List.append_assoc], hrest, .cons hx hrows,
          hdefect⟩
    · rintro ⟨xs, front, rest, rfl, hrest, hrows, hdefect⟩
      cases hrows with
      | nil => exact .inl hdefect
      | @cons x xs front rows hx hrows =>
        rw [List.append_assoc] at hfuel ⊢
        exact .inr ⟨x, rows ++ rest, ⟨front, rfl, hx⟩,
          (ih (length_le_of_writes hne hx hfuel)).mpr ⟨xs, rows, rest, rfl, hrest, hrows, hdefect⟩⟩

/-- All rows ahead are read exactly from rows, and nothing is left. -/
theorem untilEnd_eq_ok_iff (h : Follows item Writes Defect) :
    untilEnd item s = .ok xs t ↔ t = [] ∧ Rows Writes xs s :=
  untilEndWithin_eq_ok_iff hne h (Nat.le_refl _)

theorem fails_untilEnd_iff (h : Follows item Writes Defect) :
    Fails (untilEnd item) s e ↔ Rows.Defect Writes Defect s e :=
  fails_untilEndWithin_iff hne h (Nat.le_refl _)

end Nonempty

end Follows

end Reader

end Binlog
