import Binlog.Proofs.Agreement
import Binlog.Proofs.Layouts
import Binlog.Proofs.Stopping
import Mathlib.Data.List.Induction

/-!
# Sets of transactions, group by group

A set is written as groups, each a source id with intervals. A source id may come more than once,
and then all its intervals belong together.

**Merging** (`GtidSet.groups_ofGroups`). Whatever the groups are, the set has each source id once,
at the place where it first comes, and under it the intervals of all its groups in their order. The
proof adds the groups from the front to the back: a new id goes to the end, a known one keeps its
place.

**Announced groups** (`GtidSet.HoldsGroups`). The counts in front of the groups and of the intervals
come from outside, so they may announce more than is there. Reading stops where the bytes do, and
it fails for no other reason but a negative count.

Main statement: `GtidSet.read_groups`.
-/

namespace Binlog

open Reader

/-! ## Merging -/

namespace GtidSet

/-- The source ids in the order in which they first come. -/
def firstSeen (groups : List GtidGroup) : List SourceId := (groups.map Prod.fst).eraseDups

/-- All intervals under a source id, in order. -/
def intervalsOf (groups : List GtidGroup) (id : SourceId) : List GtidInterval :=
  (groups.filter fun g => g.1 = id).flatMap Prod.snd

theorem firstSeen_concat (groups : List GtidGroup) (group : GtidGroup) :
    firstSeen (groups ++ [group]) =
      if group.1 ∈ groups.map Prod.fst then firstSeen groups
      else firstSeen groups ++ [group.1] := by
  rw [firstSeen, List.map_append, List.eraseDups_append]
  by_cases h : group.1 ∈ groups.map Prod.fst
  · rw [if_pos h]
    simp [List.removeAll, h, firstSeen]
  · rw [if_neg h]
    simp [List.removeAll, h, firstSeen, List.eraseDups_cons]

/-- The intervals with those of a group behind the ones of its source id. -/
def extend (group : GtidGroup) (intervals : SourceId → List GtidInterval) (id : SourceId) :
    List GtidInterval :=
  if group.1 = id then intervals id ++ group.2 else intervals id

/-- Source ids other than the group's keep their intervals. -/
theorem map_extend_of_notMem {group : GtidGroup} {ids : List SourceId} (h : group.1 ∉ ids)
    (intervals : SourceId → List GtidInterval) :
    ids.map (fun id => (id, extend group intervals id)) = ids.map fun id => (id, intervals id) := by
  refine List.map_congr_left fun id hid => ?_
  rw [extend, if_neg]
  rintro rfl
  exact h hid

theorem intervalsOf_concat (groups : List GtidGroup) (group : GtidGroup) :
    intervalsOf (groups ++ [group]) = extend group (intervalsOf groups) := by
  funext id
  rw [intervalsOf, List.filter_append, List.flatMap_append, extend]
  by_cases h : group.1 = id
  · rw [if_pos h]
    simp [h, intervalsOf]
  · rw [if_neg h]
    simp [h, intervalsOf]

theorem intervalsOf_of_notMem {groups : List GtidGroup} {id : SourceId}
    (h : id ∉ groups.map Prod.fst) : intervalsOf groups id = [] := by
  have hnone : groups.filter (fun g => g.1 = id) = [] := by
    rw [List.filter_eq_nil_iff]
    intro g hg heq
    exact h (List.mem_map.mpr ⟨g, hg, of_decide_eq_true heq⟩)
  rw [intervalsOf, hnone, List.flatMap_nil]

/-- Adding to groups of which each has its intervals from a function. -/
theorem add_map (group : GtidGroup) {ids : List SourceId} (hids : ids.Nodup)
    (intervals : SourceId → List GtidInterval) :
    group.add (ids.map fun id => (id, intervals id)) =
      if group.1 ∈ ids then ids.map fun id => (id, extend group intervals id)
      else (ids.map fun id => (id, intervals id)) ++ [group] := by
  induction ids with
  | nil => simp [GtidGroup.add]
  | cons id ids ih =>
    obtain ⟨hid, hids⟩ := List.nodup_cons.mp hids
    rw [List.map_cons, GtidGroup.add]
    by_cases h : id = group.1
    · subst h
      rw [if_pos rfl, if_pos List.mem_cons_self, List.map_cons, map_extend_of_notMem hid, extend,
        if_pos rfl]
    · have h' : ¬ group.1 = id := fun heq => h heq.symm
      rw [if_neg h, ih hids]
      by_cases hmem : group.1 ∈ ids
      · simp [hmem, h', extend]
      · simp [hmem, h']

/-- **Merging.** The set of groups has each source id once, in the order in which they first come,
with all intervals that come under it. -/
theorem groups_ofGroups (groups : List GtidGroup) : (ofGroups groups).groups =
    (firstSeen groups).map fun id => (id, intervalsOf groups id) := by
  induction groups using List.reverseRecOn with
  | nil => rfl
  | append_singleton groups group ih =>
    have hids : (firstSeen groups).Nodup := by
      have hnodup := (ofGroups groups).nodup
      rwa [ih, List.map_map, Function.comp_def, List.map_id'] at hnodup
    have hmem : group.1 ∈ firstSeen groups ↔ group.1 ∈ groups.map Prod.fst := List.mem_eraseDups
    have hadd : (ofGroups (groups ++ [group])).groups = group.add (ofGroups groups).groups := by
      rw [ofGroups, List.foldl_append]
      rfl
    rw [hadd, ih, add_map group hids, firstSeen_concat, intervalsOf_concat]
    by_cases h : group.1 ∈ groups.map Prod.fst
    · rw [if_pos (hmem.mpr h), if_pos h]
    · rw [if_neg (mt hmem.mp h), if_neg h, List.map_append,
        map_extend_of_notMem (mt hmem.mp h), List.map_singleton, extend, if_pos rfl,
        intervalsOf_of_notMem h, List.nil_append]

/-! ## Announced groups -/

variable {s t : Bytes}

/-- The bytes start with `n` groups, and in each of them are as many intervals as it announces. -/
def HoldsGroups (n : Nat) (s : Bytes) : Prop :=
  ∃ (groups : List GtidGroup) (t : Bytes), groups.length = n ∧
    (∀ g ∈ groups, g.2.length < 2 ^ 64) ∧ s = groups.flatMap encodeGroup ++ t

theorem readGroup_eq_ok_iff {group : GtidGroup} :
    (readGroup : Reader Bytes DecodeError GtidGroup) s = .ok group t ↔
      ∃ front, s = front ++ t ∧ front = encodeGroup group ∧ group.2.length < 2 ^ 64 := by
  simp only [readGroup, bind_eq_ok_iff, SourceId.read_eq_ok_iff, u64_eq_ok_iff,
    count_eq_ok_iff fun _ _ _ => GtidInterval.read_eq_ok_iff, pure_eq_ok_iff]
  refine ⟨?_, ?_⟩
  · rintro ⟨source, _, rfl, n, _, rfl, intervals, _, ⟨hlen, rfl⟩, rfl, rfl⟩
    refine ⟨_, ?_, rfl, by rw [hlen]; exact n.toNat_lt⟩
    rw [encodeGroup, hlen, List.append_assoc, List.append_assoc]
  · rintro ⟨_, rfl, rfl, hlen⟩
    have hn : (UInt64.ofNat group.2.length).toNat = group.2.length :=
      UInt64.toNat_ofNat_of_lt' hlen
    refine ⟨group.1, _, ?_, .ofNat group.2.length, _, by rw [hn], group.2, t, ⟨hn.symm, rfl⟩, rfl,
      rfl⟩
    rw [encodeGroup, List.append_assoc, List.append_assoc]

theorem count_readGroup_eq_ok_iff {n : Nat} {groups : List GtidGroup} :
    (count readGroup n : Reader Bytes DecodeError (List GtidGroup)) s = .ok groups t ↔
      groups.length = n ∧ (∀ g ∈ groups, g.2.length < 2 ^ 64) ∧
        s = groups.flatMap encodeGroup ++ t := by
  rw [count_eq_ok_iff_rows fun _ _ _ => readGroup_eq_ok_iff]
  simp only [Rows.eq_and_iff]
  refine and_congr_right fun _ => ⟨?_, ?_⟩
  · rintro ⟨_, rfl, rfl, hfits⟩
    exact ⟨hfits, rfl⟩
  · rintro ⟨hfits, rfl⟩
    exact ⟨_, rfl, rfl, hfits⟩

/-- Groups that are not all there are an underrun, however many are announced. -/
theorem count_readGroup_of_not_holds {n : Nat} (h : ¬ HoldsGroups n s) :
    ∃ e t, (count readGroup n : Reader Bytes DecodeError (List GtidGroup)) s = .error e t ∧
      e.isUnderrun = true := by
  cases hread : (count readGroup n : Reader Bytes DecodeError (List GtidGroup)) s with
  | ok groups t => exact absurd ⟨groups, t, count_readGroup_eq_ok_iff.mp hread⟩ h
  | error e t =>
    have hrefl : Simulation (Eq : Bytes → Bytes → Prop)
        fun e : DecodeError => e.isUnderrun = true := .refl fun _ => rfl
    exact ⟨e, t, rfl, (Agrees.count (agrees_readGroup hrefl) n).admitted rfl hread⟩

/-! ## Sets from their bytes -/

/-- The bytes of a number of groups. -/
def encodeCount (n : Int64) : Bytes := Bytes.ofNatLE 8 n.toUInt64.toNat

theorem i64_encodeCount (n : Int64) (rest : Bytes) :
    (i64 : Reader Bytes DecodeError Int64) (encodeCount n ++ rest) = .ok n rest :=
  i64_eq_ok_iff.mpr rfl

theorem exists_encodeCount (h : 8 ≤ s.length) : ∃ n rest, s = encodeCount n ++ rest := by
  obtain ⟨n, rest, rfl⟩ := Bytes.exists_word h
  exact ⟨n.toInt64, rest, by rw [encodeCount, UInt64.toUInt64_toInt64]⟩

theorem read_negative {n : Int64} (h : n < 0) (rest : Bytes) :
    (read : Reader Bytes DecodeError GtidSet) (encodeCount n ++ rest) =
      .error (.negativeSourceCount n) rest := by
  rw [read, bind_of_ok (i64_encodeCount n rest), if_pos h]
  rfl

theorem read_nonneg {n : Int64} (h : 0 ≤ n) (rest : Bytes) :
    (read : Reader Bytes DecodeError GtidSet) (encodeCount n ++ rest) =
      (count readGroup n.toInt.toNat >>= fun groups => pure (ofGroups groups)) rest := by
  rw [read, bind_of_ok (i64_encodeCount n rest), if_neg (Int64.not_lt.mpr h)]

theorem read_encodeGroups {groups : List GtidGroup} (t : Bytes) (hcount : groups.length < 2 ^ 63)
    (hfits : ∀ g ∈ groups, g.2.length < 2 ^ 64) :
    (read : Reader Bytes DecodeError GtidSet) (encodeGroups groups ++ t) =
      .ok (ofGroups groups) t := by
  have hbytes : encodeGroups groups =
      encodeCount (.ofNat groups.length) ++ groups.flatMap encodeGroup := by
    have hlen : (UInt64.ofNat groups.length).toNat = groups.length :=
      UInt64.toNat_ofNat_of_lt' (Nat.lt_trans hcount (by decide))
    rw [encodeCount, Int64.toUInt64_ofNat', hlen, encodeGroups]
  have hint : (Int64.ofNat groups.length).toInt = groups.length :=
    Int64.toInt_ofNat_of_lt hcount
  have hnonneg : 0 ≤ Int64.ofNat groups.length := by
    rw [Int64.le_iff_toInt_le, hint]
    exact Int.natCast_nonneg _
  rw [hbytes, List.append_assoc, read_nonneg hnonneg, hint, Int.toNat_natCast, bind_eq_ok_iff]
  exact ⟨groups, t, count_readGroup_eq_ok_iff.mpr ⟨rfl, hfits, rfl⟩, rfl⟩

/-- The bytes end within the number of groups, or before all that is announced has come. -/
def EndsEarly (s : Bytes) : Prop :=
  s.length < 8 ∨
    ∃ n rest, 0 ≤ n ∧ s = encodeCount n ++ rest ∧ ¬ HoldsGroups n.toInt.toNat rest

theorem read_of_endsEarly (h : EndsEarly s) :
    ∃ e t, (read : Reader Bytes DecodeError GtidSet) s = .error e t ∧ e.isUnderrun = true := by
  obtain hshort | ⟨n, rest, hnonneg, rfl, hgroups⟩ := h
  · have hi64 : (i64 : Reader Bytes DecodeError Int64) s = .error (cut (8 - s.length)) s :=
      bind_pure_eq_error_iff.mpr (u64_eq_error_iff.mpr ⟨hshort, rfl, rfl⟩)
    exact ⟨_, s, bind_eq_error_iff.mpr (.inl hi64), rfl⟩
  · obtain ⟨e, t, hcount, he⟩ := count_readGroup_of_not_holds hgroups
    rw [read_nonneg hnonneg]
    exact ⟨e, t, bind_eq_error_iff.mpr (.inl hcount), he⟩

theorem read_of_not_endsEarly (h : ¬ EndsEarly s) :
    (∃ n t, n < 0 ∧ s = encodeCount n ++ t) ∨
      ∃ set t, (read : Reader Bytes DecodeError GtidSet) s = .ok set t := by
  obtain ⟨hlong, hgroups⟩ := not_or.mp h
  obtain ⟨n, rest, rfl⟩ := exists_encodeCount (Nat.not_lt.mp hlong)
  by_cases hneg : n < 0
  · exact .inl ⟨n, rest, hneg, rfl⟩
  · have hnonneg := Int64.not_lt.mp hneg
    have hholds : HoldsGroups n.toInt.toNat rest :=
      Classical.byContradiction fun hno => hgroups ⟨n, rest, hnonneg, rfl, hno⟩
    obtain ⟨groups, t, hall⟩ := hholds
    have hcount := count_readGroup_eq_ok_iff.mpr hall
    rw [read_nonneg hnonneg]
    exact .inr ⟨ofGroups groups, t, bind_eq_ok_iff.mpr ⟨groups, t, hcount, rfl⟩⟩

/-- A failure is one of two kinds. -/
theorem read_eq_error_cases {e : DecodeError}
    (h : (read : Reader Bytes DecodeError GtidSet) s = .error e t) :
    EndsEarly s ∧ e.isUnderrun = true ∨
      ∃ n, e = .negativeSourceCount n ∧ n < 0 ∧ s = encodeCount n ++ t := by
  by_cases hend : EndsEarly s
  · obtain ⟨e', t', hread, he⟩ := read_of_endsEarly hend
    rw [h] at hread
    cases hread
    exact .inl ⟨hend, he⟩
  · obtain ⟨n, t', hneg, rfl⟩ | ⟨set, t', hread⟩ := read_of_not_endsEarly hend
    · rw [read_negative hneg] at h
      cases h
      exact .inr ⟨n, rfl, hneg, rfl⟩
    · rw [h] at hread
      cases hread

/-! ## The main result -/

/-- **Sets from their groups.** Groups behind their number are read as the set that has each source
id once, in the order in which they first come, with all intervals that come under it. A negative
number of groups is an error behind its eight bytes, and bytes that end early are an underrun.
Nothing else fails. -/
theorem read_groups :
    (∀ (groups : List GtidGroup) (t : Bytes), groups.length < 2 ^ 63 →
      (∀ g ∈ groups, g.2.length < 2 ^ 64) →
        ∃ set, (read : Reader Bytes DecodeError GtidSet) (encodeGroups groups ++ t) = .ok set t ∧
          set.groups = (firstSeen groups).map fun id => (id, intervalsOf groups id)) ∧
      ∀ s : Bytes,
        (∀ n t, (read : Reader Bytes DecodeError GtidSet) s = .error (.negativeSourceCount n) t ↔
          n < 0 ∧ s = encodeCount n ++ t) ∧
        ((∃ e t, (read : Reader Bytes DecodeError GtidSet) s = .error e t ∧
          e.isUnderrun = true) ↔ EndsEarly s) ∧
        ∀ e t, (read : Reader Bytes DecodeError GtidSet) s = .error e t →
          e.isUnderrun = true ∨ ∃ n, e = .negativeSourceCount n := by
  refine ⟨fun groups t hcount hfits => ?_, fun s => ⟨fun n t => ⟨fun h => ?_, ?_⟩,
    ⟨?_, read_of_endsEarly⟩, fun e t h => ?_⟩⟩
  · exact ⟨ofGroups groups, read_encodeGroups t hcount hfits, groups_ofGroups groups⟩
  · obtain ⟨-, he⟩ | ⟨n', hn, hneg, hs⟩ := read_eq_error_cases h
    · cases he
    · cases hn
      exact ⟨hneg, hs⟩
  · rintro ⟨hneg, rfl⟩
    exact read_negative hneg t
  · rintro ⟨e, t, h, he⟩
    obtain ⟨hend, -⟩ | ⟨n, rfl, -, -⟩ := read_eq_error_cases h
    · exact hend
    · cases he
  · obtain ⟨-, he⟩ | ⟨n, hn, -, -⟩ := read_eq_error_cases h
    · exact .inl he
    · exact .inr ⟨n, hn⟩

/-- A source id that comes three times, around one that has no intervals. -/
theorem read_groups_repeated_source :
    let a : SourceId := ⟨1⟩
    let b : SourceId := ⟨2⟩
    let groups : List GtidGroup := [(b, [⟨1, 5⟩]), (a, []), (b, [⟨9, 11⟩, ⟨-3, 0⟩]), (b, [])]
    groups.length < 2 ^ 63 ∧ (∀ g ∈ groups, g.2.length < 2 ^ 64) ∧
      ∃ set, (read : Reader Bytes DecodeError GtidSet) (encodeGroups groups ++ [7]) =
          .ok set [7] ∧ set.groups = [(b, [⟨1, 5⟩, ⟨9, 11⟩, ⟨-3, 0⟩]), (a, [])] := by
  intro a b groups
  have hcount : groups.length < 2 ^ 63 := by decide
  have hfits : ∀ g ∈ groups, g.2.length < 2 ^ 64 := by decide
  obtain ⟨set, hread, hset⟩ := read_groups.1 groups [7] hcount hfits
  refine ⟨hcount, hfits, set, hread, hset.trans ?_⟩
  decide

end GtidSet

end Binlog
