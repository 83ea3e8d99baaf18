import Binlog.Proofs.StatusGrammar
import Mathlib.Data.List.Induction

/-!
# What status variables say

A block of status variables is a run of entries, and the settings that it makes are seen key by key
(`StatusVars.setting`): for each key it is what the last entry of the key gives
(`setting_ofEntries`). An entry gives its value, but nothing if it is a key alone or an empty text
that stands for an absent one (`StatusVar.given`).

**Steps.** Putting an entry into a record changes the setting of its key to what it gives, and no
other setting (`setting_put`). All else about runs of entries follows from this by induction.

**Blocks in a row.** What follows a block that was read is read as if it stood alone: it fails with
the same error, and what it sets overrides what the block sets.

Main statement: `StatusVars.read_settings`.
-/

namespace Binlog

open Reader

/-! ## Settings -/

/-- What an entry gives as the setting of its key. -/
def StatusVar.given : StatusVar → Option StatusVar
  | .timeZone none | .catalogNz none | .bare => none
  | var => some var

namespace StatusVars

/-- The setting of a key, as the entry that gives it. -/
def setting (vars : StatusVars) : StatusKey → Option StatusVar
  | .flags2 => vars.flags2.map .flags2
  | .sqlMode => vars.sqlMode.map .sqlMode
  | .autoIncrement => vars.autoIncrement.map .autoIncrement
  | .charset => vars.charset.map .charset
  | .timeZone => vars.timeZone.map fun zone => .timeZone (some zone)
  | .catalogNz => vars.catalogNz.map fun name => .catalogNz (some name)
  | .lcTimeNames => vars.lcTimeNames.map .lcTimeNames
  | .charsetDatabase => vars.charsetDatabase.map .charsetDatabase
  | .tableMapForUpdate => vars.tableMapForUpdate.map .tableMapForUpdate
  | .invoker => vars.invoker.map .invoker
  | .updatedDbNames => vars.updatedDbNames.map .updatedDbNames
  | .microseconds => vars.microseconds.map .microseconds
  | .explicitDefaultsForTimestamp =>
    vars.explicitDefaultsForTimestamp.map .explicitDefaultsForTimestamp
  | .ddlLoggedWithXid => vars.ddlXid.map .ddlXid
  | .defaultCollationForUtf8mb4 => vars.defaultCollationForUtf8mb4.map .defaultCollationForUtf8mb4
  | .sqlRequirePrimaryKey => vars.sqlRequirePrimaryKey.map .sqlRequirePrimaryKey
  | .defaultTableEncryption => vars.defaultTableEncryption.map .defaultTableEncryption
  | .hrnow => vars.hrnow.map .hrnow
  | .xid => vars.xid.map .xid
  | .catalog | .masterDataWritten | .commitTs | .commitTs2 => none

theorem setting_empty (key : StatusKey) : setting {} key = none := by
  cases key <;> rfl

/-- The settings of the keys are all there is to settings. -/
theorem ext_setting {vars vars' : StatusVars} (h : ∀ key, vars.setting key = vars'.setting key) :
    vars = vars' := by
  have field {α : Type} {f : α → StatusVar} {o o' : Option α} (hmap : o.map f = o'.map f)
      (hf : ∀ a b, f a = f b → a = b) : o = o' := (Option.map_inj_right hf).mp hmap
  cases vars
  cases vars'
  congr
  · exact field (h .flags2) (by simp)
  · exact field (h .sqlMode) (by simp)
  · exact field (h .autoIncrement) (by simp)
  · exact field (h .charset) (by simp)
  · exact field (h .timeZone) (by simp)
  · exact field (h .catalogNz) (by simp)
  · exact field (h .lcTimeNames) (by simp)
  · exact field (h .charsetDatabase) (by simp)
  · exact field (h .tableMapForUpdate) (by simp)
  · exact field (h .invoker) (by simp)
  · exact field (h .updatedDbNames) (by simp)
  · exact field (h .microseconds) (by simp)
  · exact field (h .explicitDefaultsForTimestamp) (by simp)
  · exact field (h .ddlLoggedWithXid) (by simp)
  · exact field (h .defaultCollationForUtf8mb4) (by simp)
  · exact field (h .sqlRequirePrimaryKey) (by simp)
  · exact field (h .defaultTableEncryption) (by simp)
  · exact field (h .hrnow) (by simp)
  · exact field (h .xid) (by simp)

/-- An entry sets its key, and nothing else. -/
theorem setting_put (vars : StatusVars) (key : StatusKey) (vs : Part.Values key.form.parts)
    (key' : StatusKey) : (vars.put (key.form.meaning vs)).setting key' =
      if key' = key then (key.form.meaning vs).given else vars.setting key' := by
  by_cases h : key' = key
  · subst h
    rw [if_pos rfl]
    cases key' with
    | timeZone =>
      change (presentText vs.1).map _ = StatusVar.given (.timeZone (presentText vs.1))
      cases presentText vs.1 <;> rfl
    | catalogNz =>
      change (presentText vs.1).map _ = StatusVar.given (.catalogNz (presentText vs.1))
      cases presentText vs.1 <;> rfl
    | _ => rfl
  · rw [if_neg h]
    cases key <;> cases key' <;> first | rfl | exact absurd rfl h

end StatusVars

/-! ## Runs of entries -/

/-- The entries that a block consists of. -/
abbrev Entries (entries : List (StatusKey × StatusVar)) (block : Bytes) : Prop :=
  Rows StatusVar.WritesEntry entries block

/-- The value of the last entry with a key. -/
def lastOf (entries : List (StatusKey × StatusVar)) (key : StatusKey) : Option StatusVar :=
  ((entries.filter fun entry => entry.1 = key).getLast?).map Prod.snd

theorem lastOf_append (entries more : List (StatusKey × StatusVar)) (key : StatusKey) :
    lastOf (entries ++ more) key = (lastOf more key).or (lastOf entries key) := by
  unfold lastOf
  rw [List.filter_append, List.getLast?_append, Option.map_or]

theorem lastOf_eq_none_iff {entries : List (StatusKey × StatusVar)} {key : StatusKey} :
    lastOf entries key = none ↔ key ∉ entries.map Prod.fst := by
  simp only [lastOf, Option.map_eq_none_iff, List.getLast?_eq_none_iff, List.filter_eq_nil_iff,
    decide_eq_true_eq, List.mem_map, not_exists, not_and]

namespace StatusVars

variable {entries more : List (StatusKey × StatusVar)} {key : StatusKey}

theorem ofEntries_concat (vars : List StatusVar) (var : StatusVar) :
    ofEntries (vars ++ [var]) = (ofEntries vars).put var := by
  rw [ofEntries, List.foldl_append]
  rfl

/-- **The last entry wins.** The setting of a key is what its last entry gives. -/
theorem setting_ofEntries {block : Bytes} (h : Entries entries block) (key : StatusKey) :
    (ofEntries (entries.map Prod.snd)).setting key = (lastOf entries key).bind StatusVar.given := by
  have hvalues : ∀ entry ∈ entries, ∃ vs, entry.1.form.meaning vs = entry.2 := by
    refine h.forall_mem fun entry front hentry => ?_
    obtain ⟨_, _, -, -, vs, -, hvar⟩ := hentry
    exact ⟨vs, hvar⟩
  clear h
  -- the last entry is put last, so the induction takes entries off the end
  induction entries using List.reverseRecOn with
  | nil => exact setting_empty key
  | append_singleton entries entry ih =>
    obtain ⟨vs, hvs⟩ := hvalues entry (by simp)
    rw [List.map_append, List.map_singleton, ofEntries_concat, ← hvs, setting_put, lastOf_append,
      ih fun entry hentry => hvalues entry (List.mem_append_left _ hentry)]
    by_cases hkey : key = entry.1
    · simp [hkey, lastOf, hvs]
    · simp [hkey, lastOf, Ne.symm hkey]

/-- Entries override those in front of them, also where they give nothing. -/
theorem setting_append {block block' : Bytes} (h : Entries entries block)
    (h' : Entries more block') (key : StatusKey) :
    (ofEntries ((entries ++ more).map Prod.snd)).setting key =
      if key ∈ more.map Prod.fst then (ofEntries (more.map Prod.snd)).setting key
      else (ofEntries (entries.map Prod.snd)).setting key := by
  rw [setting_ofEntries (h.append h'), setting_ofEntries h, setting_ofEntries h', lastOf_append]
  split
  next hkey =>
    cases hvar : lastOf more key with
    | none => exact absurd hkey (lastOf_eq_none_iff.mp hvar)
    | some var => rw [Option.some_or]
  next hkey => rw [lastOf_eq_none_iff.mpr hkey, Option.none_or]

/-! ## Blocks -/

theorem read_eq_ok_iff {block t : Bytes} {vars : StatusVars} :
    (read : Reader Bytes DecodeError StatusVars) block = .ok vars t ↔
      t = [] ∧ ∃ entries, Entries entries block ∧ ofEntries (entries.map Prod.snd) = vars := by
  simp only [read, bind_eq_ok_iff, pure_eq_ok_iff, StatusVar.rows_writesVar_iff,
    StatusVar.follows_read.untilEnd_eq_ok_iff StatusVar.writesVar_ne_nil]
  refine ⟨?_, ?_⟩
  · rintro ⟨_, _, ⟨rfl, entries, rfl, hentries⟩, rfl, rfl⟩
    exact ⟨rfl, entries, hentries, rfl⟩
  · rintro ⟨rfl, entries, hentries, rfl⟩
    exact ⟨_, [], ⟨rfl, entries, rfl, hentries⟩, rfl, rfl⟩

theorem fails_read_iff {block : Bytes} {e : DecodeError} :
    Fails (read : Reader Bytes DecodeError StatusVars) block e ↔ ∃ entries front rest,
      block = front ++ rest ∧ Entries entries front ∧ StatusVar.EntryDefect rest e := by
  simp only [read, fails_bind_iff, not_fails_pure, and_false, exists_false, or_false,
    StatusVar.follows_read.fails_untilEnd_iff StatusVar.writesVar_ne_nil, Rows.Defect,
    StatusVar.rows_writesVar_iff]
  refine ⟨?_, ?_⟩
  · rintro ⟨_, front, rest, rfl, hrest, ⟨entries, rfl, hentries⟩, ⟨hnil, -⟩ | hdefect⟩
    · exact absurd hnil hrest
    · exact ⟨entries, front, rest, rfl, hentries, hdefect⟩
  · rintro ⟨entries, front, rest, rfl, hentries, hdefect⟩
    have hrest : rest ≠ [] := by
      obtain ⟨code, rest, rfl, -⟩ := hdefect
      exact List.cons_ne_nil code rest
    exact ⟨_, front, rest, rfl, hrest, ⟨entries, rfl, hentries⟩, .inr hdefect⟩

/-- A block is the entries of one list only. -/
theorem entries_unique {block : Bytes} (h : Entries entries block) (h' : Entries more block) :
    entries = more :=
  h.unique StatusVar.writesEntry_unique (fun _ _ => StatusVar.writesEntry_ne_nil) h'

/-- Behind a block that can be read, bytes fail as they do alone. -/
theorem fails_read_append_iff {block block' t : Bytes} {vars : StatusVars} {e : DecodeError}
    (h : (read : Reader Bytes DecodeError StatusVars) block = .ok vars t) :
    Fails (read : Reader Bytes DecodeError StatusVars) (block ++ block') e ↔
      Fails (read : Reader Bytes DecodeError StatusVars) block' e := by
  obtain ⟨-, entries, hentries, -⟩ := read_eq_ok_iff.mp h
  have hbehind {e : DecodeError} (hfails : Fails read block' e) :
      Fails read (block ++ block') e := by
    obtain ⟨more, front, rest, rfl, hmore, hdefect⟩ := fails_read_iff.mp hfails
    exact fails_read_iff.mpr ⟨entries ++ more, block ++ front, rest, by rw [List.append_assoc],
      hentries.append hmore, hdefect⟩
  refine ⟨fun hfails => ?_, hbehind⟩
  obtain ⟨vars', t', hread⟩ | ⟨e', hfails'⟩ := ok_or_fails read block'
  · obtain ⟨-, more, hmore, -⟩ := read_eq_ok_iff.mp hread
    have hboth := read_eq_ok_iff.mpr ⟨rfl, entries ++ more, hentries.append hmore, rfl⟩
    exact absurd hfails (not_fails_of_ok hboth)
  · rwa [fails_unique hfails (hbehind hfails')]

/-- **Status variables.** A block is read if it is a run of entries, each a key followed by the
value that the key asks for; then all of it is read, and the setting of each key is what its last
entry gives. Any other block fails with the error of its first defect: a byte that is no key where
an entry starts, or a value that is cut or malformed. Every block is a run of one list of entries
only. Blocks compose: behind one that can be read, another fails as it does alone, or its entries
override those of the first. -/
theorem read_settings :
    (∀ (block : Bytes) (vars : StatusVars) (t : Bytes),
      (read : Reader Bytes DecodeError StatusVars) block = .ok vars t ↔
        t = [] ∧ ∃ entries, Entries entries block ∧
          ∀ key, vars.setting key = (lastOf entries key).bind StatusVar.given) ∧
      (∀ (block : Bytes) (e : DecodeError),
        Fails (read : Reader Bytes DecodeError StatusVars) block e ↔ ∃ entries front rest,
          block = front ++ rest ∧ Entries entries front ∧ StatusVar.EntryDefect rest e) ∧
      (∀ (block : Bytes) (entries entries' : List (StatusKey × StatusVar)),
        Entries entries block → Entries entries' block → entries = entries') ∧
      ∀ (block block' : Bytes) (vars : StatusVars) (t : Bytes),
        (read : Reader Bytes DecodeError StatusVars) block = .ok vars t →
          (∀ e, Fails (read : Reader Bytes DecodeError StatusVars) (block ++ block') e ↔
            Fails (read : Reader Bytes DecodeError StatusVars) block' e) ∧
          ∀ (vars' : StatusVars) (t' : Bytes),
            (read : Reader Bytes DecodeError StatusVars) block' = .ok vars' t' →
              ∃ both entries', Entries entries' block' ∧
                (read : Reader Bytes DecodeError StatusVars) (block ++ block') = .ok both [] ∧
                ∀ key, both.setting key =
                  if key ∈ entries'.map Prod.fst then vars'.setting key else vars.setting key := by
  refine ⟨fun block vars t => read_eq_ok_iff.trans (and_congr_right fun _ => ?_),
    fun block e => fails_read_iff, fun block entries entries' => entries_unique,
    fun block block' vars t hread => ⟨fun e => fails_read_append_iff hread,
      fun vars' t' hread' => ?_⟩⟩
  · refine exists_congr fun entries => and_congr_right fun hentries => ⟨?_, fun hvars => ?_⟩
    · rintro rfl
      exact setting_ofEntries hentries
    · exact ext_setting fun key => (setting_ofEntries hentries key).trans (hvars key).symm
  · obtain ⟨-, entries, hentries, rfl⟩ := read_eq_ok_iff.mp hread
    obtain ⟨-, entries', hentries', rfl⟩ := read_eq_ok_iff.mp hread'
    exact ⟨_, entries', hentries',
      read_eq_ok_iff.mpr ⟨rfl, entries ++ entries', hentries.append hentries', rfl⟩,
      setting_append hentries hentries'⟩

/-- A time zone that is set and then reset, and names in a form that lists none. -/
theorem read_settings_reset :
    let block : Bytes := [5, 3, 85, 84, 67, 12, 254]
    let block' : Bytes := [5, 0, 7, 1, 0]
    ∃ vars both, (read : Reader Bytes DecodeError StatusVars) block = .ok vars [] ∧
      vars.timeZone = some "UTC" ∧
      (read : Reader Bytes DecodeError StatusVars) (block ++ block') = .ok both [] ∧
      both.setting .timeZone = none ∧ both.setting .updatedDbNames = some (.updatedDbNames []) ∧
      Fails (read : Reader Bytes DecodeError StatusVars) (block ++ [66, 0])
        (.unknownStatusVariable 66) := by
  intro block block'
  let vars : StatusVars := { timeZone := some "UTC", updatedDbNames := some [] }
  let vars' : StatusVars := { lcTimeNames := some 1 }
  have hread : (read : Reader Bytes DecodeError StatusVars) block = .ok vars [] :=
    Bytes.read_eq_ok_iff.mp (by decide +kernel)
  have hread' : (read : Reader Bytes DecodeError StatusVars) block' = .ok vars' [] :=
    Bytes.read_eq_ok_iff.mp (by decide +kernel)
  have hentries : Entries [(.timeZone, .timeZone none), (.lcTimeNames, .lcTimeNames 1)] block' := by
    have hzone : StatusVar.WritesEntry (.timeZone, .timeZone none) [5, 0] :=
      ⟨5, [0], rfl, rfl, ("", ()), ⟨[0], [], rfl, ⟨0, rfl, rfl⟩, rfl⟩, rfl⟩
    have hnames : StatusVar.WritesEntry (.lcTimeNames, .lcTimeNames 1) [7, 1, 0] :=
      ⟨7, [1, 0], rfl, rfl, (1, ()), ⟨[1, 0], [], rfl, ⟨by decide, rfl⟩, rfl⟩, rfl⟩
    exact .cons hzone (.cons hnames .nil)
  obtain ⟨-, -, hunique, hblocks⟩ := read_settings
  obtain ⟨-, hboth⟩ := hblocks block block' vars [] hread
  obtain ⟨both, entries', hentries', hread'', hsettings⟩ := hboth vars' [] hread'
  obtain rfl := hunique _ _ _ hentries hentries'
  refine ⟨vars, both, hread, rfl, hread'', hsettings _, hsettings _, ?_⟩
  exact ((hblocks block [66, 0] vars [] hread).1 _).mpr
    (Bytes.read_eq_error_iff.mp (by decide +kernel))

end StatusVars

end Binlog
