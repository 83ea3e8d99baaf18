import Binlog.Event.StatusVars
import Binlog.Proofs.Grammar

/-!
# The grammar of status variables

A key fixes the form of its value (`StatusKey.form`): a row of parts, which are numbers of a certain
width, texts behind their length, and lists of names, and the entry that the parts make. Reading the
value of a key is reading its parts (`StatusVar.readValue_eq`), so it is enough to say for each part
which bytes it takes and where it fails, and for a row of parts that the first defective one is
told.

**Keys.** The bytes that are keys are listed (`StatusKey.codes`), and the grammar has no others. The
key that is read from a byte is the one in the list (`StatusKey.ofCode?_eq_lookup`).

**Names.** A list of names has two written forms if it is empty: a count of zero, and the count that
stands for more databases than are listed. Any other list has one.

Main statement: `StatusVar.follows_read`.
-/

namespace Binlog

open Reader

/-! ## Parts -/

/-- A part of an entry's value. -/
inductive Part where
  | number (width : Nat)
  /-- A text behind its length of one byte. -/
  | text
  /-- Names that end in a NUL, behind their count of one byte. -/
  | names

namespace Part

/-- What a part holds. -/
abbrev Value : Part → Type
  | number _ => Nat
  | text => String
  | names => List String

/-- Reads a part. -/
def read {σ : Type} [ByteSource σ] : (part : Part) → Reader σ DecodeError part.Value
  | number width => Reader.number (.little width)
  | text => do Reader.strictText (← Reader.takePrefixed 1)
  | names => do
    let n ← Reader.u8
    if n = StatusVar.overMaxDbNames then return [] else Reader.count StatusVar.readName n.toNat

/-! ### Texts -/

/-- The form of a text. -/
def WritesText (s : String) (bs : Bytes) : Prop :=
  ∃ n : UInt8, (Utf8.encode s).length = n.toNat ∧ bs = n :: Utf8.encode s

/-- The bytes start with no text: they end within it, or all of it is there and is not UTF-8. -/
def TextDefect (s : Bytes) (e : DecodeError) : Prop :=
  s = [] ∧ e = cut 1 ∨ ∃ (n : UInt8) (rest : Bytes), s = n :: rest ∧
    (rest.length < n.toNat ∧ e = cut (n.toNat - rest.length) ∨
      ∃ bs tail cause, rest = bs ++ tail ∧ bs.length = n.toNat ∧ Utf8.decode bs = .error cause ∧
        e = .malformedText cause)

theorem follows_read_text : Follows text.read WritesText TextDefect where
  ok_iff s t a := by
    simp only [read, takePrefixed_one_eq, bind_assoc, bind_eq_ok_iff, u8_eq_ok_iff, take_eq_ok_iff,
      strictText_eq_ok_iff, WritesText]
    refine ⟨?_, ?_⟩
    · rintro ⟨n, _, rfl, _, _, ⟨hlen, rfl⟩, rfl, rfl⟩
      exact ⟨_, rfl, n, hlen, rfl⟩
    · rintro ⟨_, rfl, n, hlen, rfl⟩
      exact ⟨n, _, rfl, _, _, ⟨hlen, rfl⟩, rfl, rfl⟩
  fails_iff s e := by
    simp only [read, takePrefixed_one_eq, bind_assoc, fails_bind_iff, fails_u8_iff, u8_eq_ok_iff,
      fails_take_iff, take_eq_ok_iff, fails_strictText_iff, TextDefect]
    refine or_congr Iff.rfl ⟨?_, ?_⟩
    · rintro ⟨n, rest, rfl, hcut | ⟨bs, tail, ⟨hlen, rfl⟩, cause, hdecode, rfl⟩⟩
      · exact ⟨n, rest, rfl, .inl hcut⟩
      · exact ⟨n, _, rfl, .inr ⟨bs, tail, cause, rfl, hlen, hdecode, rfl⟩⟩
    · rintro ⟨n, rest, rfl, hcut | ⟨bs, tail, cause, rfl, hlen, hdecode, rfl⟩⟩
      · exact ⟨n, rest, rfl, .inl hcut⟩
      · exact ⟨n, _, rfl, .inr ⟨bs, tail, ⟨hlen, rfl⟩, cause, hdecode, rfl⟩⟩

/-! ### Names -/

/-- The form of a name among others. -/
def WritesName (name : String) (bs : Bytes) : Prop :=
  0 ∉ Utf8.encode name ∧ bs = Utf8.encode name ++ [0]

/-- The bytes start with no name: they have no NUL, or are not UTF-8 up to it. -/
def NameDefect (s : Bytes) (e : DecodeError) : Prop :=
  0 ∉ s ∧ e = .read (.incomplete .unknown) ∨ ∃ bs rest cause, s = bs ++ 0 :: rest ∧ 0 ∉ bs ∧
    Utf8.decode bs = .error cause ∧ e = .malformedText cause

/-- The form of a list of names. -/
def WritesNames (ss : List String) (bs : Bytes) : Prop :=
  ∃ (n : UInt8) (rows : Bytes), bs = n :: rows ∧
    if n = 254 then ss = [] ∧ rows = []
    else ss.length = n.toNat ∧ Rows WritesName ss rows

/-- The bytes start with no list of names: there is no count, or fewer names than it says in front
of a defective one. -/
def NamesDefect (s : Bytes) (e : DecodeError) : Prop :=
  s = [] ∧ e = cut 1 ∨ ∃ (n : UInt8) (rest : Bytes), s = n :: rest ∧
    n ≠ 254 ∧ ∃ ss front tail, ss.length < n.toNat ∧ rest = front ++ tail ∧
      Rows WritesName ss front ∧ NameDefect tail e

theorem follows_readName : Follows StatusVar.readName WritesName NameDefect where
  ok_iff s t name := by
    simp only [StatusVar.readName, bind_eq_ok_iff, takeUntil_eq_ok_iff, strictText_eq_ok_iff,
      WritesName]
    refine ⟨?_, ?_⟩
    · rintro ⟨_, _, ⟨hnul, rfl⟩, rfl, rfl⟩
      exact ⟨_, by simp, hnul, rfl⟩
    · rintro ⟨_, rfl, hnul, rfl⟩
      exact ⟨_, t, ⟨hnul, by simp⟩, rfl, rfl⟩
  fails_iff s e := by
    simp only [StatusVar.readName, fails_bind_iff, fails_takeUntil_iff, takeUntil_eq_ok_iff,
      fails_strictText_iff, NameDefect]
    refine or_congr Iff.rfl ⟨?_, ?_⟩
    · rintro ⟨bs, rest, ⟨hnul, rfl⟩, cause, hdecode, rfl⟩
      exact ⟨bs, rest, cause, rfl, hnul, hdecode, rfl⟩
    · rintro ⟨bs, rest, cause, rfl, hnul, hdecode, rfl⟩
      exact ⟨bs, rest, ⟨hnul, rfl⟩, cause, hdecode, rfl⟩

theorem follows_read_names : Follows names.read WritesNames NamesDefect where
  ok_iff s t a := by
    simp only [read, bind_eq_ok_iff, u8_eq_ok_iff, ite_eq_ok_iff, pure_eq_ok_iff,
      follows_readName.count_eq_ok_iff, WritesNames]
    simp only [StatusVar.overMaxDbNames]
    refine ⟨?_, ?_⟩
    · rintro ⟨n, rest, rfl, ⟨hn, rfl, rfl⟩ | ⟨hn, hlen, rows, rfl, hrows⟩⟩
      · exact ⟨[n], rfl, n, [], rfl, by rw [if_pos hn]; exact ⟨rfl, rfl⟩⟩
      · exact ⟨n :: rows, rfl, n, rows, rfl, by rw [if_neg hn]; exact ⟨hlen, hrows⟩⟩
    · rintro ⟨_, rfl, n, rows, rfl, h⟩
      refine ⟨n, rows ++ t, rfl, ?_⟩
      split at h
      next hn =>
        obtain ⟨rfl, rfl⟩ := h
        exact .inl ⟨hn, rfl, rfl⟩
      next hn => exact .inr ⟨hn, h.1, rows, rfl, h.2⟩
  fails_iff s e := by
    simp only [read, fails_bind_iff, fails_u8_iff, u8_eq_ok_iff, fails_ite_iff, not_fails_pure,
      and_false, false_or, follows_readName.fails_count_iff, NamesDefect]
    simp only [StatusVar.overMaxDbNames, ne_eq]

/-! ### All parts -/

/-- The bytes are a form of what the part holds. -/
def Writes : (part : Part) → part.Value → Bytes → Prop
  | number width => fun n bs => n < 256 ^ width ∧ bs = Bytes.ofNatLE width n
  | text => WritesText
  | names => WritesNames

/-- The bytes start with no form of the part. -/
def Defect : Part → Bytes → DecodeError → Prop
  | number width => fun s e => s.length < width ∧ e = cut (width - s.length)
  | text => TextDefect
  | names => NamesDefect

theorem follows_read (part : Part) : Follows part.read part.Writes part.Defect := by
  cases part with
  | number width =>
    refine ⟨fun s t n => number_eq_ok_iff.trans ⟨?_, ?_⟩, fun s e => fails_number_iff⟩
    · rintro ⟨hn, rfl⟩
      exact ⟨_, rfl, hn, rfl⟩
    · rintro ⟨_, rfl, hn, rfl⟩
      exact ⟨hn, rfl⟩
  | text => exact follows_read_text
  | names => exact follows_read_names

/-! ### Rows of parts -/

/-- What parts hold, one behind the other. -/
abbrev Values : List Part → Type
  | [] => Unit
  | part :: parts => part.Value × Values parts

/-- Reads parts, one behind the other. -/
def readAll {σ : Type} [ByteSource σ] : (parts : List Part) → Reader σ DecodeError (Values parts)
  | [] => return ()
  | part :: parts => do
    let v ← part.read
    let vs ← readAll parts
    return (v, vs)

/-- The bytes are forms of what the parts hold, one behind the other. -/
def WritesAll : (parts : List Part) → Values parts → Bytes → Prop
  | [] => fun _ bs => bs = []
  | part :: parts => fun vs bs =>
    ∃ front rest, bs = front ++ rest ∧ part.Writes vs.1 front ∧ WritesAll parts vs.2 rest

/-- Some part has no form behind the forms of the parts in front of it. -/
def DefectAll : List Part → Bytes → DecodeError → Prop
  | [], _, _ => False
  | part :: parts, s, e => part.Defect s e ∨
    ∃ v front rest, s = front ++ rest ∧ part.Writes v front ∧ DefectAll parts rest e

theorem follows_readAll (parts : List Part) :
    Follows (readAll parts) (WritesAll parts) (DefectAll parts) := by
  induction parts with
  | nil =>
    refine ⟨fun s t vs => pure_eq_ok_iff.trans ⟨?_, ?_⟩,
      fun s e => iff_of_false not_fails_pure id⟩
    · rintro ⟨-, rfl⟩
      exact ⟨[], rfl, rfl⟩
    · rintro ⟨_, rfl, rfl⟩
      exact ⟨rfl, rfl⟩
  | cons part parts ih =>
    refine ⟨fun s t vs => ?_, fun s e => ?_⟩
    · simp only [readAll, bind_eq_ok_iff, pure_eq_ok_iff, (follows_read part).ok_iff, ih.ok_iff,
        WritesAll]
      refine ⟨?_, ?_⟩
      · rintro ⟨v, _, ⟨front, rfl, hv⟩, vs, _, ⟨rest, rfl, hvs⟩, rfl, rfl⟩
        exact ⟨front ++ rest, by rw [List.append_assoc], front, rest, rfl, hv, hvs⟩
      · rintro ⟨_, rfl, front, rest, rfl, hv, hvs⟩
        exact ⟨vs.1, rest ++ t, ⟨front, by rw [List.append_assoc], hv⟩, vs.2, t,
          ⟨rest, rfl, hvs⟩, rfl, rfl⟩
    · simp only [readAll, fails_bind_iff, not_fails_pure, and_false, exists_false, or_false,
        (follows_read part).ok_iff, (follows_read part).fails_iff, ih.fails_iff, DefectAll]
      refine or_congr Iff.rfl ⟨?_, ?_⟩
      · rintro ⟨v, rest, ⟨front, rfl, hv⟩, hdefect⟩
        exact ⟨v, front, rest, rfl, hv, hdefect⟩
      · rintro ⟨v, front, rest, rfl, hv, hdefect⟩
        exact ⟨v, rest, ⟨front, rfl, hv⟩, hdefect⟩

end Part

/-! ## Entries -/

/-- The bytes that are keys, and the keys that they stand for. -/
def StatusKey.codes : List (UInt8 × StatusKey) :=
  [(0x00, flags2), (0x01, sqlMode), (0x02, catalog), (0x03, autoIncrement), (0x04, charset),
    (0x05, timeZone), (0x06, catalogNz), (0x07, lcTimeNames), (0x08, charsetDatabase),
    (0x09, tableMapForUpdate), (0x0a, masterDataWritten), (0x0b, invoker), (0x0c, updatedDbNames),
    (0x0d, microseconds), (0x0e, commitTs), (0x0f, commitTs2),
    (0x10, explicitDefaultsForTimestamp), (0x11, ddlLoggedWithXid),
    (0x12, defaultCollationForUtf8mb4), (0x13, sqlRequirePrimaryKey),
    (0x14, defaultTableEncryption), (0x80, hrnow), (0x81, xid)]

theorem StatusKey.ofCode?_eq_lookup (code : UInt8) : ofCode? code = codes.lookup code := by
  revert code
  apply Bytes.forall_byte
  decide +kernel

/-- The form of an entry's value: its parts, and the entry that they make. -/
structure ValueForm where
  parts : List Part
  meaning : Part.Values parts → StatusVar

/-- A text, or none for the empty one. -/
def presentText (s : String) : Option String := if s = "" then none else some s

/-- The form of a key's value. -/
def StatusKey.form : StatusKey → ValueForm
  | flags2 => ⟨[.number 4], fun (n, ()) => .flags2 (.ofNat n)⟩
  | sqlMode => ⟨[.number 8], fun (n, ()) => .sqlMode (.ofNat n)⟩
  | catalog => ⟨[], fun () => .bare⟩
  | autoIncrement =>
    ⟨[.number 2, .number 2], fun (step, first, ()) => .autoIncrement ⟨.ofNat step, .ofNat first⟩⟩
  | charset => ⟨[.number 2, .number 2, .number 2], fun (client, connection, server, ()) =>
      .charset ⟨.ofNat client, .ofNat connection, .ofNat server⟩⟩
  | timeZone => ⟨[.text], fun (zone, ()) => .timeZone (presentText zone)⟩
  | catalogNz => ⟨[.text], fun (name, ()) => .catalogNz (presentText name)⟩
  | lcTimeNames => ⟨[.number 2], fun (n, ()) => .lcTimeNames (.ofNat n)⟩
  | charsetDatabase => ⟨[.number 2], fun (n, ()) => .charsetDatabase (.ofNat n)⟩
  | tableMapForUpdate => ⟨[.number 8], fun (n, ()) => .tableMapForUpdate (.ofNat n)⟩
  | masterDataWritten => ⟨[], fun () => .bare⟩
  | invoker => ⟨[.text, .text], fun (user, host, ()) =>
      .invoker ⟨presentText user, presentText host⟩⟩
  | updatedDbNames => ⟨[.names], fun (names, ()) => .updatedDbNames names⟩
  | microseconds => ⟨[.number 3], fun (n, ()) => .microseconds (.ofNat n)⟩
  | commitTs => ⟨[], fun () => .bare⟩
  | commitTs2 => ⟨[], fun () => .bare⟩
  | explicitDefaultsForTimestamp =>
    ⟨[.number 1], fun (n, ()) => .explicitDefaultsForTimestamp (UInt8.ofNat n != 0)⟩
  | ddlLoggedWithXid => ⟨[.number 8], fun (n, ()) => .ddlXid (.ofNat n)⟩
  | defaultCollationForUtf8mb4 =>
    ⟨[.number 2], fun (n, ()) => .defaultCollationForUtf8mb4 (.ofNat n)⟩
  | sqlRequirePrimaryKey => ⟨[.number 1], fun (n, ()) => .sqlRequirePrimaryKey (.ofNat n)⟩
  | defaultTableEncryption => ⟨[.number 1], fun (n, ()) => .defaultTableEncryption (.ofNat n)⟩
  | hrnow => ⟨[.number 3], fun (n, ()) => .hrnow (.ofNat n)⟩
  | xid => ⟨[.number 8], fun (n, ()) => .xid (.ofNat n)⟩

theorem Utf8.encode_eq_nil_iff {s : String} : encode s = [] ↔ s = "" := by
  have hempty : decode [] = .ok "" := rfl
  rw [eq_comm, ← decode_eq_ok_iff, hempty, Except.ok.injEq, eq_comm]

/-- An optional text is a text of which the empty one stands for none. -/
theorem Reader.optionalText_eq : (optionalText : Reader Bytes DecodeError (Option String)) =
    presentText <$> Part.text.read := by
  rw [optionalText, Part.read, map_bind]
  refine congrArg _ (funext fun bs => ?_)
  by_cases hbs : bs = []
  · rw [hbs]
    rfl
  · rw [if_neg (by simpa using hbs)]
    cases hdecode : Utf8.decode bs with
    | error cause =>
      simp only [strictText, hdecode]
      rfl
    | ok s =>
      have hs : s ≠ "" := fun hs =>
        hbs ((Utf8.decode_eq_ok_iff.mp hdecode).trans (Utf8.encode_eq_nil_iff.mpr hs))
      simp [strictText, hdecode, presentText, hs]

namespace StatusVar

/-- Reading the value of a key is reading its parts. -/
theorem readValue_eq (key : StatusKey) : (readValue key : Reader Bytes DecodeError StatusVar) =
    key.form.meaning <$> Part.readAll key.form.parts := by
  cases key
  case updatedDbNames =>
    simp only [readValue, StatusKey.form, Part.readAll, Part.read, map_eq_pure_bind, bind_assoc,
      pure_bind]
    refine congrArg _ (funext fun n => ?_)
    split
    · rw [pure_bind]
    · rfl
  all_goals
    simp only [readValue, StatusKey.form, Part.readAll, Part.read, optionalText_eq, u8, u16, u24,
      u32, u64, map_eq_pure_bind, bind_assoc, pure_bind]

/-- The bytes are a form of the key's value. -/
def WritesValue (key : StatusKey) (var : StatusVar) (bs : Bytes) : Prop :=
  ∃ vs, Part.WritesAll key.form.parts vs bs ∧ key.form.meaning vs = var

/-- The bytes are a form of the entry: a byte for its key, then the key's value. -/
def WritesEntry (entry : StatusKey × StatusVar) (bs : Bytes) : Prop :=
  ∃ code value, bs = code :: value ∧ StatusKey.codes.lookup code = some entry.1 ∧
    WritesValue entry.1 entry.2 value

/-- The bytes start with a byte that is no key, or with a key and no value for it. -/
def EntryDefect (s : Bytes) (e : DecodeError) : Prop :=
  ∃ code rest, s = code :: rest ∧
    match StatusKey.codes.lookup code with
    | none => e = .unknownStatusVariable code
    | some key => Part.DefectAll key.form.parts rest e

theorem writesEntry_ne_nil {entry : StatusKey × StatusVar} {bs : Bytes}
    (h : WritesEntry entry bs) : bs ≠ [] := by
  obtain ⟨code, value, rfl, -⟩ := h
  exact List.cons_ne_nil code value

/-- The bytes are a form of an entry with the value. -/
def WritesVar (var : StatusVar) (bs : Bytes) : Prop :=
  ∃ entry : StatusKey × StatusVar, entry.2 = var ∧ WritesEntry entry bs

theorem writesVar_ne_nil (var : StatusVar) (bs : Bytes) (h : WritesVar var bs) : bs ≠ [] := by
  obtain ⟨entry, -, h⟩ := h
  exact writesEntry_ne_nil h

theorem rows_writesVar_iff {vars : List StatusVar} {bs : Bytes} : Rows WritesVar vars bs ↔
    ∃ entries : List (StatusKey × StatusVar), entries.map Prod.snd = vars ∧
      Rows WritesEntry entries bs := Rows.map_iff

/-- Where an entry starts, no other does, and it has one end. -/
theorem writesEntry_unique (entry entry' : StatusKey × StatusVar) (front front' rest rest' : Bytes)
    (h : WritesEntry entry front) (h' : WritesEntry entry' front')
    (heq : front ++ rest = front' ++ rest') : entry = entry' ∧ rest = rest' := by
  obtain ⟨key, var⟩ := entry
  obtain ⟨key', var'⟩ := entry'
  obtain ⟨code, value, rfl, hkey, vs, hvs, hvar⟩ := h
  obtain ⟨code', value', rfl, hkey', vs', hvs', hvar'⟩ := h'
  obtain ⟨rfl, hvalue⟩ := List.cons.inj heq
  obtain rfl : key = key' := Option.some.inj (hkey.symm.trans hkey')
  obtain ⟨rfl, hrest⟩ := (Part.follows_readAll _).unique hvs hvs' hvalue
  exact ⟨Prod.ext rfl (hvar.symm.trans hvar'), hrest⟩

/-- An entry is read exactly from its forms. -/
theorem follows_read :
    Follows read WritesVar fun s e => s = [] ∧ e = cut 1 ∨ EntryDefect s e where
  ok_iff s t var := by
    simp only [read, bind_eq_ok_iff, u8_eq_ok_iff, StatusKey.ofCode?_eq_lookup, WritesVar,
      WritesEntry]
    refine ⟨?_, ?_⟩
    · rintro ⟨code, rest, rfl, h⟩
      cases hkey : StatusKey.codes.lookup code with
      | none =>
        rw [hkey] at h
        exact absurd h throw_ne_ok
      | some key =>
        simp only [hkey, readValue_eq, map_eq_ok_iff, (Part.follows_readAll _).ok_iff] at h
        obtain ⟨vs, ⟨value, rfl, hvs⟩, rfl⟩ := h
        exact ⟨code :: value, rfl, (key, _), rfl, code, value, rfl, hkey, vs, hvs, rfl⟩
    · rintro ⟨_, rfl, ⟨key, var⟩, rfl, code, value, rfl, hkey, vs, hvs, hvar⟩
      refine ⟨code, value ++ t, rfl, ?_⟩
      simp only [hkey, readValue_eq, map_eq_ok_iff, (Part.follows_readAll _).ok_iff]
      exact ⟨vs, ⟨value, rfl, hvs⟩, hvar⟩
  fails_iff s e := by
    simp only [read, fails_bind_iff, fails_u8_iff, u8_eq_ok_iff, StatusKey.ofCode?_eq_lookup,
      EntryDefect]
    refine or_congr Iff.rfl (exists_congr fun code => exists_congr fun rest =>
      and_congr_right fun _ => ?_)
    cases StatusKey.codes.lookup code with
    | none => exact fails_throw_iff
    | some key =>
      dsimp only
      rw [readValue_eq, fails_map_iff]
      exact (Part.follows_readAll _).fails_iff rest e

end StatusVar

end Binlog
