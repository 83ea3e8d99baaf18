import Binlog.Proofs.Prefixes
import Binlog.Proofs.StatusSettings
import Binlog.Proofs.Stopping

/-!
# The slices of a statement

Behind its heads a statement is cut into slices: the block of its settings and its schema, whose
lengths the head tells, a byte, and the text. Each piece is read from its own slice, so nothing in
one of them moves another (`Statement.ofSlices`). A query and a statement that loads a file cut
their bodies in the same way, whatever else their heads say.

**Final reads** (`Reader.Final`). A reader that fails for another reason than missing bytes, or does
not fail, does the same if more bytes follow. So if it goes on over the end of its bytes once more
of them are there, they are missing without these (`Reader.Final.underrun`).

**The end of the block** (`StatusVars.EndsWithin`). An entry that goes on over the end of its block
would take bytes of the schema. The block is read as if nothing followed it, so bytes are missing.

Main statement: `Statement.read_slices`.
-/

namespace Binlog

open Reader

/-! ## Final reads -/

namespace Reader

variable {α β : Type}

/-- Unless bytes are missing, the reader does the same with more of them behind, and leaves these
too. -/
def Final (r : Reader Bytes DecodeError α) : Prop :=
  ∀ s more : Bytes, (∃ a t, r s = .ok a t ∧ r (s ++ more) = .ok a (t ++ more)) ∨
    ∃ e t, r s = .error e t ∧ (e.isUnderrun = true ∨ r (s ++ more) = .error e (t ++ more))

namespace Final

variable {x : Reader Bytes DecodeError α}

/-- If the reader goes on over the end of its bytes when more of them follow, they are missing when
none do. -/
theorem underrun (h : Final x) {s more : Bytes}
    (hover : (x.result (s ++ more)).2.length < more.length) :
    ∃ e, Fails x s e ∧ e.isUnderrun = true := by
  rcases h s more with ⟨a, t, -, hmore⟩ | ⟨e, t, hs, hunderrun | hmore⟩
  · rw [result, hmore, List.length_append] at hover
    omega
  · exact ⟨e, ⟨t, hs⟩, hunderrun⟩
  · rw [result, hmore, List.length_append] at hover
    omega

theorem pure (a : α) : Final (Pure.pure a) := fun s _ => .inl ⟨a, s, rfl, rfl⟩

theorem throw (e : DecodeError) : Final (MonadExcept.throw e : Reader Bytes DecodeError α) :=
  fun s _ => .inr ⟨e, s, rfl, .inr rfl⟩

theorem bind {f : α → Reader Bytes DecodeError β} (hx : Final x) (hf : ∀ a, Final (f a)) :
    Final (x >>= f) := by
  intro s more
  rcases hx s more with ⟨a, t, hs, hmore⟩ | ⟨e, t, hs, hmore⟩
  · rcases hf a t more with ⟨b, u, hfs, hfmore⟩ | ⟨e, u, hfs, hfmore⟩
    · exact .inl ⟨b, u, (bind_of_ok hs).trans hfs, (bind_of_ok hmore).trans hfmore⟩
    · refine .inr ⟨e, u, (bind_of_ok hs).trans hfs, hfmore.imp_right fun hfmore => ?_⟩
      exact (bind_of_ok hmore).trans hfmore
  · refine .inr ⟨e, t, bind_eq_error_iff.mpr (.inl hs), hmore.imp_right fun hmore => ?_⟩
    exact bind_eq_error_iff.mpr (.inl hmore)

theorem map (f : α → β) (hx : Final x) : Final (f <$> x) := by
  rw [map_eq_pure_bind]
  exact hx.bind fun a => .pure (f a)

theorem take (n : Nat) : Final (Reader.take n) := by
  intro s more
  by_cases hn : n ≤ s.length
  · have htake : s.take n ++ s.drop n = s := List.take_append_drop n s
    have hlen : (s.take n).length = n := List.length_take_of_le hn
    refine .inl ⟨s.take n, s.drop n, take_eq_ok_iff.mpr ⟨hlen, htake.symm⟩,
      take_eq_ok_iff.mpr ⟨hlen, ?_⟩⟩
    rw [← List.append_assoc, htake]
  · exact .inr ⟨_, s, take_eq_error_iff.mpr ⟨Nat.lt_of_not_le hn, rfl, rfl⟩, .inl rfl⟩

theorem takeUntil (b : UInt8) : Final (Reader.takeUntil b false) := by
  intro s more
  by_cases hb : b ∈ s
  · obtain ⟨front, rest, rfl, hfront⟩ := List.eq_append_cons_of_mem hb
    refine .inl ⟨front, rest, takeUntil_append_cons hfront, ?_⟩
    rw [List.append_assoc]
    exact takeUntil_append_cons hfront
  · exact .inr ⟨_, s, takeUntil_of_notMem hb, .inl rfl⟩

theorem number (f : NumberFormat) : Final (Reader.number f) :=
  (take f.width).bind fun bs => .pure (f.decode bs)

theorem u8 : Final Reader.u8 := (number _).bind fun _ => .pure _

theorem strictText (bs : Bytes) : Final (Reader.strictText bs) := by
  unfold Reader.strictText
  split
  · exact .pure _
  · exact .throw _

theorem count (hx : Final x) (n : Nat) : Final (Reader.count x n) := by
  induction n with
  | zero => exact .pure []
  | succ n ih => exact hx.bind fun a => ih.bind fun as => .pure (a :: as)

end Final

end Reader

/-! ### Entries -/

theorem Part.final_read (part : Part) :
    Final (part.read : Reader Bytes DecodeError part.Value) := by
  cases part with
  | number width => exact .number _
  | text =>
    rw [read, takePrefixed_one_eq]
    exact (Final.u8.bind fun n => .take _).bind fun bs => .strictText bs
  | names =>
    refine Final.u8.bind fun n => ?_
    split
    · exact .pure []
    · exact .count ((Final.takeUntil 0).bind fun bs => .strictText bs) _

theorem Part.final_readAll (parts : List Part) :
    Final (readAll parts : Reader Bytes DecodeError (Values parts)) := by
  induction parts with
  | nil => exact .pure ()
  | cons part parts ih => exact part.final_read.bind fun v => ih.bind fun vs => .pure (v, vs)

theorem StatusVar.final_read : Final (read : Reader Bytes DecodeError StatusVar) := by
  refine Final.u8.bind fun code => ?_
  cases StatusKey.ofCode? code with
  | none => exact .throw _
  | some key =>
    dsimp only
    rw [readValue_eq]
    exact .map _ (Part.final_readAll _)

namespace StatusVars

/-- Behind whole entries one begins in the block, but goes on over the block's end once more bytes
are there. -/
def EndsWithin (block : Bytes) : Prop :=
  ∃ (entries : List (StatusKey × StatusVar)) (front begun more : Bytes),
    block = front ++ begun ∧ Entries entries front ∧ begun ≠ [] ∧
      ((StatusVar.read : Reader Bytes DecodeError StatusVar).result (begun ++ more)).2.length <
        more.length

/-- Bytes are missing from a block that ends within an entry. -/
theorem underrun_of_endsWithin {block : Bytes} (h : EndsWithin block) :
    ∃ e, Fails (read : Reader Bytes DecodeError StatusVars) block e ∧ e.isUnderrun = true := by
  obtain ⟨entries, front, begun, more, rfl, hentries, hbegun, hover⟩ := h
  obtain ⟨e, hfails, hunderrun⟩ := StatusVar.final_read.underrun hover
  rcases (StatusVar.follows_read.fails_iff begun e).mp hfails with ⟨hnil, -⟩ | hdefect
  · exact absurd hnil hbegun
  · exact ⟨e, fails_read_iff.mpr ⟨entries, front, begun, rfl, hentries, hdefect⟩, hunderrun⟩

end StatusVars

/-! ## Heads -/

namespace QueryHead

/-- The bytes of a head. -/
def encode (h : QueryHead) : Bytes :=
  Bytes.ofNatLE 4 h.slaveProxyId.toNat ++ (Bytes.ofNatLE 4 h.execTime.toNat ++
    (h.schemaLength :: (Bytes.ofNatLE 2 h.errorCode.toNat ++
      Bytes.ofNatLE 2 h.statusVarsLength.toNat)))

theorem length_encode (h : QueryHead) : h.encode.length = 13 := by
  simp [encode]

theorem read_eq_ok_iff {ε : Type} [OfReadError ε] {s t : Bytes} {h : QueryHead} :
    (read : Reader Bytes ε QueryHead) s = .ok h t ↔ s = h.encode ++ t := by
  simp only [read, bind_eq_ok_iff, u32_eq_ok_iff, u16_eq_ok_iff, u8_eq_ok_iff, pure_eq_ok_iff]
  constructor
  · rintro ⟨slaveProxyId, _, rfl, execTime, _, rfl, schemaLength, _, rfl, errorCode, _, rfl,
      statusVarsLength, _, rfl, rfl, rfl⟩
    simp [encode]
  · rintro rfl
    exact ⟨h.slaveProxyId, _, by simp [encode], h.execTime, _, rfl, h.schemaLength, _, rfl,
      h.errorCode, _, rfl, h.statusVarsLength, _, rfl, rfl, rfl⟩

theorem takes_read : Takes 13 (read : Reader Bytes DecodeError QueryHead) :=
  Takes.u32.bind fun _ => Takes.u32.bind fun _ => Takes.u8.bind fun _ => Takes.u16.bind fun _ =>
    Takes.u16.bind fun _ => .pure _

end QueryHead

namespace LoadedFile

/-- The bytes that tell which file is loaded. -/
def encode (f : LoadedFile) : Bytes :=
  Bytes.ofNatLE 4 f.fileId.toNat ++ (Bytes.ofNatLE 4 f.startPosition.toNat ++
    (Bytes.ofNatLE 4 f.endPosition.toNat ++ [f.duplicateHandling]))

theorem length_encode (f : LoadedFile) : f.encode.length = 13 := by
  simp [encode]

theorem read_eq_ok_iff {ε : Type} [OfReadError ε] {s t : Bytes} {f : LoadedFile} :
    (read : Reader Bytes ε LoadedFile) s = .ok f t ↔ s = f.encode ++ t := by
  simp only [read, bind_eq_ok_iff, u32_eq_ok_iff, u8_eq_ok_iff, pure_eq_ok_iff]
  constructor
  · rintro ⟨fileId, _, rfl, startPosition, _, rfl, endPosition, _, rfl, duplicateHandling, _, rfl,
      rfl, rfl⟩
    simp [encode]
  · rintro rfl
    exact ⟨f.fileId, _, by simp [encode], f.startPosition, _, rfl, f.endPosition, _, rfl,
      f.duplicateHandling, _, rfl, rfl, rfl⟩

theorem takes_read : Takes 13 (read : Reader Bytes DecodeError LoadedFile) :=
  Takes.u32.bind fun _ => Takes.u32.bind fun _ => Takes.u32.bind fun _ => Takes.u8.bind fun _ =>
    .pure _

end LoadedFile

/-! ## Slices -/

namespace Bytes

variable {ε α β : Type} {bs : Bytes}

theorem read_bind (x : Reader Bytes ε α) (f : α → Reader Bytes ε β) :
    bs.read (x >>= f) = (bs.read x).bind fun p => p.2.read (f p.1) := by
  cases hx : x bs with
  | ok a t =>
    have hread : bs.read x = .ok (a, t) := read_eq_ok_iff.mpr hx
    rw [hread, Bytes.read, bind_of_ok hx]
    rfl
  | error e t =>
    have hread : bs.read x = .error e := read_eq_error_iff.mpr ⟨t, hx⟩
    rw [hread]
    exact read_eq_error_iff.mpr ⟨t, bind_eq_error_iff.mpr (.inl hx)⟩

theorem read_pure (a : α) : bs.read (pure a : Reader Bytes ε α) = .ok (a, bs) := rfl

theorem read_within (block : Bytes) (r : Reader Bytes ε α) :
    bs.read (within block r) = (block.read r).map fun p => (p.1, bs) := by
  unfold Bytes.read within
  cases r block <;> rfl

theorem read_strictText (text : Bytes) : bs.read (strictText text) =
    match Utf8.decode text with
    | .ok s => .ok (s, bs)
    | .error cause => .error (.malformedText cause) := by
  unfold Bytes.read strictText
  cases Utf8.decode text <;> rfl

theorem read_skip [OfReadError ε] (n : Nat) : bs.read (skip n : Reader Bytes ε Unit) =
    if n ≤ bs.length then .ok ((), bs.drop n) else .error (cut (n - bs.length)) := by
  rw [skip, read_bind, read_take]
  split <;> rfl

theorem read_rest [OfReadError ε] : bs.read (rest : Reader Bytes ε Bytes) = .ok (bs, []) :=
  read_eq_ok_iff.mpr (rest_eq_ok_iff.mpr ⟨rfl, rfl⟩)

end Bytes

namespace Statement

/-- What the slices behind the heads are read as. The first two have the lengths that the head
tells. The first that is defective, or not there, gives the error. -/
def ofSlices (head : QueryHead) (body : Bytes) : Except DecodeError Statement :=
  let blockEnd := head.statusVarsLength.toNat
  let schemaEnd := blockEnd + head.schemaLength.toNat
  if body.length < blockEnd then .error (cut (blockEnd - body.length))
  else
    match Bytes.read (body.take blockEnd) StatusVars.read with
    | .error e => .error e
    | .ok (statusVars, _) =>
      if body.length < schemaEnd then .error (cut (schemaEnd - body.length))
      else
        match Utf8.decode ((body.drop blockEnd).take head.schemaLength.toNat) with
        | .error cause => .error (.malformedText cause)
        | .ok schema =>
          if body.length = schemaEnd then .error (cut 1)
          else .ok { statusVars, schema, text := Utf8.decodeLossy (body.drop (schemaEnd + 1)) }

/-- A statement is what its slices are read as, and nothing is left. -/
theorem read_eq_ofSlices (head : QueryHead) (body : Bytes) :
    body.read (read head) = (ofSlices head body).map fun statement => (statement, []) := by
  obtain ⟨-, -, schemaLength, -, statusVarsLength⟩ := head
  simp only [read, ofSlices, Bytes.read_bind, read_take, Bytes.read_within, Bytes.read_strictText,
    Bytes.read_skip, Bytes.read_rest, Bytes.read_pure]
  generalize statusVarsLength.toNat = blockEnd
  generalize schemaLength.toNat = width
  have hbehind : (body.drop blockEnd).length = body.length - blockEnd := List.length_drop
  by_cases hblock : body.length < blockEnd
  · rw [if_pos hblock, if_neg (Nat.not_le_of_lt hblock)]
    rfl
  rw [if_neg hblock, if_pos (Nat.le_of_not_lt hblock)]
  cases hvars : Bytes.read (body.take blockEnd) StatusVars.read with
  | error e => simp only [Except.bind, hvars, Except.map]
  | ok p =>
    simp only [Except.bind, hvars, Except.map]
    by_cases hschema : body.length < blockEnd + width
    · have hmissing : width - (body.drop blockEnd).length = blockEnd + width - body.length := by
        omega
      rw [if_pos hschema, if_neg (by omega), hmissing]
      rfl
    rw [if_neg hschema, if_pos (by omega)]
    dsimp only
    cases Utf8.decode ((body.drop blockEnd).take width) with
    | error cause => rfl
    | ok schema =>
      dsimp only
      rw [List.length_drop]
      by_cases hend : body.length = blockEnd + width
      · have hmissing : 1 - ((body.drop blockEnd).length - width) = 1 := by omega
        rw [if_pos hend, if_neg (by omega), hmissing]
      · rw [if_neg hend, if_pos (by omega), List.drop_drop, List.drop_drop, ← Nat.add_assoc]

/-- If the block ends within an entry, bytes are missing, whatever follows the block. -/
theorem ofSlices_underrun {head : QueryHead} {body : Bytes}
    (hbody : head.statusVarsLength.toNat ≤ body.length)
    (hblock : StatusVars.EndsWithin (body.take head.statusVarsLength.toNat)) :
    ∃ e, ofSlices head body = .error e ∧ e.isUnderrun = true := by
  obtain ⟨e, hfails, hunderrun⟩ := StatusVars.underrun_of_endsWithin hblock
  refine ⟨e, ?_, hunderrun⟩
  rw [ofSlices, if_neg (Nat.not_lt_of_le hbody), Bytes.read_eq_error_iff.mpr hfails]

end Statement

theorem Query.read_encode_append (head : QueryHead) (body : Bytes) :
    Bytes.read (head.encode ++ body) Query.read =
      (Statement.ofSlices head body).map fun statement => ({ head, statement }, []) := by
  have hhead : Bytes.read (head.encode ++ body) QueryHead.read =
      Except.ok (ε := DecodeError) (head, body) :=
    Bytes.read_eq_ok_iff.mpr (QueryHead.read_eq_ok_iff.mpr rfl)
  rw [Query.read, Bytes.read_bind, hhead]
  change Bytes.read body (Statement.read head >>= fun statement => pure _) = _
  rw [Bytes.read_bind, Statement.read_eq_ofSlices]
  cases Statement.ofSlices head body <;> rfl

theorem ExecuteLoad.read_encode_append (head : QueryHead) (file : LoadedFile) (body : Bytes) :
    Bytes.read (head.encode ++ (file.encode ++ body)) ExecuteLoad.read =
      (Statement.ofSlices head body).map fun statement => ({ head, file, statement }, []) := by
  have hhead : Bytes.read (head.encode ++ (file.encode ++ body)) QueryHead.read =
      Except.ok (ε := DecodeError) (head, file.encode ++ body) :=
    Bytes.read_eq_ok_iff.mpr (QueryHead.read_eq_ok_iff.mpr rfl)
  have hfile : Bytes.read (file.encode ++ body) LoadedFile.read =
      Except.ok (ε := DecodeError) (file, body) :=
    Bytes.read_eq_ok_iff.mpr (LoadedFile.read_eq_ok_iff.mpr rfl)
  rw [ExecuteLoad.read, Bytes.read_bind, hhead]
  change Bytes.read (file.encode ++ body) (LoadedFile.read >>= fun file => _) = _
  rw [Bytes.read_bind, hfile]
  change Bytes.read body (Statement.read head >>= fun statement => pure _) = _
  rw [Bytes.read_bind, Statement.read_eq_ofSlices]
  cases Statement.ofSlices head body <;> rfl

/-! ## The main result -/

/-- Bytes that suffice for both heads start with them. -/
theorem ExecuteLoad.exists_encode_append {b : Bytes} (hb : 26 ≤ b.length) :
    ∃ (head : QueryHead) (file : LoadedFile) (body : Bytes),
      b = head.encode ++ (file.encode ++ body) := by
  obtain ⟨head, hhead⟩ := QueryHead.takes_read b (by omega)
  obtain ⟨file, hfile⟩ := LoadedFile.takes_read (b.drop 13) (by rw [List.length_drop]; omega)
  refine ⟨head, file, (b.drop 13).drop 13, ?_⟩
  rw [← LoadedFile.read_eq_ok_iff.mp hfile]
  exact QueryHead.read_eq_ok_iff.mp hhead

namespace Statement

/-- **Slices of a statement.** Behind its heads, a query and a statement that loads a file are read
as what the slices say, and to the end: from the block the settings, from its own bytes the schema,
and behind one more byte the text. What is told is the first defect in this order. If an entry goes
on over the end of the block, bytes are missing, whatever follows. So a body is read as a query as
it is read as a statement that loads a file, without the bytes that tell the file. -/
theorem read_slices :
    (∀ (head : QueryHead) (body : Bytes), Bytes.read (head.encode ++ body) Query.read =
      (ofSlices head body).map fun statement => ({ head, statement }, [])) ∧
    (∀ (head : QueryHead) (file : LoadedFile) (body : Bytes),
      Bytes.read (head.encode ++ (file.encode ++ body)) ExecuteLoad.read =
        (ofSlices head body).map fun statement => ({ head, file, statement }, [])) ∧
    (∀ (head : QueryHead) (body : Bytes), head.statusVarsLength.toNat ≤ body.length →
      StatusVars.EndsWithin (body.take head.statusVarsLength.toNat) →
        ∃ e, ofSlices head body = .error e ∧ e.isUnderrun = true) ∧
    ∀ b : Bytes, 26 ≤ b.length →
      (Bytes.read b ExecuteLoad.read).map (fun (load, left) => (load.head, load.statement, left)) =
        (Bytes.read (b.take 13 ++ b.drop 26) Query.read).map
          fun (query, left) => (query.head, query.statement, left) := by
  refine ⟨Query.read_encode_append, ExecuteLoad.read_encode_append,
    fun head body => ofSlices_underrun, ?_⟩
  intro b hb
  obtain ⟨head, file, body, rfl⟩ := ExecuteLoad.exists_encode_append hb
  have htake : (head.encode ++ (file.encode ++ body)).take 13 = head.encode :=
    List.take_left' head.length_encode
  have hdrop : (head.encode ++ (file.encode ++ body)).drop 26 = body := by
    rw [← List.append_assoc]
    exact List.drop_left' (by rw [List.length_append, head.length_encode, file.length_encode])
  rw [htake, hdrop, Query.read_encode_append, ExecuteLoad.read_encode_append]
  cases ofSlices head body <;> rfl

/-- A number of eight bytes of which the block has four, though the next four are there: they are
the schema. And a statement that loads a file, of which the query is the same. -/
theorem read_slices_cut_block :
    let head : QueryHead := ⟨0, 0, 4, 0, 5⟩
    let file : LoadedFile := ⟨1, 0, 0, 0⟩
    let body : Bytes := [1, 0, 0, 0, 0, 0x64, 0x62, 0x61, 0x62, 0, 0x42]
    let b : Bytes := QueryHead.encode ⟨0, 0, 1, 0, 3⟩ ++ file.encode ++ [7, 1, 0, 0x64, 9, 0x42]
    (∃ e, Bytes.read (head.encode ++ body) Query.read = .error e ∧ e.isUnderrun = true) ∧
      (∃ e, Bytes.read (head.encode ++ (file.encode ++ body)) ExecuteLoad.read = .error e ∧
        e.isUnderrun = true) ∧
      (Bytes.read b ExecuteLoad.read).map (fun (load, left) => (load.head, load.statement, left)) =
        .ok (⟨0, 0, 1, 0, 3⟩, ⟨{ lcTimeNames := some 1 }, "d", "B"⟩, []) := by
  intro head file body b
  obtain ⟨hquery, hload, hcut, hsame⟩ := read_slices
  have hover : StatusVars.EndsWithin (body.take head.statusVarsLength.toNat) :=
    ⟨[], [], [1, 0, 0, 0, 0], [0, 0, 0, 0], rfl, .nil, by decide, by decide +kernel⟩
  obtain ⟨e, hslices, hunderrun⟩ := hcut head body (by decide) hover
  refine ⟨⟨e, ?_, hunderrun⟩, ⟨e, ?_, hunderrun⟩, ?_⟩
  · rw [hquery, hslices]
    rfl
  · rw [hload, hslices]
    rfl
  · rw [hsame b (by decide)]
    have hread : Bytes.read (b.take 13 ++ b.drop 26) Query.read =
        .ok (⟨⟨0, 0, 1, 0, 3⟩, ⟨{ lcTimeNames := some 1 }, "d", "B"⟩⟩, []) := by decide +kernel
    rw [hread]
    rfl

end Statement

end Binlog
