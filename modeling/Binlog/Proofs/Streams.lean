import Binlog.Proofs.Framing

/-!
# Streams find their way back

A parser that was set up for another log decodes wrongly until it meets a format description, and
rightly from there on: what a format description says replaces all that the parser knew, and
decoding it needs nothing of that.

**One event** (`Parser.parse_of_typeCode`). A format description tells by its own bytes whether it
has a checksum, and its body does not depend on the version of the server. So of the parser only the
wish to verify checksums matters.

**One step** (`Parser.validate_next`). Two parsers that agree in this wish agree in it afterwards,
whatever they are given: either both take up the same description or neither takes up one.

**Runs.** From the first description that both accept the runs are the same (`Parser.run_drop_eq`),
and behind any run stands the last description that was accepted (`Parser.finish_eq`).

Main statement: `Parser.run_resynchronises`.
-/

namespace Binlog

open Reader

namespace Parser

/-! ## Descriptions -/

/-- The format description that was decoded. -/
def description? : Except DecodeError Event → Option FormatDescription
  | .ok e => DataKind.formatDescription.select? e.data
  | .error _ => none

theorem next_eq (p : Parser) (validate : Bool) (outcome : Except DecodeError Event) :
    p.next validate outcome =
      ((description? outcome).map (ofFormatDescription · validate)).getD p := by
  cases outcome with
  | error e => rfl
  | ok e =>
    obtain ⟨header, data, crc32, checksum, eventSize, bytesConsumed⟩ := e
    cases data <;> rfl

variable {p q : Parser} {bs : Bytes} {e : Event}

/-- An event is a format description if its type code says so. -/
theorem description?_isSome_iff (he : p.parse bs = .ok e) :
    (description? (.ok e)).isSome ↔ bs[4]? = some 15 := by
  obtain ⟨h, f, d, rest, -, ⟨tail, rfl⟩, hread, -, rfl⟩ := parse_eq_ok_iff.mp he
  have hkind := Payload.kind_of_read hread
  rw [typeCode_encode_append, Option.some.injEq, ← EventType.ofCode_eq_formatDescription_iff,
    ← EventKind.ofType_eq_formatDescription_iff]
  change _ ↔ EventKind.ofType h.eventType = _
  rw [← hkind]
  change (DataKind.formatDescription.select? d).isSome ↔ _
  cases d <;> simp [Payload.kind, DataKind.select?]

/-! ## One event -/

theorem decode_of_eventType {h : Header} (htype : h.eventType = .formatDescription)
    (hvalidate : p.validate = q.validate) (rest : Bytes) : p.decode h rest = q.decode h rest := by
  have hfooter : p.footer h rest = q.footer h rest := by
    unfold footer Footer.ofData
    rw [htype]
    rfl
  have hpayload : p.payload h = q.payload h := by
    unfold payload
    rw [htype]
    rfl
  rw [decode, decode, frame_eq, frame_eq, hfooter, hpayload, hvalidate]

/-- Of the parser, decoding a format description needs only whether checksums are verified. -/
theorem parse_of_typeCode (hvalidate : p.validate = q.validate) (hcode : bs[4]? = some 15) :
    p.parse bs = q.parse bs := by
  unfold parse
  cases hread : (bs.read Header.read : Except DecodeError (Header × Bytes)) with
  | error e => rfl
  | ok x =>
    obtain ⟨h, rest⟩ := x
    obtain rfl := Header.read_eq_ok_iff.mp (Bytes.read_eq_ok_iff.mp hread)
    rw [typeCode_encode_append, Option.some.injEq] at hcode
    have htype := (EventType.ofCode_eq_formatDescription_iff h.typeCode).mpr hcode
    exact decode_of_eventType htype hvalidate rest

/-! ## One step -/

theorem description?_eq_none (hcode : bs[4]? ≠ some 15) : description? (p.parse bs) = none := by
  cases he : p.parse bs with
  | error e => rfl
  | ok e =>
    rw [← Option.not_isSome_iff_eq_none, description?_isSome_iff he]
    exact hcode

/-- The wish to verify checksums stays common to two parsers. -/
theorem validate_next (hvalidate : p.validate = q.validate) (validate : Bool) (bs : Bytes) :
    (p.next validate (p.parse bs)).validate = (q.next validate (q.parse bs)).validate := by
  by_cases hcode : bs[4]? = some 15
  · rw [next_eq, next_eq, parse_of_typeCode hvalidate hcode]
    cases description? (q.parse bs) with
    | none => exact hvalidate
    | some f => rfl
  · rw [next_eq, next_eq, description?_eq_none hcode, description?_eq_none hcode]
    exact hvalidate

/-- A description that was accepted replaces what a parser knew. -/
theorem next_of_typeCode (he : p.parse bs = .ok e) (hcode : bs[4]? = some 15) (validate : Bool) :
    p.next validate (.ok e) = q.next validate (.ok e) := by
  obtain ⟨f, hf⟩ := Option.isSome_iff_exists.mp ((description?_isSome_iff he).mpr hcode)
  rw [next_eq, next_eq, hf]
  rfl

/-! ## Runs -/

/-- The parser behind a run. -/
def finish (validate : Bool) (p : Parser) (inputs : List Bytes) : Parser :=
  ((run validate p inputs).getLast?.map Prod.snd).getD p

/-- The format descriptions that a run accepts. -/
def descriptions (validate : Bool) (p : Parser) (inputs : List Bytes) : List FormatDescription :=
  (run validate p inputs).filterMap fun step => description? step.1

/-- From a description that was accepted on, runs are the same. -/
theorem run_drop_eq {validate : Bool} {inputs : List Bytes} {i : Nat} {next : Parser}
    (hvalidate : p.validate = q.validate) (hbs : inputs[i]? = some bs) (hcode : bs[4]? = some 15)
    (hstep : (run validate p inputs)[i]? = some (.ok e, next)) :
    (run validate p inputs).drop i = (run validate q inputs).drop i := by
  induction inputs generalizing p q i with
  | nil => rfl
  | cons first rest ih =>
    cases i with
    | zero =>
      obtain rfl : first = bs := by simpa using hbs
      have he : p.parse first = .ok e := by
        simp only [run, List.getElem?_cons_zero, Option.some.injEq, Prod.mk.injEq] at hstep
        exact hstep.1
      have hq : q.parse first = .ok e := by rw [← parse_of_typeCode hvalidate hcode, he]
      simp only [run, he, hq, List.drop_zero]
      rw [next_of_typeCode he hcode]
    | succ i =>
      exact ih (validate_next hvalidate validate first) hbs hstep

theorem finish_cons (validate : Bool) (p : Parser) (bs : Bytes) (rest : List Bytes) :
    finish validate p (bs :: rest) = finish validate (p.next validate (p.parse bs)) rest := by
  unfold finish
  simp only [run, List.getLast?_cons, Option.map_some, Option.getD_some]
  cases (run validate (p.next validate (p.parse bs)) rest).getLast? <;> rfl

theorem descriptions_cons (validate : Bool) (p : Parser) (bs : Bytes) (rest : List Bytes) :
    descriptions validate p (bs :: rest) = (description? (p.parse bs)).toList ++
      descriptions validate (p.next validate (p.parse bs)) rest := by
  simp only [descriptions, run, List.filterMap_cons]
  cases description? (p.parse bs) <;> rfl

/-- Behind a run stands what the last description makes. -/
theorem finish_eq (validate : Bool) (p : Parser) (inputs : List Bytes) :
    finish validate p inputs =
      ((descriptions validate p inputs).getLast?.map (ofFormatDescription · validate)).getD p := by
  induction inputs generalizing p with
  | nil => rfl
  | cons bs rest ih =>
    rw [finish_cons, ih, descriptions_cons, next_eq]
    cases description? (p.parse bs) with
    | none => rfl
    | some f =>
      -- a later description takes the place of this one
      rw [Option.toList_some, List.singleton_append, List.getLast?_cons, Option.map_some,
        Option.getD_some]
      cases (descriptions validate (ofFormatDescription f validate) rest).getLast? <;> rfl

/-- **Streams find their way back.** From the first format description that is decoded on, two runs
whose parsers agree in whether they verify checksums have the same outcomes and parsers. A format
description is decoded alike by all such parsers; and the last one that was accepted is all that a
run leaves behind. -/
theorem run_resynchronises (validate : Bool) (p q : Parser) (hvalidate : p.validate = q.validate)
    (inputs : List Bytes) :
    (∀ (i : Nat) (bs : Bytes) (e : Event) (next : Parser), inputs[i]? = some bs →
      bs[4]? = some 15 → (run validate p inputs)[i]? = some (.ok e, next) →
        ∀ j, i ≤ j → (run validate p inputs)[j]? = (run validate q inputs)[j]?) ∧
      (∀ bs : Bytes, bs[4]? = some 15 → p.parse bs = q.parse bs) ∧
      finish validate p inputs =
        match (descriptions validate p inputs).getLast? with
        | some f => ofFormatDescription f validate
        | none => p := by
  refine ⟨fun i bs e next hbs hcode hstep j hij => ?_, fun bs => parse_of_typeCode hvalidate, ?_⟩
  · have hdrop := run_drop_eq hvalidate hbs hcode hstep
    rw [← Nat.add_sub_cancel' hij, ← List.getElem?_drop, hdrop, List.getElem?_drop]
  · rw [finish_eq]
    cases (descriptions validate p inputs).getLast? <;> rfl

/-- An integer without a checksum, a format description, and the integer with a checksum. One of the
parsers expects no checksums, the other one does. -/
theorem run_resynchronises_description :
    let p : Parser := ⟨false, false, none⟩
    let q : Parser := ⟨true, false, some ⟨5, 6, 0⟩⟩
    let bare : Bytes := (⟨0, 5, 1, 24, 0, 0⟩ : Header).encode ++ [2, 5, 0, 0, 0]
    let description : Bytes := (⟨0, 15, 1, 96, 0, 0⟩ : Header).encode ++ [4, 0, 56, 46, 48] ++
      List.replicate 51 0 ++ [19] ++ List.replicate 14 0 ++ [72, 1, 196, 164, 208, 220]
    let framed : Bytes :=
      (⟨0, 5, 1, 28, 0, 0⟩ : Header).encode ++ [2, 5, 0, 0, 0] ++ [158, 15, 32, 19]
    let inputs := [bare, description, framed]
    (run true p inputs)[0]? ≠ (run true q inputs)[0]? ∧
      (∀ j, 1 ≤ j → (run true p inputs)[j]? = (run true q inputs)[j]?) ∧
      finish true p inputs = ⟨true, true, some ⟨8, 0, 0⟩⟩ := by
  intro p q bare description framed inputs
  have hstep : (run true p inputs)[1]? = some (.ok
      { header := ⟨0, 15, 1, 96, 0, 0⟩
        data := .formatDescription
          { binlogVersion := 4, serverVersion := "8.0", version := ⟨8, 0, 0⟩, createTimestamp := 0,
            headerLength := 19, postHeaderLengths := List.replicate 14 0 ++ [72],
            checksumAlgorithm := some 1 }
        crc32 := some 0xdcd0a4c4, checksum := .notChecked, eventSize := 73, bytesConsumed := 73 },
      ⟨true, true, some ⟨8, 0, 0⟩⟩) := by decide +kernel
  obtain ⟨hruns, -, hfinish⟩ := run_resynchronises true p q rfl inputs
  exact ⟨by decide +kernel, hruns 1 description _ _ rfl (by decide +kernel) hstep,
    hfinish.trans (by decide +kernel)⟩

end Parser

end Binlog
