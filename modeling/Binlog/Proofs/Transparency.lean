import Binlog.Proofs.Framing

/-!
# Checksums do not touch the data

Whether a log is written with checksums, and whether they are verified, changes nothing about what
its events hold.

**One reading.** The payload is read from the body, and from nothing else that the frame knows
(`Frame.read_eq_map`). So two parsers that cut the same body out of what they are given read the
same data, or fail for the same reason; they add to it what each of them knows of the frame.

**The footer** (`Parser.decode_footer`). With checksums, the four bytes behind the body are cut off
before the body is read, so they are neither taken for data nor missed.

**Verification** (`Parser.decode_validate`). Cutting and reading do not know whether checksums are
verified.

Main statement: `Parser.decode_transparent`.
-/

namespace Binlog

open Reader

/-! ## Reading a body -/

/-- The payload that a body is, if all of it is used. -/
def Bytes.readWhole (body : Bytes) (r : Reader Bytes DecodeError Payload) :
    Except DecodeError Payload := do
  let (data, rest) ← body.read r
  let bytesConsumed := body.length - rest.length
  if bytesConsumed = body.length then return data
  else throw (.eventSizeMismatch body.length bytesConsumed)

namespace Bytes

variable {body rest : Bytes} {r : Reader Bytes DecodeError Payload} {d : Payload} {e : DecodeError}

theorem readWhole_eq_ok_iff : body.readWhole r = .ok d ↔
    ∃ rest, r body = .ok d rest ∧ body.length - rest.length = body.length := by
  simp only [readWhole, Except.bind_eq_ok_iff, Prod.exists, read_eq_ok_iff]
  refine ⟨fun ⟨d', rest, hr, h⟩ => ?_, fun ⟨rest, hr, hall⟩ => ⟨d, rest, hr, if_pos hall⟩⟩
  split at h
  next hall =>
    cases h
    exact ⟨rest, hr, hall⟩
  next => cases h

theorem readWhole_of_left (hr : r body = .ok d rest)
    (hleft : body.length - rest.length ≠ body.length) : body.readWhole r =
      .error (.eventSizeMismatch body.length (body.length - rest.length)) := by
  rw [readWhole, read_eq_ok_iff.mpr hr]
  exact if_neg hleft

theorem readWhole_of_error (hr : r body = .error e rest) : body.readWhole r = .error e := by
  rw [readWhole, read_eq_error_iff.mpr ⟨rest, hr⟩]
  rfl

end Bytes

/-- A frame adds to the payload what does not depend on it. -/
theorem Frame.read_eq_map (f : Frame) (validate : Bool) (h : Header)
    (r : Reader Bytes DecodeError Payload) :
    f.read validate h r = (f.body.readWhole r).map (f.event validate h) := by
  unfold read Bytes.readWhole
  cases f.body.read r with
  | error e => rfl
  | ok x =>
    obtain ⟨d, rest⟩ := x
    change (if _ then _ else _) = Except.map _ (if _ then _ else _)
    by_cases hused : f.body.length - rest.length = f.body.length
    · rw [if_pos hused, if_pos hused, hused]
      rfl
    · rw [if_neg hused, if_neg hused]
      rfl

/-- The header of an event of another length. -/
def Header.withLength (h : Header) (n : Nat) : Header := { h with eventLength := .ofNat n }

theorem Header.dataLength_withLength (h : Header) {n : Nat} (hn : size + n < 2 ^ 32) :
    (h.withLength (size + n)).dataLength = n := by
  rw [dataLength, withLength, UInt32.toNat_ofNat_of_lt' hn, Nat.add_sub_cancel_left]

theorem Header.size_le_withLength (h : Header) {n : Nat} (hn : size + n < 2 ^ 32) :
    size ≤ (h.withLength (size + n)).eventLength.toNat := by
  rw [withLength, UInt32.toNat_ofNat_of_lt' hn]
  exact Nat.le_add_right _ _

namespace Parser

variable (p : Parser) (h : Header)

/-! ## The footer -/

/-- What the parser decodes is the frame with the payload in it. -/
theorem decode_of_frame {bs : Bytes} {f : Frame} (hf : p.frame h bs = .ok f) :
    p.decode h bs = (f.body.readWhole (p.payload h)).map (f.event p.validate h) := by
  rw [decode, hf, ← Frame.read_eq_map]
  rfl

theorem frame_with_footer {body footer : Bytes} (htype : h.eventType ≠ .formatDescription)
    (hfooter : footer.length = Footer.size)
    (hlen : Header.size + (body.length + Footer.size) < 2 ^ 32) :
    { p with checksum := true }.frame (h.withLength (Header.size + (body.length + Footer.size)))
      (body ++ footer) = .ok ⟨.crc32, body, some footer.toUInt32LE⟩ := by
  have hdata : (⟨.crc32, body, some footer.toUInt32LE⟩ : Frame).data = body ++ footer :=
    congrArg (body ++ ·) (Bytes.ofNatLE_toUInt32LE hfooter)
  refine frame_eq_ok_iff.mpr ⟨⟨h.size_le_withLength hlen, ?_, ?_, by simp⟩, [], ?_⟩
  · rw [hdata, List.length_append, hfooter, h.dataLength_withLength hlen]
  · exact (if_neg htype).symm
  · rw [hdata, List.append_nil]

theorem frame_without_footer {body : Bytes} (htype : h.eventType ≠ .formatDescription)
    (hlen : Header.size + body.length < 2 ^ 32) :
    { p with checksum := false }.frame (h.withLength (Header.size + body.length)) body =
      .ok ⟨.absent, body, none⟩ := by
  have hdata : (⟨.absent, body, none⟩ : Frame).data = body := List.append_nil body
  refine frame_eq_ok_iff.mpr ⟨⟨h.size_le_withLength hlen, ?_, ?_, by simp⟩, [], ?_⟩
  · rw [hdata, h.dataLength_withLength hlen]
  · exact (if_neg htype).symm
  · rw [hdata, List.append_nil]

/-- A footer changes what an event tells of its frame. -/
theorem decode_footer {body footer : Bytes} (htype : h.eventType ≠ .formatDescription)
    (hfooter : footer.length = Footer.size)
    (hlen : Header.size + (body.length + Footer.size) < 2 ^ 32) :
    let long := h.withLength (Header.size + (body.length + Footer.size))
    let short := h.withLength (Header.size + body.length)
    let framed : Frame := ⟨.crc32, body, some footer.toUInt32LE⟩
    let bare : Frame := ⟨.absent, body, none⟩
    let data := body.readWhole (p.payload h)
    { p with checksum := true }.decode long (body ++ footer) =
        data.map (framed.event p.validate long) ∧
      { p with checksum := false }.decode short body = data.map (bare.event p.validate short) := by
  refine ⟨decode_of_frame { p with checksum := true } _ ?_,
    decode_of_frame { p with checksum := false } _ ?_⟩
  · exact p.frame_with_footer h htype hfooter hlen
  · exact p.frame_without_footer h htype (by omega)

/-! ## Verification -/

theorem decode_validate (bs : Bytes) : { p with validate := false }.decode h bs =
    ({ p with validate := true }.decode h bs).map fun (e : Event) =>
      { e with checksum := .notChecked } := by
  have hframe (v : Bool) : { p with validate := v }.frame h bs = p.frame h bs := rfl
  cases hf : p.frame h bs with
  | error e =>
    have herror (v : Bool) : { p with validate := v }.decode h bs = .error e := by
      rw [decode, hframe, hf]
      rfl
    rw [herror, herror]
    rfl
  | ok f =>
    have hdecode (v : Bool) := decode_of_frame { p with validate := v } h ((hframe v).trans hf)
    rw [hdecode, hdecode]
    change (f.body.readWhole (p.payload h)).map _ = ((f.body.readWhole (p.payload h)).map _).map _
    cases f.body.readWhole (p.payload h) with
    | error e => rfl
    | ok d =>
      have hverdict : f.verdict false h = .notChecked :=
        Frame.verdict_eq_notChecked_iff.mpr fun _ hfalse => absurd hfalse (by decide)
      change Except.ok (f.event false h d) = .ok { f.event true h d with checksum := .notChecked }
      rw [Frame.event, hverdict]
      rfl

/-- **Checksums do not touch the data.** Of two parsers that differ in whether events have a footer,
each given the event in its form, both fail for the same reason or both give the same data, and the
right footer is found valid. Of two parsers that differ in whether checksums are verified, the
events differ in the verdict alone. -/
theorem decode_transparent (p : Parser) :
    (∀ (h : Header) (body footer : Bytes), h.typeCode ≠ 15 → footer.length = Footer.size →
      Header.size + (body.length + Footer.size) < 2 ^ 32 →
      let long := h.withLength (Header.size + (body.length + Footer.size))
      let short := h.withLength (Header.size + body.length)
      let crc := Crc32.checksum (long.encode ++ body)
      let on := { p with checksum := true }.decode long (body ++ footer)
      let off := { p with checksum := false }.decode short body
      (on = off.map fun (e : Event) => { e with
        header := long
        crc32 := some footer.toUInt32LE
        checksum := if p.validate then if crc = footer.toUInt32LE then .valid else .invalid
          else .notChecked }) ∧
        (∀ e, off = .ok e → e.header = short ∧ e.crc32 = none ∧ e.checksum = .notChecked) ∧
        (p.validate = true → footer = Bytes.ofNatLE 4 crc.toNat →
          ∀ e, on = .ok e → e.checksum = .valid)) ∧
      ∀ (h : Header) (bs : Bytes), { p with validate := false }.decode h bs =
        ({ p with validate := true }.decode h bs).map fun (e : Event) =>
          { e with checksum := .notChecked } := by
  refine ⟨fun h body footer htype hfooter hlen => ?_, p.decode_validate⟩
  have htype' : h.eventType ≠ .formatDescription := fun heq =>
    htype ((EventType.ofCode_eq_formatDescription_iff _).mp heq)
  obtain ⟨hon, hoff⟩ := p.decode_footer h htype' hfooter hlen
  intro long short crc on off
  have hon' : on = (body.readWhole (p.payload h)).map _ := hon
  have hoff' : off = (body.readWhole (p.payload h)).map _ := hoff
  rw [hon', hoff']
  have hverdict : (⟨.crc32, body, some footer.toUInt32LE⟩ : Frame).verdict p.validate long =
      if p.validate then if crc = footer.toUInt32LE then .valid else .invalid
      else .notChecked := by
    simp only [Frame.verdict, true_and]
    rfl
  cases body.readWhole (p.payload h) with
  | error e =>
    refine ⟨rfl, fun _ he => ?_, fun _ _ _ he => ?_⟩
    · cases he
    · cases he
  | ok d =>
    refine ⟨?_, fun _ he => ?_, fun hvalidate hcrc _ he => ?_⟩
    · rw [← hverdict]
      rfl
    · cases he
      exact ⟨rfl, rfl, rfl⟩
    · cases he
      have hequal : crc = footer.toUInt32LE := by rw [hcrc, Bytes.toUInt32LE_ofNatLE]
      exact hverdict.trans (by rw [if_pos hvalidate, if_pos hequal])

/-- An integer with and without its checksum, and verified or not. -/
theorem decode_transparent_intvar :
    let p : Parser := ⟨false, true, none⟩
    let body : Bytes := [2, 5, 0, 0, 0]
    let footer : Bytes := [158, 15, 32, 19]
    let event : Event :=
      { header := ⟨0, 5, 1, 24, 0, 0⟩, data := .intvar ⟨.insertId, 5⟩, crc32 := none,
        checksum := .notChecked, eventSize := 5, bytesConsumed := 5 }
    let framed : Event := { event with
      header := ⟨0, 5, 1, 28, 0, 0⟩, crc32 := some 0x13200f9e, checksum := .valid }
    p.decode ⟨0, 5, 1, 24, 0, 0⟩ body = .ok event ∧
      { p with checksum := true }.decode ⟨0, 5, 1, 28, 0, 0⟩ (body ++ footer) = .ok framed ∧
      (⟨true, false, none⟩ : Parser).decode ⟨0, 5, 1, 28, 0, 0⟩ (body ++ footer) =
        .ok { framed with checksum := .notChecked } := by
  intro p body footer event framed
  have hoff : p.decode ⟨0, 5, 1, 24, 0, 0⟩ body = .ok event := by decide +kernel
  obtain ⟨hfooter, -, -⟩ := (decode_transparent p).1 ⟨0, 5, 1, 0, 0, 0⟩ body footer (by decide)
    rfl (by decide)
  have hon : { p with checksum := true }.decode ⟨0, 5, 1, 28, 0, 0⟩ (body ++ footer) =
      .ok framed := (hfooter.trans (congrArg (Except.map _) hoff)).trans (by decide +kernel)
  have hvalidate := (decode_transparent ⟨true, true, none⟩).2 ⟨0, 5, 1, 28, 0, 0⟩ (body ++ footer)
  exact ⟨hoff, hon, hvalidate.trans (congrArg (Except.map _) hon)⟩

end Parser

end Binlog
