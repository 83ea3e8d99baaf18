import Binlog.Proofs.Framing

/-!
# Events that keep all their bytes

Twelve kinds of events keep all that was read (`EventKind.lossless`). For these, reading and writing
undo each other, frame included.

**Reading, then writing** (`encode?_of_read`). What is written is what was read: the layouts of
`Binlog.Proofs.Layouts` fix the bytes of a value, and a body that is used up has no other.

**Writing, then reading** (`read_of_encode?`). The values are those within the limits of their
layout (`Payload.Fits`). A format description is left out, as it is read differently depending on
its own entry in the table.
-/

namespace Binlog

open Reader

/-- The kinds whose payload keeps all that was read. -/
def EventKind.lossless : List EventKind :=
  [stop, rotate, intvar, rand, formatDescription, xid, beginLoad, heartbeat, annotateRows,
    binlogCheckpoint, domainGtidList, startEncryption]

namespace Payload

variable {server : UInt32} {version : Option ServerVersion} {d : Payload} {s t body : Bytes}

/-- The limits of a payload in a body of `size` bytes. -/
def Fits (size : Nat) : Payload → Prop
  | intvar i => i.key = .ofCode i.key.code ∧ (size = 5 ∧ i.value.toNat < 2 ^ 32 ∨ size = 9)
  | binlogCheckpoint b => (Utf8.encode b.file).length < 2 ^ 32
  | domainGtidList l => l.flags.toNat < 2 ^ 4 ∧ l.gtids.length < 2 ^ 28
  | startEncryption e => e.nonce.length = StartEncryption.nonceSize
  | stop | rotate _ | rand _ | xid _ | beginLoad _ | heartbeat _ | annotateRows _ => True
  | _ => False

/-! ## Bodies -/

theorem encode?_intvar_of_read {i : Intvar} (hall : s.length - t.length = s.length)
    (h : (Intvar.read : Reader Bytes DecodeError Intvar) s = .ok i t) :
    encode? s.length (intvar i) = some s := by
  obtain ⟨-, hshort | hlong⟩ := Intvar.read_eq_ok_iff.mp h
  · obtain ⟨-, -, hs⟩ := hshort
    obtain rfl := Frame.rest_eq_nil hs hall
    rw [List.append_nil] at hs
    subst hs
    rfl
  · obtain rfl := Frame.rest_eq_nil hlong hall
    rw [List.append_nil] at hlong
    subst hlong
    rfl

/-- A body that was read and is used up is the written form of what was read. -/
theorem encode?_of_read (hd : d.kind ∈ EventKind.lossless)
    (h : (Payload.read server version d.kind : Reader Bytes DecodeError Payload) s = .ok d t)
    (hall : s.length - t.length = s.length) : d.encode? s.length = some s := by
  have hused {bs : Bytes} (hs : s = bs ++ t) : some bs = some s := by
    obtain rfl := Frame.rest_eq_nil hs hall
    rw [hs, List.append_nil]
  cases d with
  | stop =>
    obtain ⟨-, rfl⟩ := pure_eq_ok_iff.mp h
    exact hused (List.nil_append s).symm
  | rotate r =>
    have hread := (map_injective_eq_ok_iff fun _ _ => rotate.inj).mp h
    obtain ⟨rfl, rfl⟩ := Rotate.read_eq_ok_iff.mp hread
    rfl
  | intvar i =>
    have hread := (map_injective_eq_ok_iff fun _ _ => intvar.inj).mp h
    exact encode?_intvar_of_read hall hread
  | rand r =>
    have hread := (map_injective_eq_ok_iff fun _ _ => rand.inj).mp h
    exact hused (Rand.read_eq_ok_iff.mp hread)
  | formatDescription f =>
    have hread := (map_injective_eq_ok_iff fun _ _ => formatDescription.inj).mp h
    exact hused (FormatDescription.read_eq_ok_iff.mp hread).2
  | xid x =>
    have hread := (map_injective_eq_ok_iff fun _ _ => xid.inj).mp h
    exact hused (Xid.read_eq_ok_iff.mp hread)
  | beginLoad b =>
    have hread := (map_injective_eq_ok_iff fun _ _ => beginLoad.inj).mp h
    obtain ⟨rfl, rfl⟩ := BeginLoad.read_eq_ok_iff.mp hread
    rfl
  | heartbeat b =>
    have hread := (map_injective_eq_ok_iff fun _ _ => heartbeat.inj).mp h
    obtain ⟨rfl, rfl⟩ := Heartbeat.read_eq_ok_iff.mp hread
    rfl
  | annotateRows a =>
    have hread := (map_injective_eq_ok_iff fun _ _ => annotateRows.inj).mp h
    obtain ⟨rfl, rfl⟩ := AnnotateRows.read_eq_ok_iff.mp hread
    rfl
  | binlogCheckpoint b =>
    have hread := (map_injective_eq_ok_iff fun _ _ => binlogCheckpoint.inj).mp h
    exact hused (BinlogCheckpoint.read_eq_ok_iff.mp hread).2
  | domainGtidList l =>
    have hread := (map_injective_eq_ok_iff fun _ _ => domainGtidList.inj).mp h
    exact hused (DomainGtidList.read_eq_ok_iff.mp hread).2.2
  | startEncryption e =>
    have hread := (map_injective_eq_ok_iff fun _ _ => startEncryption.inj).mp h
    exact hused (StartEncryption.read_eq_ok_iff.mp hread).2
  | _ => simp [kind, EventKind.lossless] at hd

/-- The written form of a value within its limits is read back, and used up. -/
theorem read_of_encode? (hfits : d.Fits body.length) (hbody : d.encode? body.length = some body) :
    (Payload.read server version d.kind : Reader Bytes DecodeError Payload) body = .ok d [] := by
  cases d with
  | stop =>
    cases hbody
    rfl
  | rotate r =>
    cases hbody
    exact (map_injective_eq_ok_iff fun _ _ => rotate.inj).mpr (Rotate.read_eq_ok_iff.mpr ⟨rfl, rfl⟩)
  | intvar i =>
    obtain ⟨hkey, hsize⟩ := hfits
    have hencode : i.encode (body.length - 1) = body := Option.some.inj hbody
    apply (map_injective_eq_ok_iff fun _ _ => intvar.inj).mpr
    apply Intvar.read_eq_ok_iff.mpr
    refine ⟨hkey, ?_⟩
    rw [List.append_nil, List.append_nil]
    obtain ⟨hfive, hvalue⟩ | hnine := hsize
    · rw [hfive] at hencode
      exact .inl ⟨hvalue, by decide, hencode.symm⟩
    · rw [hnine] at hencode
      exact .inr hencode.symm
  | rand r =>
    cases hbody
    exact (map_injective_eq_ok_iff fun _ _ => rand.inj).mpr
      (Rand.read_eq_ok_iff.mpr (List.append_nil _).symm)
  | xid x =>
    cases hbody
    exact (map_injective_eq_ok_iff fun _ _ => xid.inj).mpr
      (Xid.read_eq_ok_iff.mpr (List.append_nil _).symm)
  | beginLoad b =>
    cases hbody
    exact (map_injective_eq_ok_iff fun _ _ => beginLoad.inj).mpr
      (BeginLoad.read_eq_ok_iff.mpr ⟨rfl, rfl⟩)
  | heartbeat b =>
    cases hbody
    exact (map_injective_eq_ok_iff fun _ _ => heartbeat.inj).mpr
      (Heartbeat.read_eq_ok_iff.mpr ⟨rfl, rfl⟩)
  | annotateRows a =>
    cases hbody
    exact (map_injective_eq_ok_iff fun _ _ => annotateRows.inj).mpr
      (AnnotateRows.read_eq_ok_iff.mpr ⟨rfl, rfl⟩)
  | binlogCheckpoint b =>
    cases hbody
    exact (map_injective_eq_ok_iff fun _ _ => binlogCheckpoint.inj).mpr
      (BinlogCheckpoint.read_eq_ok_iff.mpr ⟨hfits, (List.append_nil _).symm⟩)
  | domainGtidList l =>
    cases hbody
    exact (map_injective_eq_ok_iff fun _ _ => domainGtidList.inj).mpr
      (DomainGtidList.read_eq_ok_iff.mpr ⟨hfits.1, hfits.2, (List.append_nil _).symm⟩)
  | startEncryption e =>
    cases hbody
    exact (map_injective_eq_ok_iff fun _ _ => startEncryption.inj).mpr
      (StartEncryption.read_eq_ok_iff.mpr ⟨hfits, (List.append_nil _).symm⟩)
  | _ => exact absurd hfits id

/-- A value within its limits has a written form, of the size that the limits are for. -/
theorem exists_encode? {size : Nat} (hfits : d.Fits size) : ∃ body, d.encode? size = some body ∧
    d.encode? body.length = some body ∧ d.Fits body.length := by
  cases d with
  | intvar i =>
    have hlen : (i.encode (size - 1)).length = size := by
      have hsize := hfits.2
      rw [Intvar.encode, List.length_cons, Bytes.length_ofNatLE]
      omega
    refine ⟨i.encode (size - 1), rfl, ?_, ?_⟩
    · rw [hlen]
      rfl
    · rwa [hlen]
  | stop | rotate | rand | xid | beginLoad | heartbeat | annotateRows | binlogCheckpoint
  | domainGtidList | startEncryption => exact ⟨_, rfl, rfl, hfits⟩
  | _ => exact absurd hfits id

end Payload

/-! ## Events -/

namespace Parser

variable {p : Parser} {bs : Bytes} {e : Event}

theorem encode?_of_parse (he : p.parse bs = .ok e) (hk : e.data.kind ∈ EventKind.lossless) :
    e.encode? = some (bs.take e.header.eventLength.toNat) := by
  obtain ⟨h, f, d, rest, hc, ⟨tail, rfl⟩, hread, hall, rfl⟩ := parse_eq_ok_iff.mp he
  have htake := hc.take_declaredLength tail
  rw [declaredLength_encode_append] at htake
  have hbody : d.encode? f.body.length = some f.body := by
    rw [payload, ← Payload.kind_of_read hread] at hread
    exact Payload.encode?_of_read hk hread hall
  show (d.encode? f.body.length).map _ = some (List.take h.eventLength.toNat _)
  rw [hbody, htake, Frame.data, ← List.append_assoc]
  rfl

theorem parse_encode {h : Header} {d : Payload} {body : Bytes} {crc : Option UInt32} (tail : Bytes)
    (hkind : EventKind.ofType h.eventType = d.kind) (hfits : d.Fits body.length)
    (hbody : d.encode? body.length = some body) (hcrc : crc.isSome = p.checksum)
    (hlength : h.eventLength.toNat =
      Header.size + body.length + if p.checksum then Footer.size else 0) :
    let f : Frame := ⟨if p.checksum then .crc32 else .absent, body, crc⟩
    p.parse (h.encode ++ (f.data ++ tail)) = .ok (f.event p.validate h d) := by
  intro f
  have htype : h.eventType ≠ .formatDescription := by
    intro htype
    rw [htype] at hkind
    cases d with
    | formatDescription => exact hfits
    | _ => cases hkind
  have hdata : f.data.length = body.length + if p.checksum then Footer.size else 0 := by
    rw [Frame.data, List.length_append, f.length_footerBytes]
    show body.length + (if crc.isSome then _ else _) = _
    rw [hcrc]
  have hcuts : p.Cuts h f := by
    refine ⟨by omega, by rw [hdata, Header.dataLength]; omega, ?_, ?_⟩
    · rw [Footer.ofData, if_neg htype]
    · show crc.isSome ↔ (if p.checksum then Footer.crc32 else .absent) ≠ .absent
      rw [hcrc]
      split <;> simp [*]
  refine parse_eq_ok_iff.mpr ⟨h, f, d, [], hcuts, ⟨tail, rfl⟩, ?_, rfl, rfl⟩
  rw [payload, hkind]
  exact Payload.read_of_encode? hfits hbody

/-- **Reading and writing undo each other.** What is written of an accepted event of a lossless kind
is its declared bytes. And a value within its limits has a written form; behind a header of its type
and length, and with the checksum that the parser expects, it is read back, whatever follows. -/
theorem parse_lossless (p : Parser) :
    (∀ bs e, p.parse bs = .ok e → e.data.kind ∈ EventKind.lossless →
      e.encode? = some (bs.take e.header.eventLength.toNat)) ∧
    ∀ (h : Header) (d : Payload) (size : Nat) (crc : Option UInt32),
      EventKind.ofType h.eventType = d.kind → d.Fits size → crc.isSome = p.checksum →
      ∃ body, d.encode? size = some body ∧
        (h.eventLength.toNat =
            Header.size + body.length + (if p.checksum then Footer.size else 0) →
          let f : Frame := ⟨if p.checksum then .crc32 else .absent, body, crc⟩
          let e := f.event p.validate h d
          e.encode? = some (h.encode ++ f.data) ∧
            ∀ tail, p.parse (h.encode ++ (f.data ++ tail)) = .ok e) := by
  refine ⟨fun bs e he hk => encode?_of_parse he hk, fun h d size crc hkind hfits hcrc => ?_⟩
  obtain ⟨body, hsize, hbody, hfits⟩ := Payload.exists_encode? hfits
  refine ⟨body, hsize, fun hlength => ?_⟩
  intro f e
  refine ⟨?_, fun tail => parse_encode tail hkind hfits hbody hcrc hlength⟩
  show (d.encode? body.length).map _ = _
  rw [hbody, Frame.data, ← List.append_assoc]
  rfl

/-- A list of one position, with flags and a checksum, in both directions. -/
theorem parse_lossless_domainGtidList :
    let p : Parser := ⟨true, true, none⟩
    let h : Header := ⟨0, 163, 1, 43, 0, 0⟩
    let d : Payload := .domainGtidList ⟨1, [⟨2, 3, 4⟩]⟩
    let bs : Bytes := [0, 0, 0, 0, 163, 1, 0, 0, 0, 43, 0, 0, 0, 0, 0, 0, 0, 0, 0] ++
      [1, 0, 0, 16, 2, 0, 0, 0, 3, 0, 0, 0, 4, 0, 0, 0, 0, 0, 0, 0] ++ [77, 35, 91, 57]
    (∃ e, p.parse bs = .ok e ∧ e.checksum = .valid ∧ e.encode? = some bs) ∧
      ∃ e, e.header = h ∧ e.data = d ∧ p.parse bs = .ok e := by
  intro p h d bs
  obtain ⟨hread, hwrite⟩ := parse_lossless p
  have he : p.parse bs = .ok
      { header := h, data := d, crc32 := some 0x395b234d, checksum := .valid, eventSize := 20,
        bytesConsumed := 20 } := by decide +kernel
  obtain ⟨body, hbody, hback⟩ :=
    hwrite h d 20 (some 0x395b234d) (by decide) ⟨by decide, by decide⟩ rfl
  obtain rfl : [1, 0, 0, 16, 2, 0, 0, 0, 3, 0, 0, 0, 4, 0, 0, 0, 0, 0, 0, 0] = body :=
    Option.some.inj hbody
  obtain ⟨-, hback⟩ := hback (by decide)
  have hwire := hback []
  rw [show h.encode ++ (_ ++ []) = bs by decide +kernel] at hwire
  exact ⟨⟨_, he, rfl, hread bs _ he (by decide)⟩, _, rfl, rfl, hwire⟩

end Parser

end Binlog
