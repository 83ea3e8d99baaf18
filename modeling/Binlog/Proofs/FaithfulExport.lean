import Binlog.Export.Event
import Binlog.Proofs.TextForms

/-!
# Exported events say what was decoded

Events with the same exported value are the same events, but for two kinds of user variables that
are exported as less than they are: real numbers that are not finite, and decimals, of which only
the text is kept (`Event.Alike`).

**Faithful exports.** An export is faithful if different things have different values and none is
exported as nothing (`Value.Faithful`). The second half makes an optional thing faithful as well: it
tells an empty list, a record of absent parts and the like from a thing that is not there. Numbers,
texts and lists are faithful, and so is a record whose fields are.

Main statement: `Event.toValue_faithful`.
-/

namespace Binlog

open Value

/-! ## Faithful exports -/

namespace Value

/-- Different things have different values, and none is exported as nothing. -/
structure Faithful {α : Type} (f : α → Value) : Prop where
  eq_iff : ∀ a b, f a = f b ↔ a = b
  ne_null : ∀ a, f a ≠ null

variable {α : Type} {f : α → Value}

@[simp] theorem ofOption_inj (hf : Faithful f) {a b : Option α} :
    ofOption f a = ofOption f b ↔ a = b := by
  cases a with
  | none =>
    cases b with
    | none => simp
    | some b => simp [ofOption, (hf.ne_null b).symm]
  | some a =>
    cases b with
    | none => simp [ofOption, hf.ne_null a]
    | some b => simp [ofOption, hf.eq_iff]

@[simp] theorem faithful_ofList (hf : Faithful f) : Faithful (ofList f) where
  eq_iff xs ys := by
    rw [ofList, ofList, list.injEq, List.map_inj_right fun a b => (hf.eq_iff a b).mp]
  ne_null xs := by simp [ofList]

/-- A record says what it is if its fields do. -/
theorem faithful_object {fields : α → List (String × Value)}
    (h : ∀ a b, fields a = fields b ↔ a = b) : Faithful fun a => object (fields a) :=
  ⟨fun a b => by rw [object.injEq, h], fun a => by simp⟩

@[simp] theorem faithful_text : Faithful text := ⟨by simp, by simp⟩

@[simp] theorem faithful_bool : Faithful bool := ⟨by simp, by simp⟩

@[simp] theorem faithful_u8 : Faithful fun n : UInt8 => nat n.toNat :=
  ⟨by simp [UInt8.toNat_inj], by simp⟩

@[simp] theorem faithful_u16 : Faithful fun n : UInt16 => nat n.toNat :=
  ⟨by simp [UInt16.toNat_inj], by simp⟩

@[simp] theorem faithful_u32 : Faithful fun n : UInt32 => nat n.toNat :=
  ⟨by simp [UInt32.toNat_inj], by simp⟩

@[simp] theorem faithful_u64 : Faithful fun n : UInt64 => nat n.toNat :=
  ⟨by simp [UInt64.toNat_inj], by simp⟩

end Value

/-! ## Statements -/

@[simp] theorem AutoIncrement.faithful : Faithful AutoIncrement.toValue :=
  faithful_object fun a b => by
    cases a
    cases b
    simp [UInt16.toNat_inj]

@[simp] theorem Charset.faithful : Faithful Charset.toValue :=
  faithful_object fun a b => by
    cases a
    cases b
    simp [UInt16.toNat_inj]

@[simp] theorem Invoker.faithful : Faithful Invoker.toValue :=
  faithful_object fun a b => by
    cases a
    cases b
    simp

@[simp] theorem StatusVars.faithful : Faithful StatusVars.toValue :=
  faithful_object fun a b => by
    cases a
    cases b
    simp

theorem QueryHead.fields_inj {a b : QueryHead} : a.fields = b.fields ↔ a = b := by
  cases a
  cases b
  simp [fields, UInt8.toNat_inj, UInt16.toNat_inj, UInt32.toNat_inj]

theorem Statement.fields_inj {a b : Statement} : a.fields = b.fields ↔ a = b := by
  cases a
  cases b
  simp [fields, StatusVars.faithful.eq_iff]

theorem LoadedFile.fields_inj {a b : LoadedFile} : a.fields = b.fields ↔ a = b := by
  cases a
  cases b
  simp [fields, UInt8.toNat_inj, UInt32.toNat_inj]

@[simp] theorem Query.faithful : Faithful Query.toValue :=
  faithful_object fun a b => by
    refine ⟨fun h => ?_, fun h => by rw [h]⟩
    obtain ⟨hhead, hstatement⟩ := List.append_inj h rfl
    cases a
    cases b
    exact (mk.injEq ..).mpr ⟨QueryHead.fields_inj.mp hhead, Statement.fields_inj.mp hstatement⟩

@[simp] theorem BeginLoad.faithful : Faithful BeginLoad.toValue :=
  faithful_object fun a b => by
    cases a
    cases b
    simp [UInt32.toNat_inj, Base64.text_inj]

@[simp] theorem ExecuteLoad.faithful : Faithful ExecuteLoad.toValue :=
  faithful_object fun a b => by
    refine ⟨fun h => ?_, fun h => by rw [h]⟩
    obtain ⟨h, hstatement⟩ := List.append_inj h rfl
    obtain ⟨hhead, hfile⟩ := List.append_inj h rfl
    cases a
    cases b
    exact (mk.injEq ..).mpr ⟨QueryHead.fields_inj.mp hhead, LoadedFile.fields_inj.mp hfile,
      Statement.fields_inj.mp hstatement⟩

@[simp] theorem RowsQuery.faithful : Faithful RowsQuery.toValue :=
  faithful_object fun a b => by
    cases a
    cases b
    simp [UInt8.toNat_inj]

@[simp] theorem AnnotateRows.faithful : Faithful AnnotateRows.toValue :=
  faithful_object fun a b => by
    cases a
    cases b
    simp [Base64.text_inj]

/-! ## Values of a session -/

@[simp] theorem IntvarKey.faithful : Faithful IntvarKey.toValue where
  eq_iff a b := by cases a <;> cases b <;> simp [toValue, choice, UInt8.toNat_inj]
  ne_null a := by cases a <;> simp [toValue, choice]

@[simp] theorem Intvar.faithful : Faithful Intvar.toValue :=
  faithful_object fun a b => by
    cases a
    cases b
    simp [IntvarKey.faithful.eq_iff, UInt64.toNat_inj]

@[simp] theorem Rand.faithful : Faithful Rand.toValue :=
  faithful_object fun a b => by
    cases a
    cases b
    simp [UInt64.toNat_inj]

/-! ## Files -/

@[simp] theorem Rotate.faithful : Faithful Rotate.toValue :=
  faithful_object fun a b => by
    cases a
    cases b
    simp [UInt64.toNat_inj]

@[simp] theorem Heartbeat.faithful : Faithful Heartbeat.toValue :=
  faithful_object fun a b => by
    cases a
    cases b
    simp

@[simp] theorem BinlogCheckpoint.faithful : Faithful BinlogCheckpoint.toValue :=
  faithful_object fun a b => by
    cases a
    cases b
    simp

@[simp] theorem ServerVersion.faithful : Faithful ServerVersion.toValue :=
  faithful_object fun a b => by
    cases a
    cases b
    simp [UInt32.toNat_inj]

@[simp] theorem FormatDescription.faithful : Faithful FormatDescription.toValue :=
  faithful_object fun a b => by
    cases a
    cases b
    simp [UInt8.toNat_inj, UInt16.toNat_inj, UInt32.toNat_inj, ServerVersion.faithful.eq_iff,
      (faithful_ofList faithful_u8).eq_iff]

@[simp] theorem StartEncryption.faithful : Faithful StartEncryption.toValue :=
  faithful_object fun a b => by
    cases a
    cases b
    simp [UInt8.toNat_inj, UInt32.toNat_inj, Base64.text_inj]

/-! ## Transactions -/

@[simp] theorem LogicalClock.faithful : Faithful LogicalClock.toValue :=
  faithful_object fun a b => by
    cases a
    cases b
    simp [UInt8.toNat_inj, UInt64.toNat_inj]

@[simp] theorem CommitInfo.faithful : Faithful CommitInfo.toValue :=
  faithful_object fun a b => by
    cases a
    cases b
    simp [UInt64.toNat_inj]

@[simp] theorem GtidEvent.faithful : Faithful GtidEvent.toValue :=
  faithful_object fun a b => by
    cases a
    cases b
    simp [Gtid.text_inj]

@[simp] theorem PreviousGtids.faithful : Faithful PreviousGtids.toValue :=
  faithful_object fun a b => by
    cases a
    cases b
    simp [GtidSet.toValue, GtidSet.text_inj]

@[simp] theorem Xid.faithful : Faithful Xid.toValue :=
  faithful_object fun a b => by
    cases a
    cases b
    simp [UInt64.toNat_inj]

@[simp] theorem XaId.faithful : Faithful XaId.toValue :=
  faithful_object fun a b => by
    cases a
    cases b
    simp [UInt32.toNat_inj]

@[simp] theorem XaPrepare.faithful : Faithful XaPrepare.toValue :=
  faithful_object fun a b => by
    cases a
    cases b
    simp [XaId.faithful.eq_iff]

@[simp] theorem DomainGtidEvent.faithful : Faithful DomainGtidEvent.toValue :=
  faithful_object fun a b => by
    cases a
    cases b
    simp [UInt8.toNat_inj, DomainGtid.text_inj]

@[simp] theorem DomainGtidList.faithful : Faithful DomainGtidList.toValue :=
  faithful_object fun a b => by
    cases a
    cases b
    have htext : Faithful fun g : DomainGtid => text g.text :=
      ⟨by simp [DomainGtid.text_inj], by simp⟩
    simp [UInt8.toNat_inj, (faithful_ofList htext).eq_iff]

/-! ## User variables -/

/-- The values are exported alike. -/
def UserValue.Alike : UserValue → UserValue → Prop
  | real bits, real bits' => bits = bits' ∨ ¬ Real.isFinite bits ∧ ¬ Real.isFinite bits'
  | decimal d, decimal d' => d.text = d'.text
  | v, v' => v = v'

theorem UserValue.toValue_real_eq_iff {bits bits' : UInt64} :
    (real bits).toValue = (real bits').toValue ↔ (real bits).Alike (real bits') := by
  rw [toValue, toValue, choice, choice, object.injEq, List.cons.injEq, Prod.mk.injEq]
  by_cases h : Real.isFinite bits
  · by_cases h' : Real.isFinite bits'
    · simp [Alike, h, h']
    · have hne : bits ≠ bits' := fun heq => h' (heq ▸ h)
      simp [Alike, h, h', hne]
  · by_cases h' : Real.isFinite bits'
    · have hne : bits ≠ bits' := fun heq => h (heq ▸ h')
      simp [Alike, h, h', hne]
    · simp [Alike, h, h']

theorem UserValue.toValue_eq_iff {v v' : UserValue} : v.toValue = v'.toValue ↔ v.Alike v' := by
  cases v <;> cases v'
  case real.real => exact toValue_real_eq_iff
  all_goals simp [toValue, choice, Alike, Base64.text_inj, UInt64.toNat_inj, Int64.toInt_inj]

/-- The variables agree in all but their values, and these are exported alike. -/
def TypedVar.Alike (v v' : TypedVar) : Prop :=
  v.valueType = v'.valueType ∧ v.charset = v'.charset ∧ v.unsigned = v'.unsigned ∧
    v.value.Alike v'.value

theorem TypedVar.toValue_eq_iff {v v' : TypedVar} : v.toValue = v'.toValue ↔ v.Alike v' := by
  have hflags : v.flags = v'.flags ↔ v.unsigned = v'.unsigned := by
    rw [flags, flags]
    cases v.unsigned <;> cases v'.unsigned <;> simp
  simp [toValue, Alike, UInt8.toNat_inj, UInt32.toNat_inj, hflags, UserValue.toValue_eq_iff]

/-- The variables have the same name, and both are NULL or have values that are exported alike. -/
def UserVar.Alike (v v' : UserVar) : Prop :=
  v.name = v'.name ∧ match v.value, v'.value with
    | none, none => True
    | some a, some b => a.Alike b
    | _, _ => False

theorem UserVar.toValue_eq_iff {v v' : UserVar} : v.toValue = v'.toValue ↔ v.Alike v' := by
  rw [toValue, toValue, Alike]
  cases v.value <;> cases v'.value <;> simp [choice, TypedVar.toValue_eq_iff]

/-! ## Events -/

theorem EventKind.tag_inj {k k' : EventKind} : k.tag = k'.tag ↔ k = k' := by
  refine ⟨fun h => ?_, congrArg _⟩
  cases k <;> cases k' <;> first | rfl | exact absurd h (by decide)

/-- The payloads are the same, or variables that are exported alike. -/
def Payload.Alike : Payload → Payload → Prop
  | userVar v, userVar v' => v.Alike v'
  | p, p' => p = p'

theorem Payload.kind_eq_of_alike {p p' : Payload} (h : p.Alike p') : p.kind = p'.kind := by
  cases p <;> cases p' <;> first | rfl | cases h

theorem Payload.toValue_eq_iff {p p' : Payload} (hkind : p.kind = p'.kind) :
    p.toValue = p'.toValue ↔ p.Alike p' := by
  cases p <;> cases p' <;> cases hkind
  case userVar.userVar => exact UserVar.toValue_eq_iff
  all_goals
    simp [toValue, Alike, Query.faithful.eq_iff, Rotate.faithful.eq_iff, Intvar.faithful.eq_iff,
      Rand.faithful.eq_iff, FormatDescription.faithful.eq_iff, Xid.faithful.eq_iff,
      BeginLoad.faithful.eq_iff, ExecuteLoad.faithful.eq_iff, Heartbeat.faithful.eq_iff,
      RowsQuery.faithful.eq_iff, GtidEvent.faithful.eq_iff, PreviousGtids.faithful.eq_iff,
      XaPrepare.faithful.eq_iff, AnnotateRows.faithful.eq_iff, BinlogCheckpoint.faithful.eq_iff,
      DomainGtidEvent.faithful.eq_iff, DomainGtidList.faithful.eq_iff,
      StartEncryption.faithful.eq_iff]

theorem Header.faithful : Faithful Header.toValue :=
  faithful_object fun a b => by
    cases a
    cases b
    simp [UInt8.toNat_inj, UInt16.toNat_inj, UInt32.toNat_inj]

theorem ChecksumState.faithful : Faithful ChecksumState.toValue where
  eq_iff a b := by cases a <;> cases b <;> simp [toValue]
  ne_null a := by cases a <;> simp [toValue]

/-- The events have the same frame, and their payloads are exported alike. -/
def Event.Alike (e e' : Event) : Prop :=
  e.header = e'.header ∧ e.crc32 = e'.crc32 ∧ e.checksum = e'.checksum ∧
    e.eventSize = e'.eventSize ∧ e.bytesConsumed = e'.bytesConsumed ∧ e.data.Alike e'.data

theorem Event.toValue_eq_iff {e e' : Event} : e.toValue = e'.toValue ↔ e.Alike e' := by
  have hfields : e.toValue = e'.toValue ↔ e.data.kind = e'.data.kind ∧ e.header = e'.header ∧
      e.data.toValue = e'.data.toValue ∧ e.crc32 = e'.crc32 ∧ e.checksum = e'.checksum ∧
      e.eventSize = e'.eventSize ∧ e.bytesConsumed = e'.bytesConsumed := by
    simp [toValue, Framed.fields, EventKind.tag_inj, Header.faithful.eq_iff,
      ChecksumState.faithful.eq_iff]
  rw [hfields]
  refine ⟨?_, ?_⟩
  · rintro ⟨hkind, hheader, hdata, hcrc, hchecksum, hsize, hconsumed⟩
    exact ⟨hheader, hcrc, hchecksum, hsize, hconsumed, (Payload.toValue_eq_iff hkind).mp hdata⟩
  · rintro ⟨hheader, hcrc, hchecksum, hsize, hconsumed, hdata⟩
    have hkind := Payload.kind_eq_of_alike hdata
    exact ⟨hkind, hheader, (Payload.toValue_eq_iff hkind).mpr hdata, hcrc, hchecksum, hsize,
      hconsumed⟩

/-- **Faithful exports.** Events are exported alike just when they are of the same kind, have the
same header, checksum, verdict and sizes, and hold the same data, up to real numbers that are not
finite and decimals of the same text. In particular the texts of transaction ids and sets of
transactions determine them, with the order of their groups and intervals, and base64 determines the
bytes. -/
theorem Event.toValue_faithful :
    (∀ e e' : Event, e.toValue = e'.toValue ↔ e.Alike e') ∧
      (∀ g g' : Gtid, g.text = g'.text ↔ g = g') ∧
      (∀ g g' : DomainGtid, g.text = g'.text ↔ g = g') ∧
      (∀ s s' : GtidSet, s.text = s'.text ↔ s.groups = s'.groups) ∧
      ∀ bs bs' : Bytes, Base64.text bs = Base64.text bs' ↔ bs = bs' := by
  refine ⟨fun e e' => toValue_eq_iff, fun g g' => Gtid.text_inj, fun g g' => DomainGtid.text_inj,
    fun s s' => GtidSet.text_inj.trans ?_, fun bs bs' => Base64.text_inj⟩
  cases s
  cases s'
  rw [GtidSet.mk.injEq]

end Binlog
