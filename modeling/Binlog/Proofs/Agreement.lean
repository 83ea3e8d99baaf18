import Binlog.Proofs.Sources

/-!
# Which errors a decoder has

Every decoder that reads from its source alone agrees with itself over any two related sources. The
errors it may have are hypotheses: bytes that are missing, for all of them; malformed text, for
those that read strict text; and so on for the causes that only one or two decoders know.

A decoder without a hypothesis of its own has no other error than missing bytes. The decoders that
read a part of their data from bytes of its own are treated where their guarded forms are.
-/

namespace Binlog

open Reader

variable {σ τ ε : Type} [ByteSource σ] [ByteSource τ] [OfReadError ε] {R : σ → τ → Prop}
  {E : ε → Prop} {D : DecodeError → Prop}

/-! ## Text -/

omit [ByteSource σ] [ByteSource τ] in
theorem Reader.Agrees.strictText (htext : ∀ cause, D (.malformedText cause)) (bs : Bytes) :
    Agrees R D (Reader.strictText bs) (Reader.strictText bs) := by
  unfold Reader.strictText
  cases Utf8.decode bs with
  | ok s => exact .pure s
  | error cause => exact .throw (htext cause)

theorem Reader.Agrees.optionalText (h : Simulation R D)
    (htext : ∀ cause, D (.malformedText cause)) :
    Agrees R D Reader.optionalText Reader.optionalText := by
  refine (Agrees.takePrefixed h (.inl (by decide))).bind fun bs => ?_
  refine .ite (fun _ => .pure none) fun _ => ?_
  exact (Agrees.strictText htext bs).bind fun s => .pure (some s)

/-! ## Headers -/

theorem Header.agrees_read (h : Simulation R E) :
    Agrees R E (Header.read : Reader σ ε Header) Header.read := by
  refine (Agrees.u32 h).bind fun timestamp => ?_
  refine (Agrees.u8 h).bind fun typeCode => ?_
  refine (Agrees.u32 h).bind fun serverId => ?_
  refine (Agrees.u32 h).bind fun eventLength => ?_
  refine (Agrees.u32 h).bind fun nextPosition => ?_
  exact (Agrees.u16 h).bind fun flags => .pure _

/-! ## Statements -/

theorem QueryHead.agrees_read (h : Simulation R E) :
    Agrees R E (QueryHead.read : Reader σ ε QueryHead) QueryHead.read := by
  refine (Agrees.u32 h).bind fun slaveProxyId => ?_
  refine (Agrees.u32 h).bind fun execTime => ?_
  refine (Agrees.u8 h).bind fun schemaLength => ?_
  refine (Agrees.u16 h).bind fun errorCode => ?_
  exact (Agrees.u16 h).bind fun statusVarsLength => .pure _

theorem LoadedFile.agrees_read (h : Simulation R E) :
    Agrees R E (LoadedFile.read : Reader σ ε LoadedFile) LoadedFile.read := by
  refine (Agrees.u32 h).bind fun fileId => ?_
  refine (Agrees.u32 h).bind fun startPosition => ?_
  refine (Agrees.u32 h).bind fun endPosition => ?_
  exact (Agrees.u8 h).bind fun duplicateHandling => .pure _

theorem BeginLoad.agrees_read (h : Simulation R E) :
    Agrees R E (BeginLoad.read : Reader σ ε BeginLoad) BeginLoad.read :=
  (Agrees.u32 h).bind fun _ => (Agrees.rest h).bind fun _ => .pure _

namespace StatusVar

theorem agrees_readName (h : Simulation R D) (htext : ∀ cause, D (.malformedText cause))
    (hunknown : D (.read (.incomplete .unknown))) :
    Agrees R D readName readName :=
  (Agrees.takeUntil h hunknown 0 false).bind fun bs => .strictText htext bs

theorem agrees_readValue (h : Simulation R D) (htext : ∀ cause, D (.malformedText cause))
    (hunknown : D (.read (.incomplete .unknown))) (key : StatusKey) :
    Agrees R D (readValue key) (readValue key) := by
  cases key with
  | flags2 => exact (Agrees.u32 h).bind fun bits => .pure _
  | sqlMode | tableMapForUpdate | ddlLoggedWithXid | xid =>
    exact (Agrees.u64 h).bind fun n => .pure _
  | lcTimeNames | charsetDatabase | defaultCollationForUtf8mb4 =>
    exact (Agrees.u16 h).bind fun code => .pure _
  | microseconds | hrnow => exact (Agrees.u24 h).bind fun n => .pure _
  | explicitDefaultsForTimestamp | sqlRequirePrimaryKey | defaultTableEncryption =>
    exact (Agrees.u8 h).bind fun n => .pure _
  | autoIncrement =>
    refine (Agrees.u16 h).bind fun increment => ?_
    exact (Agrees.u16 h).bind fun offset => .pure _
  | charset =>
    refine (Agrees.u16 h).bind fun client => ?_
    refine (Agrees.u16 h).bind fun connection => ?_
    exact (Agrees.u16 h).bind fun server => .pure _
  | timeZone | catalogNz => exact (Agrees.optionalText h htext).bind fun s => .pure _
  | invoker =>
    refine (Agrees.optionalText h htext).bind fun user => ?_
    exact (Agrees.optionalText h htext).bind fun host => .pure _
  | updatedDbNames =>
    refine (Agrees.u8 h).bind fun n => .ite (fun _ => .pure _) fun _ => ?_
    exact (Agrees.count (agrees_readName h htext hunknown) n.toNat).bind fun names => .pure _
  | catalog | masterDataWritten | commitTs | commitTs2 => exact .pure _

theorem agrees_read (h : Simulation R D) (htext : ∀ cause, D (.malformedText cause))
    (hunknown : D (.read (.incomplete .unknown))) (hkey : ∀ key, D (.unknownStatusVariable key)) :
    Agrees R D read read := by
  refine (Agrees.u8 h).bind fun code => ?_
  cases StatusKey.ofCode? code with
  | some key => exact agrees_readValue h htext hunknown key
  | none => exact .throw (hkey code)

end StatusVar

theorem StatusVars.agrees_read (h : Simulation R D) (htext : ∀ cause, D (.malformedText cause))
    (hunknown : D (.read (.incomplete .unknown))) (hkey : ∀ key, D (.unknownStatusVariable key)) :
    Agrees R D StatusVars.read StatusVars.read :=
  (Agrees.untilEnd h (StatusVar.agrees_read h htext hunknown hkey)).bind fun _ => .pure _

/-! ## Files and values -/

theorem Rotate.agrees_read (h : Simulation R D) (htext : ∀ cause, D (.malformedText cause)) :
    Agrees R D Rotate.read Rotate.read := by
  refine (Agrees.u64 h).bind fun position => ?_
  refine (Agrees.rest h).bind fun bs => ?_
  exact (Agrees.strictText htext bs).bind fun nextFile => .pure _

theorem Heartbeat.agrees_read (h : Simulation R D) (htext : ∀ cause, D (.malformedText cause)) :
    Agrees R D Heartbeat.read Heartbeat.read :=
  (Agrees.rest h).bind fun bs => (Agrees.strictText htext bs).bind fun _ => .pure _

theorem BinlogCheckpoint.agrees_read (h : Simulation R D)
    (htext : ∀ cause, D (.malformedText cause)) :
    Agrees R D BinlogCheckpoint.read BinlogCheckpoint.read :=
  (Agrees.takePrefixed h (.inl (by decide))).bind fun bs =>
    (Agrees.strictText htext bs).bind fun _ => .pure _

theorem Intvar.agrees_read (h : Simulation R E) :
    Agrees R E (Intvar.read : Reader σ ε Intvar) Intvar.read := by
  refine (Agrees.u8 h).bind fun key => ?_
  refine (Agrees.u32 h).bind fun low => ?_
  refine (Agrees.left h).bind fun left => ?_
  exact .ite_bind (fun _ => .u32 h) (fun _ => .pure 0) fun high => .pure _

theorem Rand.agrees_read (h : Simulation R E) :
    Agrees R E (Rand.read : Reader σ ε Rand) Rand.read :=
  (Agrees.u64 h).bind fun _ => (Agrees.u64 h).bind fun _ => .pure _

/-! ## Ends of transactions -/

theorem Xid.agrees_read (h : Simulation R E) : Agrees R E (Xid.read : Reader σ ε Xid) Xid.read :=
  (Agrees.u64 h).bind fun _ => .pure _

theorem XaId.agrees_readParts (h : Simulation R E) (formatId : UInt32) (n m : Nat) :
    Agrees R E (XaId.readParts formatId n m : Reader σ ε XaId) (XaId.readParts formatId n m) :=
  (Agrees.take h n).bind fun _ => (Agrees.take h m).bind fun _ => .pure _

theorem XaPrepare.agrees_read (h : Simulation R E) :
    Agrees R E (XaPrepare.read : Reader σ ε XaPrepare) XaPrepare.read := by
  refine (Agrees.u8 h).bind fun onePhase => ?_
  refine (Agrees.u32 h).bind fun formatId => ?_
  refine (Agrees.u32 h).bind fun globalLength => ?_
  refine (Agrees.u32 h).bind fun branchLength => ?_
  exact (XaId.agrees_readParts h _ _ _).bind fun id => .pure _

/-! ## Statement texts -/

theorem RowsQuery.agrees_read (h : Simulation R E) :
    Agrees R E (RowsQuery.read : Reader σ ε RowsQuery) RowsQuery.read :=
  (Agrees.u8 h).bind fun _ => (Agrees.rest h).bind fun _ => .pure _

theorem AnnotateRows.agrees_read (h : Simulation R E) :
    Agrees R E (AnnotateRows.read : Reader σ ε AnnotateRows) AnnotateRows.read :=
  (Agrees.rest h).bind fun _ => .pure _

/-! ## Transactions -/

theorem SourceId.agrees_read (h : Simulation R E) :
    Agrees R E (SourceId.read : Reader σ ε SourceId) SourceId.read :=
  (Agrees.number h _).bind fun _ => .pure _

theorem LogicalClock.agrees_read (h : Simulation R E) :
    Agrees R E (LogicalClock.read : Reader σ ε LogicalClock) LogicalClock.read :=
  (Agrees.u8 h).bind fun _ => (Agrees.u64 h).bind fun _ => (Agrees.u64 h).bind fun _ => .pure _

namespace CommitInfo

theorem agrees_readTimes (h : Simulation R E) :
    Agrees R E (readTimes : Reader σ ε (UInt64 × UInt64)) readTimes := by
  refine (Agrees.u56 h).bind fun time => .ite (fun _ => ?_) fun _ => .pure _
  exact (Agrees.u56 h).bind fun origin => .pure _

theorem agrees_readVersions (h : Simulation R E) :
    Agrees R E (readVersions : Reader σ ε (Option UInt32 × Option UInt32)) readVersions := by
  refine (Agrees.left h).bind fun left => .ite (fun _ => .pure _) fun _ => ?_
  refine (Agrees.u32 h).bind fun version => .ite (fun _ => ?_) fun _ => .pure _
  exact (Agrees.u32 h).bind fun origin => .pure _

theorem agrees_read (h : Simulation R E) :
    Agrees R E (read : Reader σ ε CommitInfo) read := by
  refine (agrees_readTimes h).bind fun (time, origin) => ?_
  refine (Agrees.hasMore h).bind fun more => ?_
  refine .ite_bind (fun _ => .map _ (.lenEncInt h)) (fun _ => .pure none) fun length => ?_
  refine (agrees_readVersions h).bind fun (version, originVersion) => ?_
  refine (Agrees.left h).bind fun left => ?_
  exact .ite_bind (fun _ => .map _ (.u64 h)) (fun _ => .pure none) fun ticket => .pure _

end CommitInfo

theorem GtidEvent.agrees_read (h : Simulation R E) (version : Option ServerVersion) :
    Agrees R E (GtidEvent.read version : Reader σ ε GtidEvent) (GtidEvent.read version) := by
  refine (Agrees.u8 h).bind fun commitFlag => ?_
  refine (SourceId.agrees_read h).bind fun source => ?_
  refine (Agrees.u64 h).bind fun number => ?_
  refine (Agrees.left h).bind fun left => ?_
  have hclock := LogicalClock.agrees_read (ε := ε) h
  refine .ite_bind (fun _ => .map _ hclock) (fun _ => .pure none) fun clock => ?_
  refine (Agrees.left h).bind fun left => ?_
  exact .ite_bind (fun _ => .map _ (CommitInfo.agrees_read h)) (fun _ => .pure none) fun commit =>
    .pure _

theorem GtidInterval.agrees_read (h : Simulation R E) :
    Agrees R E (GtidInterval.read : Reader σ ε GtidInterval) GtidInterval.read :=
  (Agrees.i64 h).bind fun _ => (Agrees.u64 h).bind fun _ => .pure _

theorem GtidSet.agrees_readGroup (h : Simulation R E) :
    Agrees R E (GtidSet.readGroup : Reader σ ε GtidGroup) GtidSet.readGroup := by
  refine (SourceId.agrees_read h).bind fun source => ?_
  refine (Agrees.u64 h).bind fun n => ?_
  exact (Agrees.count (GtidInterval.agrees_read h) n.toNat).bind fun intervals => .pure _

theorem GtidSet.agrees_read (h : Simulation R D) (hcount : ∀ n, D (.negativeSourceCount n)) :
    Agrees R D GtidSet.read GtidSet.read := by
  refine (Agrees.i64 h).bind fun n => .ite (fun _ => .throw (hcount n)) fun _ => ?_
  exact (Agrees.count (GtidSet.agrees_readGroup h) _).bind fun groups => .pure _

theorem PreviousGtids.agrees_read (h : Simulation R D)
    (hcount : ∀ n, D (.negativeSourceCount n)) :
    Agrees R D PreviousGtids.read PreviousGtids.read :=
  (GtidSet.agrees_read h hcount).bind fun _ => .pure _

/-! ## Events of MariaDB -/

theorem DomainGtid.agrees_read (h : Simulation R E) :
    Agrees R E (DomainGtid.read : Reader σ ε DomainGtid) DomainGtid.read :=
  (Agrees.u32 h).bind fun _ => (Agrees.u32 h).bind fun _ => (Agrees.u64 h).bind fun _ => .pure _

theorem DomainGtidEvent.agrees_readXid (h : Simulation R E) :
    Agrees R E (DomainGtidEvent.readXid : Reader σ ε XaId) DomainGtidEvent.readXid := by
  refine (Agrees.u32 h).bind fun formatId => ?_
  refine (Agrees.u8 h).bind fun globalLength => ?_
  exact (Agrees.u8 h).bind fun branchLength => XaId.agrees_readParts h _ _ _

theorem DomainGtidEvent.agrees_read (h : Simulation R E) (server : UInt32) :
    Agrees R E (DomainGtidEvent.read server : Reader σ ε DomainGtidEvent)
      (DomainGtidEvent.read server) := by
  refine (Agrees.u64 h).bind fun sequence => ?_
  refine (Agrees.u32 h).bind fun domain => ?_
  refine (Agrees.u8 h).bind fun flags => ?_
  refine .ite_bind (fun _ => .map _ (.u64 h)) (fun _ => .pure none) fun commitId => ?_
  refine .ite_bind (fun _ => .map _ (agrees_readXid h)) (fun _ => .pure none) fun xid => ?_
  exact (Agrees.rest h).bind fun padding => .pure _

theorem DomainGtidList.agrees_read (h : Simulation R E) :
    Agrees R E (DomainGtidList.read : Reader σ ε DomainGtidList) DomainGtidList.read := by
  refine (Agrees.u32 h).bind fun word => ?_
  exact (Agrees.count (DomainGtid.agrees_read h) _).bind fun gtids => .pure _

theorem StartEncryption.agrees_read (h : Simulation R E) :
    Agrees R E (StartEncryption.read : Reader σ ε StartEncryption) StartEncryption.read := by
  refine (Agrees.u8 h).bind fun scheme => ?_
  refine (Agrees.u32 h).bind fun keyVersion => ?_
  exact (Agrees.take h _).bind fun nonce => .pure _

end Binlog
