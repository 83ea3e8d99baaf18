import Binlog.Proofs.Agreement
import Binlog.Proofs.GuardedCursor

/-!
# Guarded payloads

The guarded reader of each kind of payload does what the reader does, without a fault
(`Payload.agrees_readGuarded`). The same walk over the readers gives the errors that each kind can
end with.

**Places.** The decoders that compute a place have looked at a length before: a decimal at its
digits, a format description at the entry of its table. What is computed is in range for that
reason, which is proved once for each of these functions. The bytes that a part is read from were
counted by a number of at most four bytes, so they are fewer than a machine word can say.
-/

namespace Binlog

open Reader GuardedCursor

/-! ## Decimals -/

namespace Decimal

variable {precision scale : Nat}

theorem layoutSize_append (l l' : List Nat) :
    layoutSize (l ++ l') = layoutSize l + layoutSize l' := by
  induction l with
  | nil => simp [layoutSize]
  | cons digits l ih =>
    change groupWidth digits + layoutSize (l ++ l') = groupWidth digits + layoutSize l + _
    rw [ih, Nat.add_assoc]

theorem layoutSize_shortGroup (digits : Nat) :
    layoutSize (shortGroup digits) = groupWidth (digits % 9) := by
  unfold shortGroup
  split
  next h =>
    rw [h]
    rfl
  next => rfl

theorem layoutSize_replicate (n : Nat) : layoutSize (List.replicate n 9) = n * 4 := by
  induction n with
  | zero => rfl
  | succ n ih =>
    change 4 + layoutSize (List.replicate n 9) = _
    rw [ih, Nat.succ_mul, Nat.add_comm]

theorem groups_append (l l' : List Nat) (bs : Bytes) :
    groups (l ++ l') bs = groups l bs ++ groups l' (bs.drop (layoutSize l)) := by
  induction l generalizing bs with
  | nil => rfl
  | cons digits l ih =>
    have hsize : layoutSize (digits :: l) = groupWidth digits + layoutSize l := rfl
    rw [List.cons_append, groups, groups, ih, hsize, List.drop_drop, List.cons_append]

/-! ### Sizes -/

theorem size_eq (precision scale : Nat) : size precision scale =
    (precision - scale) / 9 * 4 + groupWidth ((precision - scale) % 9) + scale / 9 * 4 +
      groupWidth (scale % 9) := by
  rw [size, integerLayout, fractionLayout, layoutSize_append, layoutSize_append,
    layoutSize_shortGroup, layoutSize_shortGroup, layoutSize_replicate, layoutSize_replicate]
  omega

theorem size_pos (h : Admitted precision scale) : 0 < size precision scale := by
  obtain ⟨hone, -, -, -⟩ := h
  rw [size_eq]
  simp only [groupWidth]
  omega

theorem size_le (h : Admitted precision scale) : size precision scale ≤ 4 * maxPrecision := by
  obtain ⟨-, hmax, -, hle⟩ := h
  rw [size_eq]
  simp only [groupWidth]
  simp only [maxPrecision] at hmax ⊢
  omega

theorem size_lt (h : Admitted precision scale) : size precision scale < 2 ^ 64 :=
  Nat.lt_of_le_of_lt (size_le h) (by decide)

theorem get_widths (digits : Nat) :
    Guard.get widths (digits % 9) = .ok (groupWidth (digits % 9)) := by
  have hall : ∀ k < 9, widths[k]? = some (groupWidth k) := by decide
  unfold Guard.get
  rw [hall _ (Nat.mod_lt _ (by decide))]

theorem sizeGuarded_eq (h : Admitted precision scale) :
    sizeGuarded precision scale = .ok (size precision scale) := by
  refine Except.bind_eq_ok_iff.mpr ⟨precision - scale, if_pos h.2.2.2, ?_⟩
  refine Except.bind_eq_ok_iff.mpr ⟨_, get_widths (precision - scale), ?_⟩
  refine Except.bind_eq_ok_iff.mpr ⟨_, get_widths scale, ?_⟩
  rw [← size_eq]
  exact if_pos (size_lt h)

/-! ### Groups -/

/-- A reader gives the numbers of a row of groups, if these are left. -/
def ReadsGroups (r : Reader GuardedCursor DecodeError (List Nat)) (layout : List Nat) : Prop :=
  ∀ s : Bytes, layoutSize layout ≤ s.length →
    Reads r s (groups layout s) (s.drop (layoutSize layout))

theorem reads_readGroup {digits : Nat} (hlow : 0 < digits) {s : Bytes}
    (hs : groupWidth digits ≤ s.length) :
    Reads (readGroup (groupWidth digits)) s (Bytes.toNatBE (s.take (groupWidth digits)))
      (s.drop (groupWidth digits)) := by
  have hnumber : readGroup (groupWidth digits) = Reader.number (.big (groupWidth digits)) := by
    have hwidth : 1 ≤ groupWidth digits ∧ groupWidth digits ≤ 4 := by
      simp only [groupWidth]
      omega
    generalize groupWidth digits = width at hwidth
    obtain rfl | rfl | rfl | rfl : width = 1 ∨ width = 2 ∨ width = 3 ∨ width = 4 := by omega
    all_goals rfl
  rw [hnumber]
  exact reads_number (.big (groupWidth digits)) hs

theorem reads_readShortGroup (digits : Nat) :
    ReadsGroups (readShortGroup digits) (shortGroup digits) := by
  intro s hs
  unfold readShortGroup shortGroup at *
  by_cases hzero : digits % 9 = 0
  · rw [if_pos hzero, if_pos hzero]
    exact .pure [] s
  · rw [if_neg hzero] at hs
    rw [if_neg hzero, if_neg hzero]
    refine .check_bind (get_widths digits) ?_
    exact (reads_readGroup (Nat.pos_of_ne_zero hzero) hs).bind (.pure _ _)

theorem reads_count_readGroup (n : Nat) :
    ReadsGroups (Reader.count (readGroup 4) n) (List.replicate n 9) := by
  induction n with
  | zero => exact fun s _ => .pure [] s
  | succ n ih =>
    intro s hs
    have hcons : layoutSize (List.replicate (n + 1) 9) =
        groupWidth 9 + layoutSize (List.replicate n 9) := rfl
    rw [hcons] at hs ⊢
    rw [← List.drop_drop]
    refine (reads_readGroup (show 0 < 9 by decide) (by omega)).bind ?_
    exact (ih (s.drop (groupWidth 9)) (by rw [List.length_drop]; omega)).bind (.pure _ _)

theorem reads_append {x y : Reader GuardedCursor DecodeError (List Nat)} {l l' : List Nat}
    (hx : ReadsGroups x l) (hy : ReadsGroups y l') :
    ReadsGroups (do return (← x) ++ (← y)) (l ++ l') := by
  intro s hs
  rw [layoutSize_append] at hs
  rw [groups_append, layoutSize_append, ← List.drop_drop]
  refine (hx s (by omega)).bind ?_
  exact (hy (s.drop (layoutSize l)) (by rw [List.length_drop]; omega)).bind (.pure _ _)

theorem reads_readGroups {magnitude : Bytes} (hlen : magnitude.length = size precision scale) :
    let rest := magnitude.drop (layoutSize (integerLayout precision scale))
    Reads (readGroups (precision - scale) scale) magnitude
      (groups (integerLayout precision scale) magnitude, groups (fractionLayout scale) rest)
      (rest.drop (layoutSize (fractionLayout scale))) := by
  intro rest
  have hinteger : ReadsGroups (readInteger (precision - scale)) (integerLayout precision scale) :=
    reads_append (reads_readShortGroup _) (reads_count_readGroup _)
  have hfraction : ReadsGroups (readFraction scale) (fractionLayout scale) :=
    reads_append (reads_count_readGroup _) (reads_readShortGroup _)
  rw [size] at hlen
  have hrest : layoutSize (fractionLayout scale) ≤ rest.length := by
    rw [List.length_drop]
    omega
  exact (hinteger magnitude (by omega)).bind ((hfraction rest hrest).bind (.pure _ _))

theorem length_magnitude (block : Bytes) : (magnitude block).length = block.length := by
  have hflip : (flipTop block).length = block.length := by cases block <;> rfl
  unfold magnitude complement
  split
  · rw [List.length_map, hflip]
  · exact hflip

variable {buffer : Bytes} {D : DecodeError → Prop}

theorem agrees_readGuarded (hsize : ∀ n, D (.read (.incomplete (.size n))))
    (hdecimal : ∀ cause, D (.malformedDecimal cause)) (precision scale : Nat) :
    Agrees (Follows buffer) D (readGuarded precision scale) (read precision scale) := by
  have hsim := simulation buffer (ε := DecodeError) hsize
  refine .ite (fun hadm => ?_) fun _ => .throw (hdecimal _)
  refine agrees_check_bind (sizeGuarded_eq hadm) ((Agrees.left hsim).bind fun left => ?_)
  refine .ite (fun _ => .throw (hdecimal _)) fun _ => ?_
  refine agrees_take_bind hsim fun block hlen => ?_
  -- a block has a first byte, which holds the sign
  cases block with
  | nil => exact absurd hlen (Nat.ne_of_lt (size_pos hadm))
  | cons top rest =>
    refine agrees_check_bind (a := top) rfl ?_
    refine agrees_check_bind (a := precision - scale) (if_pos hadm.2.2.2) ?_
    have hmagnitude := (length_magnitude (top :: rest)).trans hlen
    have hlt : (magnitude (top :: rest)).length < 2 ^ 64 := by
      rw [hmagnitude]
      exact size_lt hadm
    exact agrees_within_bind hlt (reads_readGroups hmagnitude) (.pure _)

end Decimal

/-! ## User variables -/

variable {buffer : Bytes} {D : DecodeError → Prop}

theorem UserValue.agrees_readGuarded (hsize : ∀ n, D (.read (.incomplete (.size n))))
    (hdecimal : ∀ cause, D (.malformedDecimal cause)) (valueType : UInt8) (unsigned : Bool) :
    Agrees (Follows buffer) D (readGuarded valueType unsigned) (read valueType unsigned) := by
  have hsim := simulation buffer (ε := DecodeError) hsize
  unfold readGuarded read
  match valueType.toNat with
  | 0 | 3 => exact (Agrees.rest hsim).bind fun bs => .pure _
  | 1 => exact (Agrees.u64 hsim).bind fun bits => .pure _
  | 2 =>
    refine .ite (fun _ => ?_) fun _ => ?_
    · exact (Agrees.u64 hsim).bind fun n => .pure _
    · exact (Agrees.i64 hsim).bind fun n => .pure _
  | 4 =>
    refine (Agrees.u8 hsim).bind fun precision => ?_
    refine (Agrees.u8 hsim).bind fun scale => ?_
    exact (Decimal.agrees_readGuarded hsize hdecimal _ _).bind fun d => .pure _
  | _ + 5 => exact (Agrees.rest hsim).bind fun bs => .pure _

theorem TypedVar.agrees_readGuarded (hsize : ∀ n, D (.read (.incomplete (.size n))))
    (hdecimal : ∀ cause, D (.malformedDecimal cause)) :
    Agrees (Follows buffer) D readGuarded read := by
  have hsim := simulation buffer (ε := DecodeError) hsize
  refine (Agrees.u8 hsim).bind fun valueType => ?_
  refine (Agrees.u32 hsim).bind fun charset => ?_
  refine (Agrees.takePrefixed hsim (.inl (by decide))).bind_of_ok fun bs hbs => ?_
  obtain ⟨s, t, htake⟩ := hbs
  obtain ⟨hlen, -⟩ := (takePrefixed_eq_ok_iff (by decide)).mp htake
  refine (Agrees.hasMore hsim).bind fun more => ?_
  refine .ite_bind (fun _ => .u8 hsim) (fun _ => .pure 0) fun flags => ?_
  refine (agrees_within (by omega) ?_).bind fun value => .pure _
  exact UserValue.agrees_readGuarded hsize hdecimal _ _

theorem UserVar.agrees_readGuarded (hsize : ∀ n, D (.read (.incomplete (.size n))))
    (htext : ∀ cause, D (.malformedText cause)) (hdecimal : ∀ cause, D (.malformedDecimal cause)) :
    Agrees (Follows buffer) D readGuarded read := by
  have hsim := simulation buffer (ε := DecodeError) hsize
  refine (Agrees.takePrefixed hsim (.inl (by decide))).bind fun bs => ?_
  refine (Agrees.strictText htext bs).bind fun name => ?_
  refine (Agrees.u8 hsim).bind fun isNull => ?_
  refine .ite (fun _ => .pure _) fun _ => ?_
  exact (TypedVar.agrees_readGuarded hsize hdecimal).bind fun v => .pure _

/-! ## Statements -/

theorem Statement.agrees_readGuarded (hsize : ∀ n, D (.read (.incomplete (.size n))))
    (htext : ∀ cause, D (.malformedText cause)) (hunknown : D (.read (.incomplete .unknown)))
    (hkey : ∀ key, D (.unknownStatusVariable key)) (head : QueryHead) :
    Agrees (Follows buffer) D (readGuarded head) (read head) := by
  have hsim := simulation buffer (ε := DecodeError) hsize
  refine agrees_take_bind hsim fun block hlen => ?_
  have hlt := head.statusVarsLength.toNat_lt
  have hblock := simulation block (ε := DecodeError) hsize
  have hvars := StatusVars.agrees_read hblock htext hunknown hkey
  refine (agrees_within (by omega) hvars).bind fun statusVars => ?_
  refine (Agrees.take hsim _).bind fun bs => ?_
  refine (Agrees.strictText htext bs).bind fun schema => ?_
  refine (Agrees.skip hsim 1).bind fun _ => ?_
  exact (Agrees.rest hsim).bind fun text => .pure _

theorem Query.agrees_readGuarded (hsize : ∀ n, D (.read (.incomplete (.size n))))
    (htext : ∀ cause, D (.malformedText cause)) (hunknown : D (.read (.incomplete .unknown)))
    (hkey : ∀ key, D (.unknownStatusVariable key)) :
    Agrees (Follows buffer) D readGuarded read := by
  refine (QueryHead.agrees_read (simulation buffer hsize)).bind fun head => ?_
  refine (Statement.agrees_readGuarded hsize htext hunknown hkey head).bind fun statement => ?_
  exact .pure _

theorem ExecuteLoad.agrees_readGuarded (hsize : ∀ n, D (.read (.incomplete (.size n))))
    (htext : ∀ cause, D (.malformedText cause)) (hunknown : D (.read (.incomplete .unknown)))
    (hkey : ∀ key, D (.unknownStatusVariable key)) :
    Agrees (Follows buffer) D readGuarded read := by
  refine (QueryHead.agrees_read (simulation buffer hsize)).bind fun head => ?_
  refine (LoadedFile.agrees_read (simulation buffer hsize)).bind fun file => ?_
  refine (Statement.agrees_readGuarded hsize htext hunknown hkey head).bind fun statement => ?_
  exact .pure _

/-! ## Format descriptions -/

namespace ServerVersion

theorem set_length_append (filled : List UInt32) (old n : UInt32) (rest : List UInt32) :
    Guard.set (filled ++ old :: rest) filled.length n = .ok (filled ++ n :: rest) := by
  unfold Guard.set
  rw [if_pos (by simp), List.set_append_right _ _ (Nat.le_refl _), Nat.sub_self, List.set_cons_zero]

/-- The numbers go to the front of the places that are left. -/
theorem fillGuarded_eq (segments : List (List Char)) (filled rest : List UInt32)
    (h : segments.length ≤ rest.length) :
    fillGuarded segments filled.length (filled ++ rest) =
      .ok ((segments.mapM segment?).map fun ns => filled ++ (ns ++ rest.drop ns.length)) := by
  induction segments generalizing filled rest with
  | nil => rfl
  | cons segment segments ih =>
    rw [List.mapM_cons]
    unfold fillGuarded
    cases hsegment : segment? segment with
    | none => rfl
    | some n =>
      cases rest with
      | nil => cases h
      | cons old rest =>
        have hset := set_length_append filled old n rest
        refine Except.bind_eq_ok_iff.mpr ⟨_, hset, ?_⟩
        have ih := ih (filled ++ [n]) rest (Nat.le_of_succ_le_succ h)
        rw [List.length_append, List.append_assoc] at ih
        refine ih.trans (congrArg Except.ok ?_)
        cases segments.mapM segment? with
        | none => rfl
        | some ns => simp

theorem ofTextGuarded_eq (s : String) : ofTextGuarded s = .ok (ofText? s) := by
  have hthree : (segments s.toList).length ≤ [(0 : UInt32), 0, 0].length := List.length_take_le _ _
  refine Except.bind_eq_ok_iff.mpr ⟨_, fillGuarded_eq _ [] _ hthree, congrArg Except.ok ?_⟩
  rw [Option.map_map, ofText?]
  refine congrArg (Option.map · _) (funext fun ns => ?_)
  -- the zeros behind the numbers are those of `ofNumbers`
  match ns with
  | [] | [_] | [_, _] | _ :: _ :: _ :: _ => rfl

end ServerVersion

namespace FormatDescription

theorem textEnd_eq (bs : Bytes) :
    textEnd bs = bs.length - bs.reverse.findIdx (· != 0) := by
  unfold textEnd
  cases hfind : bs.reverse.findIdx? (· != 0) with
  | none =>
    rw [List.findIdx?_eq_none_iff_findIdx_eq.mp hfind, List.length_reverse, Nat.sub_self]
  | some i =>
    obtain ⟨hlt, hi⟩ := List.findIdx?_eq_some_iff_findIdx_eq.mp hfind
    rw [List.length_reverse] at hlt
    rw [hi]
    dsimp only
    omega

theorem slice_textEnd (bs : Bytes) : Guard.slice bs 0 (textEnd bs) = .ok (trimNul bs) := by
  have htrim : trimNul bs = bs.take (textEnd bs) := by
    rw [trimNul, List.dropWhile_eq_drop_findIdx_not, List.reverse_drop, List.reverse_reverse,
      List.length_reverse, textEnd_eq]
    rfl
  have hle : textEnd bs ≤ bs.length := by
    rw [textEnd_eq]
    exact Nat.sub_le _ _
  unfold Guard.slice
  rw [if_pos ⟨Nat.zero_le _, hle⟩, List.drop_zero, htrim]

theorem tableLengthGuarded_eq (bs : Bytes) : tableLengthGuarded bs = .ok (tableLength bs) := by
  unfold tableLengthGuarded tableLength
  cases bs[ownEntry]? with
  | none => rfl
  | some n =>
    dsimp only
    by_cases hn : fixedLength ≤ n.toNat
    · rw [if_pos hn]
      refine Except.bind_eq_ok_iff.mpr ⟨_, if_pos hn, ?_⟩
      simp only [hn, true_and]
      rfl
    · rw [if_neg hn, if_neg (fun h => hn h.1)]
      rfl

theorem peekGuarded_eq (data : Bytes) : peekGuarded data = .ok (peekAlgorithm data) := by
  unfold peekGuarded peekAlgorithm
  cases data[fixedLength + ownEntry]? with
  | none => rfl
  | some n =>
    change (if n.toNat < fixedLength then _ else _) = Except.ok (if _ then _ else _)
    by_cases hn : n.toNat < fixedLength
    · rw [if_pos hn, if_neg (fun h => absurd h.1 (Nat.not_le_of_lt hn))]
      rfl
    · have hlt := n.toNat_lt
      have hplace : fixedLength + (n.toNat - fixedLength) = n.toNat := by omega
      rw [if_neg hn, hplace]
      have hword {m : Nat} (hm : m < 2 ^ 9) : Guard.word m = .ok m := if_pos (by omega)
      refine Except.bind_eq_ok_iff.mpr ⟨_, hword (by omega), ?_⟩
      refine Except.bind_eq_ok_iff.mpr ⟨_, hword (by omega), ?_⟩
      by_cases hlen : data.length = n.toNat + 1 + 4
      · rw [if_pos hlen, if_pos ⟨by omega, hlen⟩]
        have hn' : n.toNat < data.length := by omega
        have hsome : data[n.toNat]? = some data[n.toNat] := List.getElem?_eq_getElem hn'
        rw [hsome, Guard.get, hsome]
        rfl
      · rw [if_neg hlen, if_neg (fun h => hlen h.2)]
        rfl

theorem agrees_readGuarded (hsize : ∀ n, D (.read (.incomplete (.size n))))
    (htext : ∀ cause, D (.malformedText cause)) (hversion : ∀ s, D (.invalidServerVersion s)) :
    Agrees (Follows buffer) D readGuarded read := by
  have hsim := simulation buffer (ε := DecodeError) hsize
  refine (Agrees.u16 hsim).bind fun binlogVersion => ?_
  refine (Agrees.take hsim _).bind fun raw => ?_
  refine agrees_check_bind (slice_textEnd raw) ?_
  refine (Agrees.strictText htext _).bind fun serverVersion => ?_
  refine agrees_check_bind (ServerVersion.ofTextGuarded_eq serverVersion) ?_
  cases ServerVersion.ofText? serverVersion with
  | none => exact .throw (hversion _)
  | some version =>
    refine (Agrees.u32 hsim).bind fun createTimestamp => ?_
    refine (Agrees.u8 hsim).bind fun headerLength => ?_
    refine (Agrees.unread hsim).bind fun bs => ?_
    refine agrees_check_bind (tableLengthGuarded_eq bs) ?_
    refine (Agrees.take hsim _).bind fun postHeaderLengths => ?_
    refine (Agrees.hasMore hsim).bind fun more => ?_
    exact .ite_bind (fun _ => .map _ (.u8 hsim)) (fun _ => .pure none) fun a => .pure _

end FormatDescription

/-! ## Payloads -/

/-- The kinds that hold a text which must be UTF-8. -/
def EventKind.strictText : List EventKind :=
  [.query, .executeLoad, .rotate, .heartbeat, .userVar, .formatDescription, .binlogCheckpoint]

/-- The errors that reading a payload of a kind can end with. Only a search for a delimiter does not
tell how many bytes are missing. -/
def EventKind.MayReject (kind : EventKind) : DecodeError → Prop
  | .read (.incomplete (.size _)) => True
  | .read (.incomplete .unknown) => kind = .query ∨ kind = .executeLoad
  | .read _ => False
  | .unknownStatusVariable _ => kind = .query ∨ kind = .executeLoad
  | .malformedDecimal _ => kind = .userVar
  | .malformedText _ => kind ∈ EventKind.strictText
  | .invalidServerVersion _ => kind = .formatDescription
  | .negativeSourceCount _ => kind = .previousGtids
  | .eventSizeMismatch _ _ => False
  | .invalidEventLength _ => False

/-- **Payloads of each kind.** The guarded reader does what the reader does, without a fault; and
the errors are those of the kind. -/
theorem Payload.agrees_readGuarded (server : UInt32) (version : Option ServerVersion)
    (kind : EventKind) :
    Agrees (Follows buffer) kind.MayReject (readGuarded server version kind)
      (read server version kind) := by
  have hsize (n : Nat) : kind.MayReject (.read (.incomplete (.size n))) := True.intro
  have htext (h : kind ∈ EventKind.strictText) (cause : Utf8.Error) :
      kind.MayReject (.malformedText cause) := h
  have hsim := simulation buffer (ε := DecodeError) hsize
  cases kind with
  | query =>
    exact .map _ (Query.agrees_readGuarded hsize (htext (by decide)) (.inl rfl) fun _ => .inl rfl)
  | executeLoad =>
    have h := htext (by decide)
    exact .map _ (ExecuteLoad.agrees_readGuarded hsize h (.inr rfl) fun _ => .inr rfl)
  | userVar =>
    exact .map _ (UserVar.agrees_readGuarded hsize (htext (by decide)) fun _ => rfl)
  | formatDescription =>
    exact .map _ (FormatDescription.agrees_readGuarded hsize (htext (by decide)) fun _ => rfl)
  | rotate => exact .map _ (Rotate.agrees_read hsim (htext (by decide)))
  | heartbeat => exact .map _ (Heartbeat.agrees_read hsim (htext (by decide)))
  | binlogCheckpoint => exact .map _ (BinlogCheckpoint.agrees_read hsim (htext (by decide)))
  | previousGtids => exact .map _ (PreviousGtids.agrees_read hsim fun _ => rfl)
  | stop => exact .pure _
  | intvar => exact .map _ (Intvar.agrees_read hsim)
  | rand => exact .map _ (Rand.agrees_read hsim)
  | xid => exact .map _ (Xid.agrees_read hsim)
  | beginLoad => exact .map _ (BeginLoad.agrees_read hsim)
  | rowsQuery => exact .map _ (RowsQuery.agrees_read hsim)
  | gtid => exact .map _ (GtidEvent.agrees_read hsim version)
  | anonymousGtid => exact .map _ (GtidEvent.agrees_read hsim version)
  | xaPrepare => exact .map _ (XaPrepare.agrees_read hsim)
  | annotateRows => exact .map _ (AnnotateRows.agrees_read hsim)
  | domainGtid => exact .map _ (DomainGtidEvent.agrees_read hsim server)
  | domainGtidList => exact .map _ (DomainGtidList.agrees_read hsim)
  | startEncryption => exact .map _ (StartEncryption.agrees_read hsim)
  | notImplemented => exact (Agrees.rest hsim).bind fun _ => .pure _

/-- What reading a payload fails with is an error of its kind. -/
theorem Payload.mayReject_of_read {server : UInt32} {version : Option ServerVersion}
    {kind : EventKind} {s t : Bytes} {e : DecodeError} (hlen : s.length < 2 ^ 64)
    (he : (read server version kind : Reader Bytes DecodeError Payload) s = .error e t) :
    kind.MayReject e :=
  (agrees_readGuarded server version kind).admitted (follows_start hlen) he

end Binlog
