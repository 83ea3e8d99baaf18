import Binlog.Payload
import Binlog.Proofs.StrictText

/-!
# Layouts

For headers, and for each kind of data that keeps all it reads, the reader succeeds exactly on the
written form followed by anything. Where the layout has limits, they stand beside the written form:
a file name's length fits four bytes, a list's flags four bits, a nonce has twelve bytes.

**What is left.** Some readers look at how much is ahead. One that takes everything leaves nothing,
and an integer takes its upper half whenever the bytes are there, so its four-byte form is read only
in front of fewer than four bytes (`Intvar.read_eq_ok_iff`). A format description takes as many
lengths as its own entry says, or else all bytes (`FormatDescription.read_eq_ok_iff`).
-/

namespace Binlog

open Reader

variable {ε : Type} [OfReadError ε] {s t : Bytes}

/-! ## Numbers in two parts -/

theorem Bytes.ofNatLE_add_mul (width n k : Nat) :
    Bytes.ofNatLE width (n + 256 ^ width * k) = Bytes.ofNatLE width n := by
  induction width generalizing n k with
  | zero => rfl
  | succ width ih =>
    have hdiv : (n + 256 ^ (width + 1) * k) / 256 = n / 256 + 256 ^ width * k := by
      rw [Nat.pow_succ, Nat.mul_comm (256 ^ width) 256, Nat.mul_assoc]
      omega
    have hlow : UInt8.ofNat (n + 256 ^ (width + 1) * k) = UInt8.ofNat n := by
      apply UInt8.toNat.inj
      rw [UInt8.toNat_ofNat', UInt8.toNat_ofNat', Nat.pow_succ, Nat.mul_comm (256 ^ width) 256,
        Nat.mul_assoc]
      omega
    rw [Bytes.ofNatLE, Bytes.ofNatLE, hdiv, hlow, ih]

theorem Bytes.ofNatLE_add (v w n : Nat) :
    Bytes.ofNatLE (v + w) n = Bytes.ofNatLE v n ++ Bytes.ofNatLE w (n / 256 ^ v) := by
  induction v generalizing n with
  | zero => simp [Bytes.ofNatLE]
  | succ v ih =>
    rw [Nat.add_right_comm, Bytes.ofNatLE, Bytes.ofNatLE, ih, List.cons_append,
      Nat.div_div_eq_div_mul, Nat.pow_succ, Nat.mul_comm 256]

/-- A word of eight bytes is written as its two halves, the lower one first. -/
theorem Bytes.ofNatLE_halves (low high : Nat) (h : low < 2 ^ 32) :
    Bytes.ofNatLE 8 (low + 2 ^ 32 * high) = Bytes.ofNatLE 4 low ++ Bytes.ofNatLE 4 high := by
  have hhigh : (low + 2 ^ 32 * high) / 256 ^ 4 = high := by omega
  rw [Bytes.ofNatLE_add 4 4, hhigh]
  exact congrArg (· ++ _) (Bytes.ofNatLE_add_mul 4 low high)

/-! ## Headers -/

@[simp] theorem Header.length_encode (h : Header) : h.encode.length = Header.size := by
  simp [Header.encode, Header.size]

theorem Header.read_eq_ok_iff {h : Header} :
    (Header.read : Reader Bytes ε Header) s = .ok h t ↔ s = h.encode ++ t := by
  simp only [Header.read, bind_eq_ok_iff, u32_eq_ok_iff, u8_eq_ok_iff, u16_eq_ok_iff,
    pure_eq_ok_iff]
  refine ⟨fun hs => ?_, fun hs => ?_⟩
  · rcases hs with ⟨timestamp, _, rfl, typeCode, _, rfl, serverId, _, rfl, eventLength, _, rfl,
      nextPosition, _, rfl, flags, _, rfl, rfl, rfl⟩
    simp [Header.encode]
  · subst hs
    exact ⟨h.timestamp, _, by simp [Header.encode], h.typeCode, _, rfl, h.serverId, _, rfl,
      h.eventLength, _, rfl, h.nextPosition, _, rfl, h.flags, _, rfl, rfl, rfl⟩

/-! ## Ids and ends of transactions -/

theorem Xid.read_eq_ok_iff {x : Xid} :
    (Xid.read : Reader Bytes ε Xid) s = .ok x t ↔ s = x.encode ++ t := by
  simp only [Xid.read, bind_eq_ok_iff, u64_eq_ok_iff, pure_eq_ok_iff]
  refine ⟨fun hs => ?_, fun hs => ?_⟩
  · rcases hs with ⟨xid, _, rfl, rfl, rfl⟩
    rfl
  · subst hs
    exact ⟨x.xid, t, rfl, rfl, rfl⟩

theorem SourceId.read_eq_ok_iff {id : SourceId} :
    (SourceId.read : Reader Bytes ε SourceId) s = .ok id t ↔ s = id.encode ++ t := by
  simp only [SourceId.read, bind_eq_ok_iff, number_eq_ok_iff, pure_eq_ok_iff]
  refine ⟨fun hs => ?_, fun hs => ?_⟩
  · rcases hs with ⟨n, _, ⟨hn, rfl⟩, rfl, rfl⟩
    have hvalue : (BitVec.ofNat 128 n).toNat = n := Nat.mod_eq_of_lt hn
    rw [SourceId.encode, hvalue]
    rfl
  · subst hs
    exact ⟨id.value.toNat, t, ⟨id.value.isLt, rfl⟩, by rw [BitVec.ofNat_toNat, BitVec.setWidth_eq],
      rfl⟩

theorem GtidInterval.read_eq_ok_iff {i : GtidInterval} :
    (GtidInterval.read : Reader Bytes ε GtidInterval) s = .ok i t ↔ s = i.encode ++ t := by
  simp only [GtidInterval.read, bind_eq_ok_iff, i64_eq_ok_iff, u64_eq_ok_iff, pure_eq_ok_iff]
  refine ⟨fun hs => ?_, fun hs => ?_⟩
  · rcases hs with ⟨start, _, rfl, stop, _, rfl, rfl, rfl⟩
    simp [GtidInterval.encode]
  · subst hs
    exact ⟨i.start, _, by simp [GtidInterval.encode], i.stop, _, rfl, rfl, rfl⟩

/-! ## Values a statement draws on -/

theorem Rand.read_eq_ok_iff {r : Rand} :
    (Rand.read : Reader Bytes ε Rand) s = .ok r t ↔ s = r.encode ++ t := by
  simp only [Rand.read, bind_eq_ok_iff, u64_eq_ok_iff, pure_eq_ok_iff]
  refine ⟨fun hs => ?_, fun hs => ?_⟩
  · rcases hs with ⟨seed1, _, rfl, seed2, _, rfl, rfl, rfl⟩
    simp [Rand.encode]
  · subst hs
    exact ⟨r.seed1, _, by simp [Rand.encode], r.seed2, _, rfl, rfl, rfl⟩

@[simp] theorem IntvarKey.code_ofCode (b : UInt8) : (IntvarKey.ofCode b).code = b := by
  unfold IntvarKey.ofCode
  split
  next h => exact (UInt8.toNat.inj h).symm
  next h => exact (UInt8.toNat.inj h).symm
  next h => exact (UInt8.toNat.inj h).symm
  next => rfl

/-- An integer is read from its key and eight bytes, or from its key and four if fewer than four
follow. -/
theorem Intvar.read_eq_ok_iff {i : Intvar} :
    (Intvar.read : Reader Bytes ε Intvar) s = .ok i t ↔
      i.key = .ofCode i.key.code ∧
        (i.value.toNat < 2 ^ 32 ∧ t.length < 4 ∧ s = i.encode 4 ++ t ∨ s = i.encode 8 ++ t) := by
  simp only [Intvar.read, bind_eq_ok_iff, u8_eq_ok_iff, u32_eq_ok_iff, left_eq_ok_iff,
    ite_eq_ok_iff, pure_eq_ok_iff]
  refine ⟨fun hs => ?_, fun hs => ?_⟩
  · rcases hs with ⟨key, _, rfl, low, _, rfl, _, left, ⟨rfl, rfl⟩,
      ⟨-, high, _, rfl, rfl, rfl⟩ | ⟨hleft, _, _, ⟨rfl, rfl⟩, rfl, rfl⟩⟩
    · have hlow := low.toNat_lt
      have hhigh := high.toNat_lt
      have hvalue : (UInt64.ofNat (low.toNat + 2 ^ 32 * high.toNat)).toNat =
          low.toNat + 2 ^ 32 * high.toNat := UInt64.toNat_ofNat_of_lt' (show _ < 2 ^ 64 by omega)
      refine ⟨by rw [IntvarKey.code_ofCode], .inr ?_⟩
      rw [encode, hvalue, Bytes.ofNatLE_halves _ _ hlow, IntvarKey.code_ofCode, List.cons_append,
        List.append_assoc]
    · have hlow := low.toNat_lt
      have hvalue : (UInt64.ofNat (low.toNat + 2 ^ 32 * (0 : UInt32).toNat)).toNat = low.toNat :=
        UInt64.toNat_ofNat_of_lt' (show _ < 2 ^ 64 by simp; omega)
      refine ⟨by rw [IntvarKey.code_ofCode], .inl ⟨?_, by omega, ?_⟩⟩
      · rwa [hvalue]
      · rw [encode, hvalue, IntvarKey.code_ofCode, List.cons_append]
  · rcases hs with ⟨hkey, ⟨hvalue, hleft, rfl⟩ | rfl⟩
    · have hlow : (UInt32.ofNat i.value.toNat).toNat = i.value.toNat :=
        UInt32.toNat_ofNat_of_lt' hvalue
      refine ⟨i.key.code, _, rfl, .ofNat i.value.toNat, t, by rw [hlow]; rfl, _, t, ⟨rfl, rfl⟩,
        .inr ⟨by omega, 0, t, ⟨rfl, rfl⟩, ?_, rfl⟩⟩
      rw [← hkey, hlow]
      simp
    · have hlt := i.value.toNat_lt
      have hlow : (UInt32.ofNat (i.value.toNat % 2 ^ 32)).toNat = i.value.toNat % 2 ^ 32 :=
        UInt32.toNat_ofNat_of_lt' (Nat.mod_lt _ (by decide))
      have hhigh : (UInt32.ofNat (i.value.toNat / 2 ^ 32)).toNat = i.value.toNat / 2 ^ 32 :=
        UInt32.toNat_ofNat_of_lt' (show _ < 2 ^ 32 by omega)
      have hhalves : i.encode 8 = i.key.code :: (Bytes.ofNatLE 4 (i.value.toNat % 2 ^ 32) ++
          Bytes.ofNatLE 4 (i.value.toNat / 2 ^ 32)) := by
        rw [← Bytes.ofNatLE_halves _ _ (Nat.mod_lt _ (by decide)), Nat.mod_add_div]
        rfl
      refine ⟨i.key.code, _, by rw [hhalves, List.cons_append, List.append_assoc],
        .ofNat (i.value.toNat % 2 ^ 32), _, by rw [hlow], _, _, ⟨rfl, rfl⟩,
        .inl ⟨by simp, .ofNat (i.value.toNat / 2 ^ 32), t, by rw [hhigh], ?_, rfl⟩⟩
      rw [← hkey, hlow, hhigh, Nat.mod_add_div, UInt64.ofNat_toNat]

/-! ## Files -/

theorem Rotate.read_eq_ok_iff {r : Rotate} :
    (Rotate.read : Reader Bytes DecodeError Rotate) s = .ok r t ↔ s = r.encode ∧ t = [] := by
  simp only [Rotate.read, bind_eq_ok_iff, u64_eq_ok_iff, rest_eq_ok_iff, strictText_eq_ok_iff,
    pure_eq_ok_iff]
  refine ⟨fun hs => ?_, fun hs => ?_⟩
  · rcases hs with ⟨position, _, rfl, _, _, ⟨rfl, rfl⟩, file, _, ⟨rfl, rfl⟩, rfl, rfl⟩
    exact ⟨rfl, rfl⟩
  · rcases hs with ⟨rfl, rfl⟩
    exact ⟨r.position, _, rfl, _, _, ⟨rfl, rfl⟩, r.nextFile, _, ⟨rfl, rfl⟩, rfl, rfl⟩

theorem Heartbeat.read_eq_ok_iff {h : Heartbeat} :
    (Heartbeat.read : Reader Bytes DecodeError Heartbeat) s = .ok h t ↔ s = h.encode ∧ t = [] := by
  simp only [Heartbeat.read, bind_eq_ok_iff, rest_eq_ok_iff, strictText_eq_ok_iff, pure_eq_ok_iff]
  refine ⟨fun hs => ?_, fun hs => ?_⟩
  · rcases hs with ⟨_, _, ⟨rfl, rfl⟩, file, _, ⟨rfl, rfl⟩, rfl, rfl⟩
    exact ⟨rfl, rfl⟩
  · rcases hs with ⟨rfl, rfl⟩
    exact ⟨_, _, ⟨rfl, rfl⟩, h.file, _, ⟨rfl, rfl⟩, rfl, rfl⟩

theorem BinlogCheckpoint.read_eq_ok_iff {b : BinlogCheckpoint} :
    (BinlogCheckpoint.read : Reader Bytes DecodeError BinlogCheckpoint) s = .ok b t ↔
      (Utf8.encode b.file).length < 256 ^ 4 ∧ s = b.encode ++ t := by
  simp only [BinlogCheckpoint.read, bind_eq_ok_iff,
    takePrefixed_eq_ok_iff (show 4 ∈ prefixWidths by decide), strictText_eq_ok_iff, pure_eq_ok_iff]
  refine ⟨fun hs => ?_, fun hs => ?_⟩
  · rcases hs with ⟨_, _, ⟨hlen, rfl⟩, file, _, ⟨rfl, rfl⟩, rfl, rfl⟩
    exact ⟨hlen, rfl⟩
  · rcases hs with ⟨hlen, rfl⟩
    exact ⟨_, t, ⟨hlen, rfl⟩, b.file, t, ⟨rfl, rfl⟩, rfl, rfl⟩

/-! ## Loaded files and statement texts -/

theorem BeginLoad.read_eq_ok_iff {b : BeginLoad} :
    (BeginLoad.read : Reader Bytes ε BeginLoad) s = .ok b t ↔ s = b.encode ∧ t = [] := by
  simp only [BeginLoad.read, bind_eq_ok_iff, u32_eq_ok_iff, rest_eq_ok_iff, pure_eq_ok_iff]
  refine ⟨fun hs => ?_, fun hs => ?_⟩
  · rcases hs with ⟨fileId, _, rfl, block, _, ⟨rfl, rfl⟩, rfl, rfl⟩
    exact ⟨rfl, rfl⟩
  · rcases hs with ⟨rfl, rfl⟩
    exact ⟨b.fileId, _, rfl, b.block, _, ⟨rfl, rfl⟩, rfl, rfl⟩

theorem AnnotateRows.read_eq_ok_iff {a : AnnotateRows} :
    (AnnotateRows.read : Reader Bytes ε AnnotateRows) s = .ok a t ↔ s = a.encode ∧ t = [] := by
  simp only [AnnotateRows.read, bind_eq_ok_iff, rest_eq_ok_iff, pure_eq_ok_iff]
  refine ⟨fun hs => ?_, fun hs => ?_⟩
  · rcases hs with ⟨statement, _, ⟨rfl, rfl⟩, rfl, rfl⟩
    exact ⟨rfl, rfl⟩
  · rcases hs with ⟨rfl, rfl⟩
    exact ⟨a.statement, _, ⟨rfl, rfl⟩, rfl, rfl⟩

/-! ## Events of MariaDB -/

theorem DomainGtid.read_eq_ok_iff {g : DomainGtid} :
    (DomainGtid.read : Reader Bytes ε DomainGtid) s = .ok g t ↔ s = g.encode ++ t := by
  simp only [DomainGtid.read, bind_eq_ok_iff, u32_eq_ok_iff, u64_eq_ok_iff, pure_eq_ok_iff]
  refine ⟨fun hs => ?_, fun hs => ?_⟩
  · rcases hs with ⟨domain, _, rfl, server, _, rfl, sequence, _, rfl, rfl, rfl⟩
    simp [DomainGtid.encode]
  · subst hs
    exact ⟨g.domain, _, by simp [DomainGtid.encode], g.server, _, rfl, g.sequence, _, rfl, rfl, rfl⟩

theorem DomainGtidList.read_eq_ok_iff {l : DomainGtidList} :
    (DomainGtidList.read : Reader Bytes ε DomainGtidList) s = .ok l t ↔
      l.flags.toNat < 2 ^ 4 ∧ l.gtids.length < 2 ^ 28 ∧ s = l.encode ++ t := by
  simp only [DomainGtidList.read, bind_eq_ok_iff, u32_eq_ok_iff,
    count_eq_ok_iff fun _ _ _ => DomainGtid.read_eq_ok_iff, pure_eq_ok_iff]
  refine ⟨fun hs => ?_, fun hs => ?_⟩
  · rcases hs with ⟨word, _, rfl, gtids, _, ⟨hlen, rfl⟩, rfl, rfl⟩
    have hword := word.toNat_lt
    have hflags : (UInt8.ofNat (word.toNat / 2 ^ 28)).toNat = word.toNat / 2 ^ 28 :=
      UInt8.toNat_ofNat_of_lt' (show _ < 2 ^ 8 by omega)
    refine ⟨by rw [hflags]; omega, by rw [hlen]; omega, ?_⟩
    rw [encode, hflags, hlen, Nat.div_add_mod']
    simp
  · rcases hs with ⟨hflags, hlen, rfl⟩
    have hword : (UInt32.ofNat (l.flags.toNat * 2 ^ 28 + l.gtids.length)).toNat =
        l.flags.toNat * 2 ^ 28 + l.gtids.length :=
      UInt32.toNat_ofNat_of_lt' (show _ < 2 ^ 32 by omega)
    refine ⟨.ofNat (l.flags.toNat * 2 ^ 28 + l.gtids.length),
      l.gtids.flatMap DomainGtid.encode ++ t, ?_, l.gtids, t, ⟨?_, rfl⟩, ?_, rfl⟩
    · rw [hword, encode, List.append_assoc]
    · rw [hword]
      omega
    · have hdiv : (l.flags.toNat * 2 ^ 28 + l.gtids.length) / 2 ^ 28 = l.flags.toNat := by omega
      rw [hword, hdiv, UInt8.ofNat_toNat]

theorem StartEncryption.read_eq_ok_iff {e : StartEncryption} :
    (StartEncryption.read : Reader Bytes ε StartEncryption) s = .ok e t ↔
      e.nonce.length = StartEncryption.nonceSize ∧ s = e.encode ++ t := by
  simp only [StartEncryption.read, bind_eq_ok_iff, u8_eq_ok_iff, u32_eq_ok_iff, take_eq_ok_iff,
    pure_eq_ok_iff]
  refine ⟨fun hs => ?_, fun hs => ?_⟩
  · rcases hs with ⟨scheme, _, rfl, keyVersion, _, rfl, nonce, _, ⟨hlen, rfl⟩, rfl, rfl⟩
    exact ⟨hlen, by simp [StartEncryption.encode]⟩
  · rcases hs with ⟨hlen, rfl⟩
    exact ⟨e.scheme, _, by simp [StartEncryption.encode], e.keyVersion, _, rfl, e.nonce, t,
      ⟨hlen, rfl⟩, rfl, rfl⟩

/-! ## Format descriptions -/

namespace FormatDescription

theorem trimNul_append_replicate (bs : Bytes) (n : Nat) :
    trimNul (bs ++ List.replicate n 0) = trimNul bs := by
  unfold trimNul
  rw [List.reverse_append, List.dropWhile_append_of_pos]
  intro b hb
  rw [List.mem_reverse] at hb
  simp [List.eq_of_mem_replicate hb]

theorem eq_trimNul_append_replicate (bs : Bytes) :
    bs = trimNul bs ++ List.replicate (bs.length - (trimNul bs).length) 0 := by
  have hsplit : bs = trimNul bs ++ (bs.reverse.takeWhile (· == 0)).reverse := by
    rw [trimNul, ← List.reverse_append, List.takeWhile_append_dropWhile, List.reverse_reverse]
  have hzeros : (bs.reverse.takeWhile (· == 0)).reverse =
      List.replicate (bs.reverse.takeWhile (· == 0)).reverse.length 0 := by
    refine List.eq_replicate_of_mem fun b hb => ?_
    rw [List.mem_reverse] at hb
    simpa using List.all_eq_true.mp List.all_takeWhile b hb
  have hlen := congrArg List.length hsplit
  rw [List.length_append] at hlen
  rw [hzeros] at hsplit
  have hcount : bs.length - (trimNul bs).length =
      (bs.reverse.takeWhile (· == 0)).reverse.length := by omega
  rwa [hcount]

/-- A text padded with NULs to the length of the version field. -/
theorem trimNul_eq_iff {raw text : Bytes} (h : raw.length = versionLength) :
    trimNul raw = text ↔ text.length ≤ versionLength ∧ trimNul text = text ∧
      raw = text ++ List.replicate (versionLength - text.length) 0 := by
  have hraw := eq_trimNul_append_replicate raw
  refine ⟨fun hs => ?_, fun hs => ?_⟩
  · subst hs
    refine ⟨?_, ?_, by rwa [← h]⟩
    · have := congrArg List.length hraw
      rw [List.length_append] at this
      omega
    · have := congrArg trimNul hraw
      rw [trimNul_append_replicate] at this
      exact this.symm
  · rcases hs with ⟨-, htrim, rfl⟩
    rw [trimNul_append_replicate, htrim]

/-- The limits of a format description in front of `rest`. -/
structure Fits (f : FormatDescription) (rest : Bytes) : Prop where
  text_le : (Utf8.encode f.serverVersion).length ≤ versionLength
  text_trimmed : trimNul (Utf8.encode f.serverVersion) = Utf8.encode f.serverVersion
  version : ServerVersion.ofText? f.serverVersion = some f.version
  table : f.postHeaderLengths.length =
    tableLength (f.postHeaderLengths ++ f.checksumAlgorithm.toList ++ rest)
  /-- Without an algorithm byte nothing follows the table. -/
  rest_eq : f.checksumAlgorithm = none → rest = []

theorem encode_append (f : FormatDescription) (rest : Bytes) :
    f.encode ++ rest = Bytes.ofNatLE 2 f.binlogVersion.toNat ++
      ((Utf8.encode f.serverVersion ++
          List.replicate (versionLength - (Utf8.encode f.serverVersion).length) 0) ++
        (Bytes.ofNatLE 4 f.createTimestamp.toNat ++
          f.headerLength :: (f.postHeaderLengths ++ (f.checksumAlgorithm.toList ++ rest)))) := by
  simp [encode]

theorem read_eq_ok_iff {f : FormatDescription} :
    (read : Reader Bytes DecodeError FormatDescription) s = .ok f t ↔
      f.Fits t ∧ s = f.encode ++ t := by
  simp only [read, bind_eq_ok_iff, u16_eq_ok_iff, take_eq_ok_iff, strictText_eq_ok_iff]
  refine ⟨fun hs => ?_, fun hs => ?_⟩
  · rcases hs with ⟨binlogVersion, _, rfl, raw, _, ⟨hraw, rfl⟩, text, _, ⟨htext, rfl⟩, hread⟩
    obtain ⟨hle, htrim, rfl⟩ := (trimNul_eq_iff hraw).mp htext
    cases hversion : ServerVersion.ofText? text with
    | none =>
      rw [hversion] at hread
      exact absurd hread throw_ne_ok
    | some version =>
      rw [hversion] at hread
      simp only [bind_eq_ok_iff, u32_eq_ok_iff, u8_eq_ok_iff, unread_eq_ok_iff, take_eq_ok_iff,
        hasMore_eq_ok_iff, ite_eq_ok_iff, map_eq_ok_iff, pure_eq_ok_iff] at hread
      obtain ⟨createTimestamp, _, rfl, headerLength, _, rfl, _, _, ⟨rfl, rfl⟩, lengths, _,
        ⟨hlengths, rfl⟩, _, _, ⟨rfl, rfl⟩,
        ⟨-, _, _, ⟨algorithm, rfl, rfl⟩, rfl, rfl⟩ | ⟨hmore, _, _, ⟨rfl, rfl⟩, rfl, rfl⟩⟩ := hread
      · refine ⟨⟨hle, htrim, hversion, ?_, fun h => nomatch h⟩, by simp [encode]⟩
        simpa using hlengths
      · have hnil := List.isEmpty_iff.mp (by simpa using hmore)
        subst hnil
        exact ⟨⟨hle, htrim, hversion, by simpa using hlengths, fun _ => rfl⟩, by simp [encode]⟩
  · rcases hs with ⟨hfits, rfl⟩
    have hpad : (Utf8.encode f.serverVersion ++ List.replicate
        (versionLength - (Utf8.encode f.serverVersion).length) 0 : Bytes).length =
          versionLength := by
      have := hfits.text_le
      rw [List.length_append, List.length_replicate]
      omega
    have htable := hfits.table
    rw [List.append_assoc] at htable
    refine ⟨f.binlogVersion, _, f.encode_append t, _, _, ⟨hpad, rfl⟩, f.serverVersion, _,
      ⟨(trimNul_eq_iff hpad).mpr ⟨hfits.text_le, hfits.text_trimmed, rfl⟩, rfl⟩, ?_⟩
    rw [hfits.version]
    simp only [bind_eq_ok_iff, u32_eq_ok_iff, u8_eq_ok_iff, unread_eq_ok_iff, take_eq_ok_iff,
      hasMore_eq_ok_iff, ite_eq_ok_iff, map_eq_ok_iff, pure_eq_ok_iff]
    refine ⟨f.createTimestamp, _, rfl, f.headerLength, _, rfl, _, _, ⟨rfl, rfl⟩,
      f.postHeaderLengths, _, ⟨htable, rfl⟩, _, _, ⟨rfl, rfl⟩, ?_⟩
    cases halgorithm : f.checksumAlgorithm with
    | some a => exact .inl ⟨rfl, _, _, ⟨a, rfl, rfl⟩, by rw [← halgorithm], rfl⟩
    | none =>
      obtain rfl := hfits.rest_eq halgorithm
      exact .inr ⟨by simp, _, _, ⟨rfl, rfl⟩, by rw [← halgorithm], rfl⟩

end FormatDescription

/-! ## Payloads -/

theorem Payload.kind_of_read {server : UInt32} {version : Option ServerVersion} {k : EventKind}
    {d : Payload}
    (h : (Payload.read server version k : Reader Bytes DecodeError Payload) s = .ok d t) :
    d.kind = k := by
  cases k with
  | stop =>
    obtain ⟨rfl, -⟩ := pure_eq_ok_iff.mp h
    rfl
  | notImplemented =>
    obtain ⟨_, _, -, hpure⟩ := bind_eq_ok_iff.mp h
    obtain ⟨rfl, -⟩ := pure_eq_ok_iff.mp hpure
    rfl
  | _ =>
    obtain ⟨_, -, rfl⟩ := map_eq_ok_iff.mp h
    rfl

theorem EventKind.ofType_eq_formatDescription_iff {type : EventType} :
    ofType type = .formatDescription ↔ type = .formatDescription := by
  cases type <;> simp [ofType]

end Binlog
