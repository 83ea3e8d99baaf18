import Binlog.Proofs.Prefixes
import Binlog.Proofs.TransactionLayout

/-!
# The layout of a transaction of MariaDB

Behind two numbers and its flags a body has up to two parts, each of which the flags may announce: a
commit id, and the id of a transaction manager. Whatever follows the announced parts is padding.

**Layouts** (`DomainGtidLayout`). What the flags announce is there and nothing else, so a layout
carries the two equations between its flags and its parts. The flags take all eight bits, so they
are kept as they are.

**Length** (`DomainGtidEvent.neededLength?`). The flags tell how long a body must be, and for the
id of a transaction manager two more bytes do. A body that ends in front of these bytes is too
short as well. No other body is rejected, and the error is always that bytes are missing.

**Ids of transaction managers** (`WrittenXaId`). The lengths of the two parts have one byte here,
and four where a transaction is prepared. The same id is read from either form.

Main statement: `DomainGtidEvent.read_announced`.
-/

namespace Binlog

open Reader

/-! ## Parts that are announced -/

namespace Reader

variable {σ ε α : Type}

/-- Reads a part if it is announced. -/
def ifAnnounced (announced : Bool) (part : Reader σ ε α) : Reader σ ε (Option α) :=
  if announced then some <$> part else pure none

/-- A part is read exactly from its form if it is announced, and else from nothing. -/
theorem ifAnnounced_eq_ok_iff {β : Type} {encode : β → Bytes} {meaning : β → α}
    {part : Reader Bytes ε α}
    (hpart : ∀ s a t, part s = .ok a t ↔ ∃ b, s = encode b ++ t ∧ a = meaning b)
    {announced : Bool} {s t : Bytes} {a : Option α} :
    ifAnnounced announced part s = .ok a t ↔ ∃ b : Option β, b.isSome = announced ∧
      s = Bytes.ofOption encode b ++ t ∧ a = b.map meaning := by
  cases announced with
  | true =>
    simp only [ifAnnounced, if_true, map_eq_ok_iff, hpart]
    constructor
    · rintro ⟨_, ⟨b, rfl, rfl⟩, rfl⟩
      exact ⟨some b, rfl, rfl, rfl⟩
    · rintro ⟨b, hb, rfl, rfl⟩
      obtain ⟨b, rfl⟩ := Option.isSome_iff_exists.mp hb
      exact ⟨meaning b, ⟨b, rfl, rfl⟩, rfl⟩
  | false =>
    simp only [ifAnnounced, Bool.false_eq_true, if_false, pure_eq_ok_iff]
    constructor
    · rintro ⟨rfl, rfl⟩
      exact ⟨none, rfl, rfl, rfl⟩
    · rintro ⟨b, hb, rfl, rfl⟩
      obtain rfl := Option.not_isSome_iff_eq_none.mp (ne_true_of_eq_false hb)
      exact ⟨rfl, rfl⟩

end Reader

/-! ## Ids of transaction managers -/

/-- The id of a transaction manager as it is written: two parts of bytes, of a length that one byte
holds. -/
structure WrittenXaId where
  formatId : UInt32
  globalPart : Bytes
  branchPart : Bytes
  globalPart_lt : globalPart.length < 256
  branchPart_lt : branchPart.length < 256

namespace WrittenXaId

/-- The bytes of an id whose lengths have one byte each. -/
def encode (x : WrittenXaId) : Bytes :=
  Bytes.ofNatLE 4 x.formatId.toNat ++ UInt8.ofNat x.globalPart.length ::
    UInt8.ofNat x.branchPart.length :: (x.globalPart ++ x.branchPart)

/-- The bytes of an id whose lengths have four bytes each. -/
def encodeWide (x : WrittenXaId) : Bytes :=
  Bytes.ofNatLE 4 x.formatId.toNat ++ (Bytes.ofNatLE 4 x.globalPart.length ++
    (Bytes.ofNatLE 4 x.branchPart.length ++ (x.globalPart ++ x.branchPart)))

/-- The id that is written. Its parts need not be UTF-8. -/
def meaning (x : WrittenXaId) : XaId where
  formatId := x.formatId
  globalPart := Utf8.decodeLossy x.globalPart
  branchPart := Utf8.decodeLossy x.branchPart

theorem encode_append (x : WrittenXaId) (t : Bytes) : x.encode ++ t =
    Bytes.ofNatLE 4 x.formatId.toNat ++ UInt8.ofNat x.globalPart.length ::
      UInt8.ofNat x.branchPart.length :: (x.globalPart ++ (x.branchPart ++ t)) := by
  simp [encode]

theorem encodeWide_append (x : WrittenXaId) (t : Bytes) : x.encodeWide ++ t =
    Bytes.ofNatLE 4 x.formatId.toNat ++ (Bytes.ofNatLE 4 x.globalPart.length ++
      (Bytes.ofNatLE 4 x.branchPart.length ++ (x.globalPart ++ (x.branchPart ++ t)))) := by
  simp [encodeWide]

theorem length_encode (x : WrittenXaId) :
    x.encode.length = 6 + x.globalPart.length + x.branchPart.length := by
  simp only [encode, List.length_append, List.length_cons, Bytes.length_ofNatLE]
  omega

/-- A part that is UTF-8 is read as it is, whatever the other part is. -/
theorem meaning_of_encode (x : WrittenXaId) (text : String) :
    (x.globalPart = Utf8.encode text → x.meaning.globalPart = text) ∧
      (x.branchPart = Utf8.encode text → x.meaning.branchPart = text) := by
  constructor
  · intro hglobal
    rw [meaning, hglobal, Utf8.decodeLossy_encode]
  · intro hbranch
    rw [meaning, hbranch, Utf8.decodeLossy_encode]

variable {ε : Type} [OfReadError ε] {s t : Bytes}

/-- The parts of an id are read from runs of their lengths. -/
theorem readParts_eq_ok_iff {formatId : UInt32} {n m : Nat} {id : XaId} :
    (XaId.readParts formatId n m : Reader Bytes ε XaId) s = .ok id t ↔
      ∃ globalPart branchPart : Bytes, globalPart.length = n ∧ branchPart.length = m ∧
        s = globalPart ++ (branchPart ++ t) ∧
        id = { formatId, globalPart := Utf8.decodeLossy globalPart,
               branchPart := Utf8.decodeLossy branchPart } := by
  simp only [XaId.readParts, bind_eq_ok_iff, take_eq_ok_iff, pure_eq_ok_iff]
  constructor
  · rintro ⟨globalPart, _, ⟨hn, rfl⟩, branchPart, _, ⟨hm, rfl⟩, rfl, rfl⟩
    exact ⟨globalPart, branchPart, hn, hm, rfl, rfl⟩
  · rintro ⟨globalPart, branchPart, hn, hm, rfl, rfl⟩
    exact ⟨globalPart, _, ⟨hn, rfl⟩, branchPart, t, ⟨hm, rfl⟩, rfl, rfl⟩

theorem readParts_append (x : WrittenXaId) (t : Bytes) :
    (XaId.readParts x.formatId x.globalPart.length x.branchPart.length : Reader Bytes ε XaId)
      (x.globalPart ++ (x.branchPart ++ t)) = .ok x.meaning t :=
  readParts_eq_ok_iff.mpr ⟨x.globalPart, x.branchPart, rfl, rfl, rfl, rfl⟩

/-- An id is read exactly from its written form. -/
theorem readXid_eq_ok_iff {id : XaId} :
    (DomainGtidEvent.readXid : Reader Bytes ε XaId) s = .ok id t ↔
      ∃ x : WrittenXaId, s = x.encode ++ t ∧ id = x.meaning := by
  simp only [DomainGtidEvent.readXid, bind_eq_ok_iff, u32_eq_ok_iff, u8_eq_ok_iff]
  constructor
  · rintro ⟨formatId, _, rfl, globalLength, _, rfl, branchLength, _, rfl, h⟩
    obtain ⟨globalPart, branchPart, hglobal, hbranch, rfl, rfl⟩ := readParts_eq_ok_iff.mp h
    refine ⟨⟨formatId, globalPart, branchPart, ?_, ?_⟩, ?_, rfl⟩
    · rw [hglobal]
      exact globalLength.toNat_lt
    · rw [hbranch]
      exact branchLength.toNat_lt
    · simp [encode, hglobal, hbranch]
  · rintro ⟨x, rfl, rfl⟩
    have hglobal := UInt8.toNat_ofNat_of_lt' x.globalPart_lt
    have hbranch := UInt8.toNat_ofNat_of_lt' x.branchPart_lt
    refine ⟨x.formatId, _, x.encode_append t, .ofNat x.globalPart.length, _, rfl,
      .ofNat x.branchPart.length, _, rfl, ?_⟩
    rw [hglobal, hbranch]
    exact x.readParts_append t

/-- The id of a transaction that is prepared is the one of the same parts. -/
theorem read_xaPrepare (x : WrittenXaId) (onePhase : UInt8) (t : Bytes) :
    (XaPrepare.read : Reader Bytes ε XaPrepare) (onePhase :: (x.encodeWide ++ t)) =
      .ok { onePhase := onePhase != 0, id := x.meaning } t := by
  have hglobal : (UInt32.ofNat x.globalPart.length).toNat = x.globalPart.length :=
    UInt32.toNat_ofNat_of_lt' (Nat.lt_trans x.globalPart_lt (by decide))
  have hbranch : (UInt32.ofNat x.branchPart.length).toNat = x.branchPart.length :=
    UInt32.toNat_ofNat_of_lt' (Nat.lt_trans x.branchPart_lt (by decide))
  simp only [XaPrepare.read, bind_eq_ok_iff, u8_eq_ok_iff, u32_eq_ok_iff, pure_eq_ok_iff]
  refine ⟨onePhase, _, rfl, x.formatId, _, x.encodeWide_append t, .ofNat x.globalPart.length, _, ?_,
    .ofNat x.branchPart.length, x.globalPart ++ (x.branchPart ++ t), rfl, x.meaning, t, ?_, rfl,
    rfl⟩
  · rw [hglobal, hbranch]
  · rw [hglobal, hbranch]
    exact x.readParts_append t

end WrittenXaId

/-! ## Layouts -/

/-- A body in front of its padding. Its parts are those that the flags announce: a commit id by the
second bit, the id of a transaction manager by one of the highest two. -/
structure DomainGtidLayout where
  sequence : UInt64
  domain : UInt32
  flags : UInt8
  commitId : Option UInt64
  xid : Option WrittenXaId
  commitId_isSome : commitId.isSome = flags.toNat.testBit 1
  xid_isSome : xid.isSome = (flags.toNat.testBit 6 || flags.toNat.testBit 7)

namespace DomainGtidLayout

/-- The bytes in front of the parts. -/
def encodeFront (sequence : UInt64) (domain : UInt32) (flags : UInt8) : Bytes :=
  Bytes.ofNatLE 8 sequence.toNat ++ Bytes.ofNatLE 4 domain.toNat ++ [flags]

theorem length_encodeFront (sequence : UInt64) (domain : UInt32) (flags : UInt8) :
    (encodeFront sequence domain flags).length = 13 := by
  simp [encodeFront]

/-- The bytes of a commit id, if there is one. -/
def encodeCommitId (commitId : Option UInt64) : Bytes :=
  Bytes.ofOption (fun n => Bytes.ofNatLE 8 n.toNat) commitId

/-- The bytes of a layout. -/
def encode (l : DomainGtidLayout) : Bytes :=
  encodeFront l.sequence l.domain l.flags ++
    (encodeCommitId l.commitId ++ Bytes.ofOption WrittenXaId.encode l.xid)

theorem encode_append (l : DomainGtidLayout) (padding : Bytes) : l.encode ++ padding =
    Bytes.ofNatLE 8 l.sequence.toNat ++ (Bytes.ofNatLE 4 l.domain.toNat ++ l.flags ::
      (encodeCommitId l.commitId ++ (Bytes.ofOption WrittenXaId.encode l.xid ++ padding))) := by
  simp [encode, encodeFront]

/-- The start of a transaction on a server. -/
def meaning (server : UInt32) (l : DomainGtidLayout) : DomainGtidEvent where
  gtid := { domain := l.domain, server, sequence := l.sequence }
  flags := l.flags
  commitId := l.commitId
  xid := l.xid.map WrittenXaId.meaning

end DomainGtidLayout

namespace DomainGtidEvent

theorem announcesCommitId_eq (flags : UInt8) :
    announcesCommitId flags = flags.toNat.testBit 1 := by
  revert flags
  apply Bytes.forall_byte
  decide +kernel

theorem announcesXid_eq (flags : UInt8) :
    announcesXid flags = (flags.toNat.testBit 6 || flags.toNat.testBit 7) := by
  revert flags
  apply Bytes.forall_byte
  decide +kernel

theorem read_eq {ε : Type} [OfReadError ε] (server : UInt32) :
    (read server : Reader Bytes ε DomainGtidEvent) = (do
      let sequence ← u64
      let domain ← u32
      let flags ← u8
      let commitId ← ifAnnounced (announcesCommitId flags) u64
      let xid ← ifAnnounced (announcesXid flags) readXid
      let _ ← rest
      return { gtid := { domain, server, sequence }, flags, commitId, xid }) := by
  simp only [read, ifAnnounced, ite_bind]

/-- A start of a transaction is read exactly from a layout of it with padding behind. -/
theorem read_eq_ok_iff {ε : Type} [OfReadError ε] {server : UInt32} {s t : Bytes}
    {g : DomainGtidEvent} : (read server : Reader Bytes ε DomainGtidEvent) s = .ok g t ↔
      t = [] ∧ ∃ (l : DomainGtidLayout) (padding : Bytes),
        s = l.encode ++ padding ∧ g = l.meaning server := by
  have hword {s t : Bytes} {n : UInt64} : (u64 : Reader Bytes ε UInt64) s = .ok n t ↔
      ∃ m : UInt64, s = Bytes.ofNatLE 8 m.toNat ++ t ∧ n = id m := by
    simp [u64_eq_ok_iff]
  simp only [read_eq, bind_eq_ok_iff, u64_eq_ok_iff, u32_eq_ok_iff, u8_eq_ok_iff, rest_eq_ok_iff,
    pure_eq_ok_iff, ifAnnounced_eq_ok_iff fun _ _ _ => hword,
    ifAnnounced_eq_ok_iff fun _ _ _ => WrittenXaId.readXid_eq_ok_iff, announcesCommitId_eq,
    announcesXid_eq]
  constructor
  · rintro ⟨sequence, _, rfl, domain, _, rfl, flags, _, rfl, _, _, ⟨commitId, hcommit, rfl, rfl⟩, _,
      padding, ⟨xid, hxid, rfl, rfl⟩, _, _, ⟨-, rfl⟩, rfl, rfl⟩
    refine ⟨rfl, ⟨sequence, domain, flags, commitId, xid, hcommit, hxid⟩, padding, ?_, ?_⟩
    · simp [DomainGtidLayout.encode, DomainGtidLayout.encodeFront, DomainGtidLayout.encodeCommitId]
    · simp [DomainGtidLayout.meaning]
  · rintro ⟨rfl, l, padding, rfl, rfl⟩
    refine ⟨l.sequence, _, l.encode_append padding, l.domain, _, rfl, l.flags, _, rfl, l.commitId,
      _, ⟨l.commitId, l.commitId_isSome, rfl, ?_⟩, _, padding, ⟨l.xid, l.xid_isSome, rfl, rfl⟩,
      _, _, ⟨rfl, rfl⟩, rfl, rfl⟩
    simp

/-! ## Lengths -/

/-- How long the id of a transaction manager is, once the lengths of its parts are there. -/
def neededXid? (s : Bytes) : Option Nat := do
  let globalLength ← s[4]?
  let branchLength ← s[5]?
  return 6 + globalLength.toNat + branchLength.toNat

/-- How long a body must be, once its flags and the lengths that they announce are there. -/
def neededLength? (b : Bytes) : Option Nat := do
  let flags ← b[12]?
  let front := 13 + if flags.toNat.testBit 1 then 8 else 0
  if flags.toNat.testBit 6 || flags.toNat.testBit 7 then
    let xid ← neededXid? (b.drop front)
    return front + xid
  else
    return front

theorem neededXid?_append (x : WrittenXaId) (t : Bytes) :
    neededXid? (x.encode ++ t) = some x.encode.length := by
  have hglobal := UInt8.toNat_ofNat_of_lt' x.globalPart_lt
  have hbranch := UInt8.toNat_ofNat_of_lt' x.branchPart_lt
  have hfront : (Bytes.ofNatLE 4 x.formatId.toNat).length = 4 := Bytes.length_ofNatLE 4 _
  rw [x.encode_append t, x.length_encode]
  simp [neededXid?, List.getElem?_append_right, hfront, hglobal, hbranch]

theorem length_encodeCommitId {commitId : Option UInt64} {announced : Bool}
    (h : commitId.isSome = announced) :
    (DomainGtidLayout.encodeCommitId commitId).length = if announced then 8 else 0 := by
  rw [← h]
  cases commitId with
  | none => rfl
  | some n => exact Bytes.length_ofNatLE 8 _

/-- Behind the commit id only the id of a transaction manager can need more bytes. -/
theorem neededLength?_append {sequence : UInt64} {domain : UInt32} {flags : UInt8}
    {commitId : Option UInt64} (hcommit : commitId.isSome = flags.toNat.testBit 1) (s : Bytes) :
    neededLength? (DomainGtidLayout.encodeFront sequence domain flags ++
        (DomainGtidLayout.encodeCommitId commitId ++ s)) =
      if flags.toNat.testBit 6 || flags.toNat.testBit 7 then
        (neededXid? s).map (13 + (DomainGtidLayout.encodeCommitId commitId).length + ·)
      else some (13 + (DomainGtidLayout.encodeCommitId commitId).length) := by
  have hfront : (DomainGtidLayout.encodeFront sequence domain flags).length = 13 :=
    DomainGtidLayout.length_encodeFront sequence domain flags
  have hflags (t : Bytes) :
      (DomainGtidLayout.encodeFront sequence domain flags ++ t)[12]? = some flags := by
    simp [DomainGtidLayout.encodeFront, List.getElem?_append_right]
  have hdrop : (DomainGtidLayout.encodeFront sequence domain flags ++
      (DomainGtidLayout.encodeCommitId commitId ++ s)).drop
        (13 + (DomainGtidLayout.encodeCommitId commitId).length) = s := by
    rw [← List.append_assoc]
    exact List.drop_left' (by rw [List.length_append, hfront])
  simp only [neededLength?, hflags, Option.bind_eq_bind, Option.bind_some,
    ← length_encodeCommitId hcommit, hdrop]
  split_ifs
  · cases neededXid? s <;> rfl
  · rfl

theorem neededLength?_encode_append (l : DomainGtidLayout) (padding : Bytes) :
    neededLength? (l.encode ++ padding) = some l.encode.length := by
  obtain ⟨sequence, domain, flags, commitId, xid, hcommit, hxid⟩ := l
  simp only [DomainGtidLayout.encode, List.append_assoc, List.length_append,
    DomainGtidLayout.length_encodeFront]
  rw [neededLength?_append hcommit, ← hxid]
  cases xid with
  | none => rfl
  | some x =>
    have hneeded : neededXid? (Bytes.ofOption WrittenXaId.encode (some x) ++ padding) =
        some x.encode.length := neededXid?_append x padding
    rw [hneeded]
    simp [Bytes.ofOption, Nat.add_assoc]

/-! ### Bytes that suffice -/

theorem drop_eq_cons {α : Type} {xs : List α} {i : Nat} {x : α} (h : xs[i]? = some x) :
    xs.drop i = x :: xs.drop (i + 1) := by
  rw [List.drop_eq_getElem?_toList_append, h]
  rfl

theorem takes_readParts (formatId : UInt32) (n m : Nat) :
    Takes (n + m) (XaId.readParts formatId n m : Reader Bytes ReadError XaId) :=
  (Takes.take n).bind fun _ => (Takes.take m).bind fun _ => .pure _

/-- Bytes that suffice for an id start with one. -/
theorem exists_xid_append {s : Bytes} {n : Nat} (hn : neededXid? s = some n) (hle : n ≤ s.length) :
    ∃ (x : WrittenXaId) (t : Bytes), s = x.encode ++ t := by
  simp only [neededXid?, Option.bind_eq_bind, Option.bind_eq_some_iff] at hn
  obtain ⟨globalLength, hglobal, branchLength, hbranch, hn⟩ := hn
  cases hn
  obtain ⟨formatId, hformat⟩ := Takes.u32 (ε := ReadError) s (by omega)
  obtain ⟨id, hparts⟩ := takes_readParts formatId globalLength.toNat branchLength.toNat (s.drop 6)
    (by rw [List.length_drop]; omega)
  have hread : ∃ t, (readXid : Reader Bytes ReadError XaId) s = .ok id t := by
    rw [readXid, bind_of_ok hformat, bind_of_ok (u8_eq_ok_iff.mpr (drop_eq_cons hglobal)),
      bind_of_ok (u8_eq_ok_iff.mpr (drop_eq_cons hbranch))]
    exact ⟨_, hparts⟩
  obtain ⟨t, hread⟩ := hread
  obtain ⟨x, hx, -⟩ := WrittenXaId.readXid_eq_ok_iff.mp hread
  exact ⟨x, t, hx⟩

/-- Bytes that go as far as the flags start with two numbers. -/
theorem exists_front_append {b : Bytes} {flags : UInt8} (hflags : b[12]? = some flags) :
    ∃ (sequence : UInt64) (domain : UInt32) (t : Bytes),
      b = DomainGtidLayout.encodeFront sequence domain flags ++ t := by
  obtain ⟨hlt, -⟩ := List.getElem?_eq_some_iff.mp hflags
  obtain ⟨sequence, hsequence⟩ := Takes.u64 (ε := ReadError) b (by omega)
  obtain ⟨domain, hdomain⟩ := Takes.u32 (ε := ReadError) (b.drop 8)
    (by rw [List.length_drop]; omega)
  have hfront := u64_eq_ok_iff.mp hsequence
  rw [u32_eq_ok_iff.mp hdomain, List.drop_drop, drop_eq_cons hflags] at hfront
  refine ⟨sequence, domain, b.drop 13, ?_⟩
  simpa [DomainGtidLayout.encodeFront] using hfront

/-- A commit id that is announced is there if its bytes are. -/
theorem exists_commitId_append (announced : Bool) {s : Bytes}
    (hs : (if announced then 8 else 0) ≤ s.length) :
    ∃ (commitId : Option UInt64) (t : Bytes), commitId.isSome = announced ∧
      s = DomainGtidLayout.encodeCommitId commitId ++ t := by
  cases announced with
  | true =>
    obtain ⟨n, t, rfl⟩ := Bytes.exists_word hs
    exact ⟨some n, t, rfl, rfl⟩
  | false => exact ⟨none, s, rfl, rfl⟩

/-- A body is at least as long as the numbers that its flags announce. -/
theorem front_le {b : Bytes} {flags : UInt8} {n : Nat} (hflags : b[12]? = some flags)
    (hn : neededLength? b = some n) : 13 + (if flags.toNat.testBit 1 then 8 else 0) ≤ n := by
  simp only [neededLength?, hflags, Option.bind_eq_bind, Option.bind_some] at hn
  by_cases hxid : (flags.toNat.testBit 6 || flags.toNat.testBit 7) = true
  · rw [if_pos hxid, Option.bind_eq_some_iff] at hn
    obtain ⟨m, -, hm⟩ := hn
    cases hm
    exact Nat.le_add_right _ _
  · rw [if_neg hxid] at hn
    cases hn
    exact Nat.le_refl _

/-- A body starts with a layout exactly if it is as long as it must be. -/
theorem exists_layout_append_iff {b : Bytes} :
    (∃ (l : DomainGtidLayout) (padding : Bytes), b = l.encode ++ padding) ↔
      ∃ n ∈ neededLength? b, n ≤ b.length := by
  constructor
  · rintro ⟨l, padding, rfl⟩
    refine ⟨l.encode.length, neededLength?_encode_append l padding, ?_⟩
    rw [List.length_append]
    exact Nat.le_add_right _ _
  · rintro ⟨n, hn, hle⟩
    obtain ⟨flags, hflags, -⟩ := Option.bind_eq_some_iff.mp hn
    have hfront := front_le hflags hn
    obtain ⟨sequence, domain, s, rfl⟩ := exists_front_append hflags
    rw [List.length_append, DomainGtidLayout.length_encodeFront] at hle
    have hannounced : (if flags.toNat.testBit 1 then 8 else 0) ≤ s.length := by omega
    obtain ⟨commitId, t, hcommit, rfl⟩ := exists_commitId_append _ hannounced
    rw [neededLength?_append hcommit] at hn
    rw [List.length_append] at hle
    cases hxid : (flags.toNat.testBit 6 || flags.toNat.testBit 7) with
    | true =>
      rw [hxid, if_pos rfl] at hn
      obtain ⟨m, hm, rfl⟩ := Option.map_eq_some_iff.mp hn
      obtain ⟨x, padding, rfl⟩ := exists_xid_append hm (by omega)
      refine ⟨⟨sequence, domain, flags, commitId, some x, hcommit, hxid.symm⟩, padding, ?_⟩
      simp [DomainGtidLayout.encode, Bytes.ofOption]
    | false =>
      refine ⟨⟨sequence, domain, flags, commitId, none, hcommit, hxid.symm⟩, t, ?_⟩
      simp [DomainGtidLayout.encode, Bytes.ofOption]

/-! ## Failures -/

/-- A body is rejected exactly if it is too short. -/
theorem fails_iff {server : UInt32} {b : Bytes} :
    (∃ e, Fails (read server : Reader Bytes DecodeError DomainGtidEvent) b e) ↔
      ∀ n ∈ neededLength? b, b.length < n := by
  have hok : (∃ g t, (read server : Reader Bytes DecodeError DomainGtidEvent) b = .ok g t) ↔
      ∃ n ∈ neededLength? b, n ≤ b.length := by
    rw [← exists_layout_append_iff]
    constructor
    · rintro ⟨g, t, h⟩
      obtain ⟨-, l, padding, hb, -⟩ := read_eq_ok_iff.mp h
      exact ⟨l, padding, hb⟩
    · rintro ⟨l, padding, hb⟩
      exact ⟨_, [], read_eq_ok_iff.mpr ⟨rfl, l, padding, hb, rfl⟩⟩
  constructor
  · rintro ⟨e, he⟩ n hn
    by_contra hlt
    obtain ⟨g, t, h⟩ := hok.mpr ⟨n, hn, Nat.le_of_not_lt hlt⟩
    exact not_fails_of_ok h he
  · intro hshort
    rcases ok_or_fails (read server : Reader Bytes DecodeError DomainGtidEvent) b with h | h
    · obtain ⟨n, hn, hle⟩ := hok.mp h
      exact absurd (hshort n hn) (Nat.not_lt_of_le hle)
    · exact h

/-- Nothing but missing bytes makes a body rejected. -/
theorem isUnderrun_of_fails {server : UInt32} {b : Bytes} {e : DecodeError}
    (h : Fails (read server : Reader Bytes DecodeError DomainGtidEvent) b e) :
    e.isUnderrun = true := by
  obtain ⟨t, h⟩ := h
  have hagrees := agrees_read (σ := Bytes) (R := Eq)
    (E := fun e : DecodeError => ∃ n, e = cut n) (.refl fun n => ⟨n, rfl⟩) server
  obtain ⟨n, rfl⟩ := hagrees.admitted rfl h
  rfl

/-! ## The main result -/

/-- **Transactions of MariaDB.** A body is read exactly if it is a layout with padding behind it:
two numbers, the flags, and the parts that the flags announce. What is read is what the layout
means, to the end of the body. A body is rejected exactly if it is shorter than its flags and the
lengths in it tell, or does not go as far as these, and always because bytes are missing. A part of
the id of a transaction manager that is UTF-8 is kept as it is, and the id is the one that is read
where a transaction is prepared under it. -/
theorem read_announced (server : UInt32) :
    (∀ (b t : Bytes) (g : DomainGtidEvent),
      (read server : Reader Bytes DecodeError DomainGtidEvent) b = .ok g t ↔
        t = [] ∧ ∃ (l : DomainGtidLayout) (padding : Bytes),
          b = l.encode ++ padding ∧ g = l.meaning server) ∧
    (∀ b : Bytes, (∃ e, Fails (read server : Reader Bytes DecodeError DomainGtidEvent) b e) ↔
      ∀ n ∈ neededLength? b, b.length < n) ∧
    (∀ (b : Bytes) (e : DecodeError),
      Fails (read server : Reader Bytes DecodeError DomainGtidEvent) b e → e.isUnderrun = true) ∧
    (∀ (x : WrittenXaId) (text : String),
      (x.globalPart = Utf8.encode text → x.meaning.globalPart = text) ∧
        (x.branchPart = Utf8.encode text → x.meaning.branchPart = text)) ∧
    ∀ (l : DomainGtidLayout) (padding : Bytes) (x : WrittenXaId) (onePhase : UInt8) (t : Bytes),
      l.xid = some x → ∃ (g : DomainGtidEvent) (p : XaPrepare),
        (read server : Reader Bytes DecodeError DomainGtidEvent) (l.encode ++ padding) = .ok g [] ∧
          (XaPrepare.read : Reader Bytes DecodeError XaPrepare)
            (onePhase :: (x.encodeWide ++ t)) = .ok p t ∧
          g.xid = some p.id := by
  refine ⟨fun b t g => read_eq_ok_iff, fun b => fails_iff, fun b e => isUnderrun_of_fails,
    WrittenXaId.meaning_of_encode, ?_⟩
  intro l padding x onePhase t hx
  refine ⟨l.meaning server, _, read_eq_ok_iff.mpr ⟨rfl, l, padding, rfl, rfl⟩,
    x.read_xaPrepare onePhase t, ?_⟩
  rw [DomainGtidLayout.meaning, hx]
  rfl

/-- A commit id and the id of a transaction manager whose global part is not UTF-8, with padding
behind them, and the same body without its last byte. -/
theorem read_announced_both_parts :
    let x : WrittenXaId := ⟨1, [0x61, 0xff], [0x62], by decide, by decide⟩
    let l : DomainGtidLayout := ⟨7, 3, 0x42, some 9, some x, by decide, by decide⟩
    l.encode = [7, 0, 0, 0, 0, 0, 0, 0, 3, 0, 0, 0, 0x42, 9, 0, 0, 0, 0, 0, 0, 0, 1, 0, 0, 0, 2, 1,
        0x61, 0xff, 0x62] ∧
      (∃ (g : DomainGtidEvent) (p : XaPrepare),
        (read 5 : Reader Bytes DecodeError DomainGtidEvent) (l.encode ++ [0, 0]) = .ok g [] ∧
          (XaPrepare.read : Reader Bytes DecodeError XaPrepare)
            [1, 1, 0, 0, 0, 2, 0, 0, 0, 1, 0, 0, 0, 0x61, 0xff, 0x62] = .ok p [] ∧
          g.xid = some p.id) ∧
      x.meaning.branchPart = "b" ∧
      ∃ e, Fails (read 5 : Reader Bytes DecodeError DomainGtidEvent) (l.encode.take 29) e ∧
        e.isUnderrun = true := by
  intro x l
  obtain ⟨-, hfails, hunderrun, htext, hxid⟩ := read_announced 5
  have hneeded : neededLength? (l.encode.take 29) = some 30 := by decide
  have hshort : ∀ n ∈ neededLength? (l.encode.take 29), (l.encode.take 29).length < n := by
    rw [hneeded]
    decide
  obtain ⟨e, he⟩ := (hfails (l.encode.take 29)).mpr hshort
  have hwide : x.encodeWide ++ [] =
      [1, 0, 0, 0, 2, 0, 0, 0, 1, 0, 0, 0, 0x61, 0xff, 0x62] := by decide
  have hboth := hxid l [0, 0] x 1 [] rfl
  rw [hwide] at hboth
  exact ⟨by decide, hboth, (htext x "b").2 (by decide), e, he, hunderrun _ e he⟩

end DomainGtidEvent

end Binlog
