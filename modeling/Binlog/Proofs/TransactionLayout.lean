import Binlog.Proofs.UnknownServer
import Binlog.Proofs.Writing

/-!
# The layout of a transaction

Behind the flag and the id of a transaction five parts may follow: a clock, commit times, a length,
versions and a ticket. Each may be missing, and then so are all behind it. The layout is nested in
that way (`TransactionLayout`), so that there is no layout with a gap.

**Marked numbers** (`MarkedNumber`). Times and versions come in one form: a number whose top bit
tells whether a second one of the same width follows. The top bit is not part of the number.

**Reading to the end.** The reader goes by the number of bytes ahead of each part. That is enough,
because the part behind is missing just if none are left: a part is read to the end of the body
exactly from nothing, or from its own form with a form of the next part behind it.

Main statement: `GtidEvent.read_layout`.
-/

namespace Binlog

open Reader

/-- The form of a part that may be missing. -/
def Bytes.ofOption {α : Type} (encode : α → Bytes) (part : Option α) : Bytes := part.elim [] encode

/-! ## Marked numbers -/

/-- A number, and a second one behind it if the top bit of the first is set. -/
structure MarkedNumber (width : Nat) where
  first : Nat
  second : Option Nat
  first_lt : first < 256 ^ width
  second_lt : ∀ n ∈ second, n < 256 ^ width
  second_isSome : second.isSome = first.testBit (8 * width - 1)

namespace MarkedNumber

variable {width : Nat}

/-- The one or two numbers, lowest byte first. -/
def encode (m : MarkedNumber width) : Bytes :=
  Bytes.ofNatLE width m.first ++ Bytes.ofOption (Bytes.ofNatLE width) m.second

/-- The first number without its top bit. -/
def here (m : MarkedNumber width) : Nat := m.first % 2 ^ (8 * width - 1)

/-- The second number if there is one, else the first. -/
def origin (m : MarkedNumber width) : Nat := m.second.getD m.first

theorem le_length_encode (m : MarkedNumber width) : width ≤ m.encode.length := by
  rw [encode, List.length_append, Bytes.length_ofNatLE]
  omega

theorem testBit_top {n k : Nat} (h : n < 2 ^ (k + 1)) : n.testBit k = decide (2 ^ k ≤ n) := by
  have hpos : 0 < 2 ^ k := Nat.pow_pos (by decide)
  have hquot : n / 2 ^ k < 2 := by
    rw [Nat.div_lt_iff_lt_mul hpos, ← Nat.pow_succ']
    exact h
  rw [Nat.testBit_eq_decide_div_mod_eq, decide_eq_decide, Nat.mod_eq_of_lt hquot,
    ← Nat.one_mul (2 ^ k), ← Nat.le_div_iff_mul_le hpos, Nat.one_mul]
  exact Nat.le_antisymm_iff.trans (and_iff_right (Nat.le_of_lt_succ hquot))

theorem pow_eq (hwidth : 0 < width) : 256 ^ width = 2 ^ (8 * width - 1 + 1) := by
  have hbits : 8 * width - 1 + 1 = 8 * width := by omega
  rw [hbits, Nat.pow_mul]

/-- A marked number is one number without the top bit, or two of which the first has it. -/
theorem exists_iff (hwidth : 0 < width) {P : Bytes → Nat → Nat → Prop} :
    (∃ m : MarkedNumber width, P m.encode m.here m.origin) ↔
      (∃ n < 2 ^ (8 * width - 1), P (Bytes.ofNatLE width n) n n) ∨
        ∃ n < 2 ^ (8 * width - 1), ∃ o < 256 ^ width,
          P (Bytes.ofNatLE width (2 ^ (8 * width - 1) + n) ++ Bytes.ofNatLE width o) n o := by
  have hpow := pow_eq hwidth
  rw [Nat.pow_succ] at hpow
  have htop {n : Nat} (hn : n < 256 ^ width) :
      n.testBit (8 * width - 1) = decide (2 ^ (8 * width - 1) ≤ n) := testBit_top (by omega)
  refine ⟨?_, ?_⟩
  · rintro ⟨⟨first, second, hfirst, hsecond, hmark⟩, hm⟩
    rw [htop hfirst] at hmark
    cases second with
    | none =>
      have hlt : first < 2 ^ (8 * width - 1) := by simpa using hmark.symm
      refine .inl ⟨first, hlt, ?_⟩
      simpa [encode, here, origin, Bytes.ofOption, Nat.mod_eq_of_lt hlt] using hm
    | some o =>
      have hle : 2 ^ (8 * width - 1) ≤ first := by simpa using hmark.symm
      obtain ⟨n, rfl⟩ := Nat.exists_eq_add_of_le hle
      have hlt : n < 2 ^ (8 * width - 1) := by omega
      refine .inr ⟨n, hlt, o, hsecond o rfl, ?_⟩
      simpa [encode, here, origin, Bytes.ofOption, Nat.mod_eq_of_lt hlt] using hm
  · rintro (⟨n, hlt, hn⟩ | ⟨n, hlt, o, ho, hn⟩)
    · have hbound : n < 256 ^ width := by omega
      have hmark : (none : Option Nat).isSome = n.testBit (8 * width - 1) := by
        rw [htop hbound]
        simpa using hlt
      refine ⟨⟨n, none, hbound, by simp, hmark⟩, ?_⟩
      simpa [encode, here, origin, Bytes.ofOption, Nat.mod_eq_of_lt hlt] using hn
    · have hbound : 2 ^ (8 * width - 1) + n < 256 ^ width := by omega
      have hmark : (some o).isSome = (2 ^ (8 * width - 1) + n).testBit (8 * width - 1) := by
        rw [htop hbound]
        simp
      refine ⟨⟨_, some o, hbound, by simpa using ho, hmark⟩, ?_⟩
      simpa [encode, here, origin, Bytes.ofOption, Nat.mod_eq_of_lt hlt] using hn

/-! ### Reading -/

section Words

variable {ε ω α : Type} {word : Reader Bytes ε ω} {toNat : ω → Nat} {ofNat : Nat → ω}

/-- Two words behind each other, of which the second is there if the first has its top bit. -/
theorem read_eq_ok_iff (hwidth : 0 < width)
    (hword : ∀ s w t, word s = .ok w t ↔
      toNat w < 256 ^ width ∧ s = Bytes.ofNatLE width (toNat w) ++ t)
    (hof : ∀ w, ofNat (toNat w) = w) (hto : ∀ n < 256 ^ width, toNat (ofNat n) = n)
    {Marked : ω → Prop} [DecidablePred Marked]
    (hmarked : ∀ w, Marked w ↔ 2 ^ (8 * width - 1) ≤ toNat w) {clear : ω → ω}
    (hclear : ∀ w, Marked w → toNat (clear w) = toNat w - 2 ^ (8 * width - 1)) (f : ω → ω → α)
    {s t : Bytes} {a : α} :
    (do
      let w ← word
      if Marked w then return f (clear w) (← word) else return f w w : Reader Bytes ε α) s =
        .ok a t ↔
      ∃ m : MarkedNumber width, s = m.encode ++ t ∧ a = f (ofNat m.here) (ofNat m.origin) := by
  have hpow := pow_eq hwidth
  rw [Nat.pow_succ] at hpow
  rw [exists_iff hwidth
    (P := fun bs here origin => s = bs ++ t ∧ a = f (ofNat here) (ofNat origin))]
  simp only [bind_eq_ok_iff, ite_eq_ok_iff, pure_eq_ok_iff, hword]
  refine ⟨?_, ?_⟩
  · rintro ⟨w, _, ⟨hw, rfl⟩, ⟨hm, o, _, ⟨ho, rfl⟩, rfl, rfl⟩ | ⟨hm, rfl, rfl⟩⟩
    · have hle := (hmarked w).mp hm
      have hsum : 2 ^ (8 * width - 1) + toNat (clear w) = toNat w := by
        rw [hclear w hm]
        omega
      refine .inr ⟨toNat (clear w), by omega, toNat o, ho, ?_, by rw [hof, hof]⟩
      rw [hsum, List.append_assoc]
    · rw [hmarked, Nat.not_le] at hm
      exact .inl ⟨toNat w, hm, rfl, by rw [hof]⟩
  · rintro (⟨n, hn, rfl, rfl⟩ | ⟨n, hn, o, ho, rfl, rfl⟩)
    · have hvalue := hto n (by omega)
      refine ⟨ofNat n, t, ⟨by omega, by rw [hvalue]⟩, .inr ⟨?_, rfl, rfl⟩⟩
      rw [hmarked]
      omega
    · have hvalue := hto (2 ^ (8 * width - 1) + n) (by omega)
      have hm : Marked (ofNat (2 ^ (8 * width - 1) + n)) := by
        rw [hmarked]
        omega
      have hcleared : clear (ofNat (2 ^ (8 * width - 1) + n)) = ofNat n := by
        rw [← hof (clear _), hclear _ hm, hvalue, Nat.add_sub_cancel_left]
      refine ⟨_, _, ⟨by omega, by rw [hvalue, List.append_assoc]⟩, .inl ⟨hm, ofNat o, t, ⟨?_, ?_⟩,
        by rw [hcleared], rfl⟩⟩
      · rwa [hto o ho]
      · rw [hto o ho]

end Words

end MarkedNumber

/-! ## Layouts -/

/-- A clock's bytes. -/
def LogicalClock.encode (c : LogicalClock) : Bytes :=
  c.kind :: Bytes.ofNatLE 8 c.lastCommitted.toNat ++ Bytes.ofNatLE 8 c.sequenceNumber.toNat

/-- Versions, and behind them a ticket or nothing. -/
structure VersionLayout where
  versions : MarkedNumber 4
  ticket : Option UInt64

/-- A length, and behind it versions or nothing. -/
structure LengthLayout where
  length : LenEncInt
  fits : length.Fits
  versions : Option VersionLayout

/-- Commit times, and behind them a length or nothing. -/
structure CommitLayout where
  times : MarkedNumber 7
  length : Option LengthLayout

/-- A clock, and behind it commit times or nothing. -/
structure ClockLayout where
  clock : LogicalClock
  commit : Option CommitLayout

/-- A flag and the id of a transaction, and behind them a clock or nothing. -/
structure TransactionLayout where
  flag : UInt8
  gtid : Gtid
  clock : Option ClockLayout

/-! ### Bytes -/

def VersionLayout.encode (l : VersionLayout) : Bytes :=
  l.versions.encode ++ Bytes.ofOption (fun n => Bytes.ofNatLE 8 n.toNat) l.ticket

def LengthLayout.encode (l : LengthLayout) : Bytes :=
  l.length.encode ++ Bytes.ofOption VersionLayout.encode l.versions

def CommitLayout.encode (l : CommitLayout) : Bytes :=
  l.times.encode ++ Bytes.ofOption LengthLayout.encode l.length

def ClockLayout.encode (l : ClockLayout) : Bytes :=
  l.clock.encode ++ Bytes.ofOption CommitLayout.encode l.commit

def TransactionLayout.encode (l : TransactionLayout) : Bytes :=
  l.flag :: l.gtid.source.encode ++ Bytes.ofNatLE 8 l.gtid.number.toNat ++
    Bytes.ofOption ClockLayout.encode l.clock

/-! ### Sizes -/

theorem VersionLayout.le_length_encode (l : VersionLayout) : 4 ≤ l.encode.length := by
  have := l.versions.le_length_encode
  rw [encode, List.length_append]
  omega

theorem LengthLayout.encode_ne_nil (l : LengthLayout) : l.encode ≠ [] := by
  cases hlength : l.length <;> simp [encode, LenEncInt.encode, hlength]

theorem CommitLayout.le_length_encode (l : CommitLayout) :
    CommitInfo.timeSize ≤ l.encode.length := by
  have := l.times.le_length_encode
  rw [encode, List.length_append]
  exact Nat.le_add_right_of_le this

theorem ClockLayout.le_length_encode (l : ClockLayout) :
    LogicalClock.size ≤ l.encode.length := by
  simp only [encode, LogicalClock.encode, List.length_append, List.length_cons,
    Bytes.length_ofNatLE, LogicalClock.size]
  omega

/-! ### Meaning -/

/-- The versions here and at the origin, and the ticket. -/
def VersionLayout.meaning (l : Option VersionLayout) :
    (Option UInt32 × Option UInt32) × Option UInt64 :=
  ((l.map fun l => .ofNat l.versions.here, l.map fun l => .ofNat l.versions.origin),
    l.bind ticket)

/-- What is known of a commit. A length that is no number counts as missing. -/
def CommitLayout.meaning (l : CommitLayout) : CommitInfo :=
  let (versions, ticket) := VersionLayout.meaning (l.length.bind LengthLayout.versions)
  { immediateTime := .ofNat l.times.here
    originTime := .ofNat l.times.origin
    transactionLength := l.length.bind fun l => l.length.toUInt64?
    immediateVersion := versions.1
    originVersion := versions.2
    ticket := ticket }

/-- The start of a transaction. -/
def TransactionLayout.meaning (l : TransactionLayout) : GtidEvent where
  commitFlag := l.flag == 1
  gtid := l.gtid
  clock := l.clock.map ClockLayout.clock
  commit := (l.clock.bind ClockLayout.commit).map CommitLayout.meaning

/-! ## Reading to the end -/

variable {s t : Bytes}

namespace CommitInfo

theorem readTimes_eq_ok_iff {times : UInt64 × UInt64} :
    (readTimes : Reader Bytes DecodeError (UInt64 × UInt64)) s = .ok times t ↔
      ∃ m : MarkedNumber 7, s = m.encode ++ t ∧ times = (.ofNat m.here, .ofNat m.origin) := by
  have hmark : timeMark.toNat = 2 ^ (8 * 7 - 1) := by decide
  refine MarkedNumber.read_eq_ok_iff (by decide) (fun _ _ _ => u56_eq_ok_iff)
    (fun _ => UInt64.ofNat_toNat) (fun n hn => UInt64.toNat_ofNat_of_lt' ?_) (fun w => ?_)
    (fun w hw => ?_) Prod.mk
  · exact Nat.lt_trans hn (by decide)
  · rw [UInt64.le_iff_toNat_le, hmark]
  · rw [UInt64.toNat_sub_of_le _ _ hw, hmark]

theorem readVersions_eq_ok_iff {versions : Option UInt32 × Option UInt32} :
    (readVersions : Reader Bytes DecodeError (Option UInt32 × Option UInt32)) s =
        .ok versions t ↔
      s.length < 4 ∧ versions = (none, none) ∧ t = s ∨ 4 ≤ s.length ∧
        ∃ m : MarkedNumber 4, s = m.encode ++ t ∧
          versions = (some (.ofNat m.here), some (.ofNat m.origin)) := by
  have hmark : versionMark.toNat = 2 ^ (8 * 4 - 1) := by decide
  rw [readVersions, left_bind, ite_eq_ok_iff, pure_eq_ok_iff, Nat.not_lt, @eq_comm _ (none, none),
    @eq_comm _ s]
  refine or_congr_right (and_congr_right fun _ => ?_)
  refine MarkedNumber.read_eq_ok_iff (by decide) (fun s w t => ?_) (fun _ => UInt32.ofNat_toNat)
    (fun n hn => UInt32.toNat_ofNat_of_lt' hn) (fun w => ?_) (fun w hw => ?_)
    fun here origin => (some here, some origin)
  · exact u32_eq_ok_iff.trans (and_iff_right w.toNat_lt).symm
  · rw [UInt32.le_iff_toNat_le, hmark]
  · rw [UInt32.toNat_sub_of_le _ _ hw, hmark]

/-- Reads the ticket if its bytes are there. -/
def readTicket : Reader Bytes DecodeError (Option UInt64) := do
  if 8 ≤ (← Reader.left) then some <$> Reader.u64 else pure none

/-- Reads what follows the length. -/
def readTail : Reader Bytes DecodeError ((Option UInt32 × Option UInt32) × Option UInt64) := do
  let versions ← readVersions
  let ticket ← readTicket
  return (versions, ticket)

/-- Reads the length if a byte is there. -/
def readLength : Reader Bytes DecodeError (Option UInt64) := do
  if ← Reader.hasMore then LenEncInt.toUInt64? <$> Reader.lenEncInt else pure none

theorem read_eq : (read : Reader Bytes DecodeError CommitInfo) = (do
    let times ← readTimes
    let transactionLength ← readLength
    let (versions, ticket) ← readTail
    return { immediateTime := times.1, originTime := times.2, transactionLength,
             immediateVersion := versions.1, originVersion := versions.2, ticket }) := by
  simp only [read, readTail, readLength, readTicket, ite_bind, bind_assoc, pure_bind]

theorem readTicket_end_iff {ticket : Option UInt64} : readTicket s = .ok ticket [] ↔
    s = Bytes.ofOption (fun n => Bytes.ofNatLE 8 n.toNat) ticket := by
  rw [readTicket, left_bind, ite_eq_ok_iff, pure_eq_ok_iff, map_eq_ok_iff]
  refine ⟨?_, fun hs => ?_⟩
  · rintro (⟨-, n, hn, rfl⟩ | ⟨-, rfl, rfl⟩)
    · rw [u64_eq_ok_iff.mp hn, List.append_nil]
      rfl
    · rfl
  · cases ticket with
    | none => exact .inr ⟨by rw [hs]; decide, rfl, hs⟩
    | some n =>
      refine .inl ⟨by rw [hs]; simp [Bytes.ofOption], n, u64_eq_ok_iff.mpr ?_, rfl⟩
      rw [hs, List.append_nil]
      rfl

theorem readTail_end_iff {tail : (Option UInt32 × Option UInt32) × Option UInt64} :
    readTail s = .ok tail [] ↔ ∃ l : Option VersionLayout,
      s = Bytes.ofOption VersionLayout.encode l ∧ tail = VersionLayout.meaning l := by
  simp only [readTail, bind_eq_ok_iff, pure_eq_ok_iff, readVersions_eq_ok_iff]
  refine ⟨?_, ?_⟩
  · rintro ⟨versions, u, hversions, ticket, _, hticket, rfl, rfl⟩
    rw [readTicket_end_iff] at hticket
    obtain ⟨hlt, rfl, rfl⟩ | ⟨-, m, rfl, rfl⟩ := hversions
    · cases ticket with
      | none => exact ⟨none, hticket, rfl⟩
      | some n =>
        -- a ticket has more bytes than versions need
        have hlen : u.length = 8 := by rw [hticket]; simp [Bytes.ofOption]
        omega
    · exact ⟨some ⟨m, ticket⟩, by rw [hticket]; rfl, rfl⟩
  · rintro ⟨l, rfl, rfl⟩
    cases l with
    | none =>
      exact ⟨_, [], .inl ⟨by decide, rfl, rfl⟩, none, [], readTicket_end_iff.mpr rfl, rfl, rfl⟩
    | some l =>
      exact ⟨_, _, .inr ⟨l.le_length_encode, l.versions, rfl, rfl⟩, l.ticket, [],
        readTicket_end_iff.mpr rfl, rfl, rfl⟩

theorem readLength_end_iff {length : Option UInt64}
    {tail : (Option UInt32 × Option UInt32) × Option UInt64} :
    (∃ u, readLength s = .ok length u ∧ readTail u = .ok tail []) ↔ ∃ l : Option LengthLayout,
      s = Bytes.ofOption LengthLayout.encode l ∧ length = l.bind (fun l => l.length.toUInt64?) ∧
        tail = VersionLayout.meaning (l.bind LengthLayout.versions) := by
  simp only [readLength, bind_eq_ok_iff, hasMore_eq_ok_iff, ite_eq_ok_iff, map_eq_ok_iff,
    lenEncInt_eq_ok_iff, pure_eq_ok_iff, readTail_end_iff]
  refine ⟨?_, ?_⟩
  · rintro ⟨u, ⟨_, _, ⟨rfl, rfl⟩, ⟨-, n, ⟨hfits, rfl⟩, rfl⟩ | ⟨hnil, rfl, rfl⟩⟩, l, hl, rfl⟩
    · exact ⟨some ⟨n, hfits, l⟩, by rw [hl]; rfl, rfl, rfl⟩
    · have hempty := List.isEmpty_iff.mp (by simpa using hnil)
      rw [hempty] at hl ⊢
      cases l with
      | none => exact ⟨none, rfl, rfl, rfl⟩
      | some l =>
        have hlen := l.le_length_encode
        exact absurd (congrArg List.length hl) (Nat.ne_of_lt (Nat.lt_of_lt_of_le (by decide) hlen))
  · rintro ⟨l, rfl, rfl, rfl⟩
    cases l with
    | none => exact ⟨[], ⟨_, _, ⟨rfl, rfl⟩, .inr ⟨by decide, rfl, rfl⟩⟩, none, rfl, rfl⟩
    | some l =>
      refine ⟨_, ⟨_, _, ⟨rfl, rfl⟩, .inl ⟨?_, l.length, ⟨l.fits, rfl⟩, rfl⟩⟩, l.versions, rfl, rfl⟩
      simpa [Bytes.ofOption] using l.encode_ne_nil

/-- What is known of a commit is read to the end exactly from a layout of it. -/
theorem read_end_iff {info : CommitInfo} :
    (read : Reader Bytes DecodeError CommitInfo) s = .ok info [] ↔
      ∃ l : CommitLayout, s = l.encode ∧ info = l.meaning := by
  simp only [read_eq, bind_eq_ok_iff, pure_eq_ok_iff, readTimes_eq_ok_iff]
  refine ⟨?_, ?_⟩
  · rintro ⟨_, u, ⟨m, rfl, rfl⟩, length, v, hlength, tail, _, htail, rfl, rfl⟩
    obtain ⟨l, rfl, rfl, rfl⟩ := readLength_end_iff.mp ⟨v, hlength, htail⟩
    exact ⟨⟨m, l⟩, rfl, rfl⟩
  · rintro ⟨l, rfl, rfl⟩
    obtain ⟨u, hlength, htail⟩ := readLength_end_iff.mpr ⟨l.length, rfl, rfl, rfl⟩
    exact ⟨_, _, ⟨l.times, rfl, rfl⟩, _, u, hlength, _, [], htail, rfl, rfl⟩

end CommitInfo

theorem LogicalClock.read_eq_ok_iff {clock : LogicalClock} :
    (read : Reader Bytes DecodeError LogicalClock) s = .ok clock t ↔ s = clock.encode ++ t := by
  simp only [read, bind_eq_ok_iff, u8_eq_ok_iff, u64_eq_ok_iff, pure_eq_ok_iff]
  refine ⟨?_, ?_⟩
  · rintro ⟨kind, _, rfl, committed, _, rfl, number, _, rfl, rfl, rfl⟩
    simp [encode]
  · rintro rfl
    exact ⟨clock.kind, _, by simp [encode], clock.lastCommitted, _, rfl, clock.sequenceNumber, _,
      rfl, rfl, rfl⟩

namespace GtidEvent

/-- Reads what is known of a commit if the bytes of a commit time are there. -/
def readCommit : Reader Bytes DecodeError (Option CommitInfo) := do
  if CommitInfo.timeSize ≤ (← Reader.left) then some <$> CommitInfo.read else pure none

theorem readCommit_end_iff {commit : Option CommitInfo} : readCommit s = .ok commit [] ↔
    ∃ l : Option CommitLayout, s = Bytes.ofOption CommitLayout.encode l ∧
      commit = l.map CommitLayout.meaning := by
  rw [readCommit, left_bind, ite_eq_ok_iff, pure_eq_ok_iff, map_eq_ok_iff]
  simp only [CommitInfo.read_end_iff]
  refine ⟨?_, ?_⟩
  · rintro (⟨-, _, ⟨l, rfl, rfl⟩, rfl⟩ | ⟨-, rfl, rfl⟩)
    · exact ⟨some l, rfl, rfl⟩
    · exact ⟨none, rfl, rfl⟩
  · rintro ⟨l, rfl, rfl⟩
    cases l with
    | none => exact .inr ⟨by decide, rfl, rfl⟩
    | some l => exact .inl ⟨l.le_length_encode, _, ⟨l, rfl, rfl⟩, rfl⟩

/-- What follows the id is read to the end exactly from a layout of it. -/
theorem readBack_end_iff {front : Bool × Gtid} {g : GtidEvent} :
    readBack true front s = .ok g [] ↔ ∃ l : ClockLayout, s = l.encode ∧
      g = { commitFlag := front.1, gtid := front.2, clock := some l.clock,
            commit := l.commit.map CommitLayout.meaning } := by
  have hread : readBack true front = LogicalClock.read >>= fun clock => readCommit >>= fun commit =>
      pure { commitFlag := front.1, gtid := front.2, clock := some clock, commit } := by
    simp only [readBack, readCommit, if_true, Option.isSome_some, Bool.true_and, decide_eq_true_eq,
      ite_bind, map_eq_pure_bind, bind_assoc, pure_bind]
  simp only [hread, bind_eq_ok_iff, pure_eq_ok_iff, LogicalClock.read_eq_ok_iff]
  refine ⟨?_, ?_⟩
  · rintro ⟨clock, u, rfl, commit, _, hcommit, rfl, rfl⟩
    obtain ⟨l, rfl, rfl⟩ := readCommit_end_iff.mp hcommit
    exact ⟨⟨clock, l⟩, rfl, rfl⟩
  · rintro ⟨l, rfl, rfl⟩
    exact ⟨l.clock, _, rfl, _, [], readCommit_end_iff.mpr ⟨l.commit, rfl, rfl⟩, rfl, rfl⟩

theorem readFront_eq_ok_iff {front : Bool × Gtid} : readFront s = .ok front t ↔
    ∃ flag : UInt8, front.1 = (flag == 1) ∧
      s = flag :: front.2.source.encode ++ Bytes.ofNatLE 8 front.2.number.toNat ++ t := by
  simp only [readFront, bind_eq_ok_iff, u8_eq_ok_iff, SourceId.read_eq_ok_iff, u64_eq_ok_iff,
    pure_eq_ok_iff]
  refine ⟨?_, ?_⟩
  · rintro ⟨flag, _, rfl, source, _, rfl, number, _, rfl, rfl, rfl⟩
    exact ⟨flag, rfl, by simp⟩
  · rintro ⟨flag, hflag, rfl⟩
    exact ⟨flag, _, by simp, front.2.source, _, rfl, front.2.number, _, rfl,
      Prod.ext hflag.symm rfl, rfl⟩

/-! ## The main result -/

/-- **The layout of a transaction.** A body is read to its end exactly if it is laid out: the flag
and the id, and then in this order, each only behind all before it, a clock, the commit time with
the time at the origin if it is marked, a length, the version with that at the origin if it is
marked, and a ticket. A clock is there just as a known version says, and may be there or not if
none is known. What is read is what the layout means. -/
theorem read_layout (version : Option ServerVersion) (b : Bytes) (g : GtidEvent) :
    (read version : Reader Bytes DecodeError GtidEvent) b = .ok g [] ↔
      ∃ l : TransactionLayout,
        (∀ v ∈ version, l.clock.isSome = v.atLeast LogicalClock.since) ∧
          b = l.encode ∧ g = l.meaning := by
  refine ⟨fun h => ?_, ?_⟩
  · obtain ⟨front, u, hfront⟩ := exists_readFront h
    rw [read_of_readFront hfront] at h
    obtain ⟨flag, hflag, rfl⟩ := readFront_eq_ok_iff.mp hfront
    cases hclock : hasClock version u.length with
    | true =>
      rw [hclock] at h
      obtain ⟨l, rfl, rfl⟩ := readBack_end_iff.mp h
      refine ⟨⟨flag, front.2, some l⟩, ?_, rfl, by rw [hflag]; rfl⟩
      rintro v rfl
      exact hclock.symm
    | false =>
      rw [hclock, readBack_false] at h
      cases h
      refine ⟨⟨flag, front.2, none⟩, ?_, rfl, by rw [hflag]; rfl⟩
      rintro v rfl
      exact hclock.symm
  · rintro ⟨l, hversion, rfl, rfl⟩
    have hfront : readFront l.encode =
        .ok (l.flag == 1, l.gtid) (Bytes.ofOption ClockLayout.encode l.clock) :=
      readFront_eq_ok_iff.mpr ⟨l.flag, rfl, rfl⟩
    have hclock : hasClock version (Bytes.ofOption ClockLayout.encode l.clock).length =
        l.clock.isSome := by
      cases version with
      | some v => exact (hversion v rfl).symm
      | none =>
        cases hl : l.clock with
        | none => rfl
        | some c => exact decide_eq_true c.le_length_encode
    rw [read_of_readFront hfront, hclock]
    cases hl : l.clock with
    | none =>
      rw [Option.isSome_none, readBack_false]
      simp [TransactionLayout.meaning, hl, Bytes.ofOption]
    | some c =>
      rw [Option.isSome_some]
      exact readBack_end_iff.mpr ⟨c, rfl, by simp [TransactionLayout.meaning, hl]⟩

end GtidEvent

end Binlog
