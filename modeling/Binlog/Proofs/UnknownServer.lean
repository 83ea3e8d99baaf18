import Binlog.Proofs.Failing
import Binlog.Proofs.Transparency

/-!
# Transactions of unknown servers

Servers since 5.7 write a logical clock behind the id of a transaction. A parser that does not know
the version of the server takes a clock to be there if its bytes are. All of the body has to be
used, so this is no guess: a body that a parser with any version accepts has 25 bytes without a
clock, and at least 42 with one.

**One decision** (`GtidEvent.read_eq`). The version matters only for whether a clock is read. Two
versions, known or not, that decide alike for the bytes at hand read alike.

**The wrong version.** A server too old for the clock that is there leaves its bytes over; one that
should have written a clock is missing its first byte.

Main statement: `Parser.decode_unknown_version`.
-/

namespace Binlog

open Reader

namespace LogicalClock

theorem length_of_read {s t : Bytes} {clock : LogicalClock}
    (h : (read : Reader Bytes DecodeError LogicalClock) s = .ok clock t) :
    s.length = size + t.length := by
  simp only [read, bind_eq_ok_iff, u8_eq_ok_iff, u64_eq_ok_iff, pure_eq_ok_iff] at h
  obtain ⟨kind, _, rfl, committed, _, rfl, number, _, rfl, -, rfl⟩ := h
  simp only [List.length_cons, List.length_append, Bytes.length_ofNatLE, size]
  omega

end LogicalClock

namespace GtidEvent

variable {version : Option ServerVersion} {v : ServerVersion} {s t : Bytes}
  {g : GtidEvent} {front : Bool × Gtid}

/-! ## Reading in two parts -/

/-- The number of bytes in front of the clock. -/
def frontSize : Nat := 25

/-- Reads the flag and the id. -/
def readFront : Reader Bytes DecodeError (Bool × Gtid) := do
  let commitFlag ← Reader.u8
  let source ← SourceId.read
  let number ← Reader.u64
  return (commitFlag == 1, { source, number })

/-- Reads what follows the id, with or without a clock. -/
def readBack (timed : Bool) (front : Bool × Gtid) : Reader Bytes DecodeError GtidEvent := do
  let clock ← if timed then some <$> LogicalClock.read else pure none
  let commit ←
    if clock.isSome && CommitInfo.timeSize ≤ (← Reader.left) then some <$> CommitInfo.read
    else pure none
  return { commitFlag := front.1, gtid := front.2, clock, commit }

theorem read_eq (version : Option ServerVersion) :
    (read version : Reader Bytes DecodeError GtidEvent) = readFront >>= fun front =>
      Reader.left >>= fun n => readBack (hasClock version n) front := by
  simp only [read, readFront, readBack, bind_assoc, pure_bind]

theorem length_of_readFront (h : readFront s = .ok front t) : s.length = frontSize + t.length := by
  simp only [readFront, SourceId.read, bind_eq_ok_iff, u8_eq_ok_iff, number_eq_ok_iff,
    u64_eq_ok_iff, pure_eq_ok_iff] at h
  obtain ⟨flag, _, rfl, source, _, ⟨id, _, ⟨-, rfl⟩, -, rfl⟩, number, _, rfl, -, rfl⟩ := h
  simp only [List.length_cons, List.length_append, Bytes.length_ofNatLE,
    NumberFormat.length_encode, NumberFormat.big, frontSize]
  omega

/-- The bytes behind the id decide whether a clock is read. -/
theorem read_of_readFront (h : readFront s = .ok front t) :
    (read version : Reader Bytes DecodeError GtidEvent) s =
      readBack (hasClock version t.length) front t := by
  rw [read_eq, bind_of_ok h, left_bind]

theorem exists_readFront (h : (read version : Reader Bytes DecodeError GtidEvent) s = .ok g t) :
    ∃ front u, readFront s = .ok front u := by
  rw [read_eq] at h
  obtain ⟨front, u, hfront, -⟩ := bind_eq_ok_iff.mp h
  exact ⟨front, u, hfront⟩

theorem readBack_true (h : readBack true front s = .ok g t) :
    g.clock.isSome ∧ LogicalClock.size ≤ s.length := by
  simp only [readBack, bind_eq_ok_iff, ite_eq_ok_iff, map_eq_ok_iff, left_eq_ok_iff,
    pure_eq_ok_iff] at h
  obtain ⟨-, _, u, ⟨clock, hclock, rfl⟩, _, _, ⟨rfl, rfl⟩, h⟩ | ⟨hfalse, -⟩ := h
  · have hlen := LogicalClock.length_of_read hclock
    refine ⟨?_, by omega⟩
    obtain ⟨-, _, _, -, rfl, -⟩ | ⟨-, _, _, -, rfl, -⟩ := h <;> rfl
  · exact absurd trivial hfalse

theorem readBack_false (front : Bool × Gtid) (s : Bytes) : readBack false front s =
    .ok { commitFlag := front.1, gtid := front.2, clock := none, commit := none } s := rfl

/-- Behind the id a clock of which nothing is there is missed. -/
theorem readBack_true_nil (front : Bool × Gtid) :
    readBack true front [] = .error (.read (.incomplete (.size 1))) [] := rfl

/-! ## The decision -/

/-- What was read tells whether a clock was expected, and how many bytes were ahead of it. -/
theorem clock_of_read (h : (read version : Reader Bytes DecodeError GtidEvent) s = .ok g t) :
    ∃ front u, readFront s = .ok front u ∧ hasClock version u.length = g.clock.isSome ∧
      if g.clock.isSome then LogicalClock.size ≤ u.length else u = t := by
  obtain ⟨front, u, hfront⟩ := exists_readFront h
  refine ⟨front, u, hfront, ?_⟩
  rw [read_of_readFront hfront] at h
  cases hclock : hasClock version u.length with
  | true =>
    rw [hclock] at h
    obtain ⟨hsome, hsize⟩ := readBack_true h
    rw [if_pos hsome]
    exact ⟨hsome.symm, hsize⟩
  | false =>
    rw [hclock, readBack_false] at h
    cases h
    exact ⟨rfl, rfl⟩

/-- A body is not empty, so one that is used up leaves nothing. -/
theorem rest_eq_nil_of_read
    (h : (read version : Reader Bytes DecodeError GtidEvent) s = .ok g t)
    (hall : s.length - t.length = s.length) : t = [] := by
  obtain ⟨front, u, hfront, -⟩ := clock_of_read h
  have hlen := length_of_readFront hfront
  have hpos : 0 < frontSize := by decide
  exact List.eq_nil_of_length_eq_zero (by omega)

/-- Where the clock that was read is expected without a version too, the version is not needed. -/
theorem read_none_of_read (h : (read version : Reader Bytes DecodeError GtidEvent) s = .ok g []) :
    (read none : Reader Bytes DecodeError GtidEvent) s = .ok g [] := by
  obtain ⟨front, u, hfront, hclock, hleft⟩ := clock_of_read h
  have hnone : hasClock none u.length = g.clock.isSome := by
    split at hleft
    next hsome => rw [hsome, hasClock, decide_eq_true hleft]
    next hsome =>
      rw [hleft, Bool.eq_false_iff.mpr hsome]
      rfl
  rw [← h, read_of_readFront hfront, read_of_readFront hfront, hclock, hnone]

/-- A version on the same side of the first one with clocks reads the same. -/
theorem read_some_of_read_none
    (h : (read none : Reader Bytes DecodeError GtidEvent) s = .ok g t)
    (hv : v.atLeast LogicalClock.since = g.clock.isSome) :
    (read (some v) : Reader Bytes DecodeError GtidEvent) s = .ok g t := by
  obtain ⟨front, u, hfront, hclock, -⟩ := clock_of_read h
  rw [← h, read_of_readFront hfront, read_of_readFront hfront, hclock, hasClock, hv]

/-- A version that is too old leaves the clock over. -/
theorem read_some_of_too_old (h : (read none : Reader Bytes DecodeError GtidEvent) s = .ok g t)
    (hv : v.atLeast LogicalClock.since = false) (hclock : g.clock.isSome) :
    ∃ g' u, (read (some v) : Reader Bytes DecodeError GtidEvent) s = .ok g' u ∧ u ≠ [] ∧
      s.length = frontSize + u.length := by
  obtain ⟨front, u, hfront, -, hleft⟩ := clock_of_read h
  rw [if_pos hclock] at hleft
  refine ⟨{ commitFlag := front.1, gtid := front.2, clock := none, commit := none }, u, ?_, ?_,
    length_of_readFront hfront⟩
  · rw [read_of_readFront hfront, hasClock, hv, readBack_false]
  · rintro rfl
    exact absurd hleft (by decide)

/-- A version that is too new misses the clock. -/
theorem read_some_of_too_new (h : (read none : Reader Bytes DecodeError GtidEvent) s = .ok g [])
    (hv : v.atLeast LogicalClock.since = true) (hclock : g.clock = none) :
    (read (some v) : Reader Bytes DecodeError GtidEvent) s =
      .error (.read (.incomplete (.size 1))) [] := by
  obtain ⟨front, u, hfront, -, hleft⟩ := clock_of_read h
  rw [hclock] at hleft
  obtain rfl : u = [] := hleft
  rw [read_of_readFront hfront, hasClock, hv, readBack_true_nil]

/-- What a known version makes of what is read without one. -/
theorem read_some_outcome (h : (read none : Reader Bytes DecodeError GtidEvent) s = .ok g [])
    (v : ServerVersion) :
    let outcome := (read (some v) : Reader Bytes DecodeError GtidEvent) s
    if v.atLeast LogicalClock.since = g.clock.isSome then outcome = .ok g []
    else if g.clock.isSome then
      ∃ g' u, outcome = .ok g' u ∧ u ≠ [] ∧ s.length = frontSize + u.length
    else outcome = .error (.read (.incomplete (.size 1))) [] := by
  intro outcome
  by_cases hside : v.atLeast LogicalClock.since = g.clock.isSome
  · rw [if_pos hside]
    exact read_some_of_read_none h hside
  · rw [if_neg hside]
    by_cases hclock : g.clock.isSome
    · rw [if_pos hclock]
      exact read_some_of_too_old h (by simpa [hclock] using hside) hclock
    · rw [if_neg hclock]
      exact read_some_of_too_new h (by simpa [hclock] using hside) (by simpa using hclock)

/-- A body that has to be used up, read with a known version. -/
theorem readWhole_some (h : (read none : Reader Bytes DecodeError GtidEvent) s = .ok g [])
    (c : GtidEvent → Payload) (v : ServerVersion) : s.readWhole (c <$> read (some v)) =
      if v.atLeast LogicalClock.since = g.clock.isSome then .ok (c g)
      else if g.clock.isSome then .error (.eventSizeMismatch s.length frontSize)
      else .error (.read (.incomplete (.size 1))) := by
  have houtcome := read_some_outcome h v
  dsimp only at houtcome
  split
  next hside =>
    rw [if_pos hside] at houtcome
    exact Bytes.readWhole_eq_ok_iff.mpr ⟨[], map_eq_ok_iff.mpr ⟨g, houtcome, rfl⟩, rfl⟩
  next hside =>
    rw [if_neg hside] at houtcome
    split
    next hclock =>
      rw [if_pos hclock] at houtcome
      obtain ⟨g', u, hread, hne, hlen⟩ := houtcome
      have hpos : 0 < u.length := List.length_pos_iff.mpr hne
      have hused : s.length - u.length = frontSize := by omega
      rw [Bytes.readWhole_of_left (map_eq_ok_iff.mpr ⟨g', hread, rfl⟩) (by omega), hused]
    next hclock =>
      rw [if_neg hclock] at houtcome
      obtain ⟨u, hfails⟩ := fails_map_iff.mpr ⟨[], houtcome⟩
      exact Bytes.readWhole_of_error hfails

end GtidEvent

/-! ## Events -/

namespace Parser

variable {p : Parser} {h : Header} {bs : Bytes} {e : Event}

/-- Both kinds of transactions, named and anonymous, are read alike. -/
theorem payload_transaction (htype : h.eventType = .gtid ∨ h.eventType = .anonymousGtid) :
    ∃ c : GtidEvent → Payload, (∀ g, DataKind.gtid.select? (c g) = some g) ∧
      ∀ p : Parser, p.payload h = c <$> GtidEvent.read p.serverVersion := by
  obtain htype | htype := htype
  · refine ⟨.gtid, fun _ => rfl, fun p => ?_⟩
    rw [payload, htype]
    rfl
  · refine ⟨.anonymousGtid, fun _ => rfl, fun p => ?_⟩
    rw [payload, htype]
    rfl

/-- An accepted transaction takes all of its body, and another parser cuts the same body. -/
theorem frame_of_transaction (htype : h.eventType = .gtid ∨ h.eventType = .anonymousGtid)
    (he : p.decode h bs = .ok e) : ∃ (c : GtidEvent → Payload) (f : Frame) (g : GtidEvent),
      (GtidEvent.read p.serverVersion : Reader Bytes DecodeError GtidEvent) f.body = .ok g [] ∧
      DataKind.gtid.select? e.data = some g ∧ e = f.event p.validate h (c g) ∧
      ∀ version, { p with serverVersion := version }.decode h bs =
        (f.body.readWhole (c <$> GtidEvent.read version)).map (f.event p.validate h) := by
  obtain ⟨c, hselect, hpayload⟩ := payload_transaction htype
  obtain ⟨f, hf, hread⟩ := Except.bind_eq_ok_iff.mp he
  rw [Frame.read_eq_ok_iff, hpayload] at hread
  obtain ⟨d, rest, hread, hall, rfl⟩ := hread
  obtain ⟨g, hbody, rfl⟩ := map_eq_ok_iff.mp hread
  obtain rfl := GtidEvent.rest_eq_nil_of_read hbody hall
  refine ⟨c, f, g, hbody, hselect g, rfl, fun version => ?_⟩
  rw [← hpayload { p with serverVersion := version }]
  exact decode_of_frame { p with serverVersion := version } h hf

/-- **A server need not be known.** What is read of a body to its end with any version is read
without one. What is read without one is read with every version that has a clock just when there is
one; a version too old leaves the clock over, and one too new is missing it. So a parser without a
version accepts all transactions that others accept, as the same events. -/
theorem decode_unknown_version :
    (∀ (v : ServerVersion) (b : Bytes) (g : GtidEvent),
      (GtidEvent.read (some v) : Reader Bytes DecodeError GtidEvent) b = .ok g [] →
        (GtidEvent.read none : Reader Bytes DecodeError GtidEvent) b = .ok g []) ∧
      (∀ (v : ServerVersion) (b : Bytes) (g : GtidEvent),
        (GtidEvent.read none : Reader Bytes DecodeError GtidEvent) b = .ok g [] →
          let outcome := (GtidEvent.read (some v) : Reader Bytes DecodeError GtidEvent) b
          if v.atLeast LogicalClock.since = g.clock.isSome then outcome = .ok g []
          else if g.clock.isSome then ∃ g' rest, outcome = .ok g' rest ∧ rest ≠ [] ∧
            b.length = GtidEvent.frontSize + rest.length
          else outcome = .error (.read (.incomplete (.size 1))) []) ∧
      ∀ (p : Parser) (h : Header) (bs : Bytes) (e : Event),
        (h.eventType = .gtid ∨ h.eventType = .anonymousGtid) →
        (p.decode h bs = .ok e → { p with serverVersion := none }.decode h bs = .ok e) ∧
          ({ p with serverVersion := none }.decode h bs = .ok e →
            ∃ g, DataKind.gtid.select? e.data = some g ∧ ∀ v,
              { p with serverVersion := some v }.decode h bs =
                if v.atLeast LogicalClock.since = g.clock.isSome then .ok e
                else if g.clock.isSome then
                  .error (.eventSizeMismatch e.eventSize GtidEvent.frontSize)
                else .error (.read (.incomplete (.size 1)))) := by
  refine ⟨fun v b g => GtidEvent.read_none_of_read, fun v b g hread => ?_,
    fun p h bs e htype => ⟨fun he => ?_, fun he => ?_⟩⟩
  · exact GtidEvent.read_some_outcome hread v
  · obtain ⟨c, f, g, hread, -, rfl, hdecode⟩ := frame_of_transaction htype he
    have hnone := GtidEvent.read_none_of_read hread
    have hwhole : f.body.readWhole (c <$> GtidEvent.read none) = .ok (c g) :=
      Bytes.readWhole_eq_ok_iff.mpr ⟨[], map_eq_ok_iff.mpr ⟨g, hnone, rfl⟩, rfl⟩
    rw [hdecode none, hwhole]
    rfl
  · obtain ⟨c, f, g, hread, hselect, rfl, hdecode⟩ := frame_of_transaction htype he
    refine ⟨g, hselect, fun v => (hdecode (some v)).trans ?_⟩
    rw [GtidEvent.readWhole_some hread c v]
    split
    · rfl
    · split
      · rfl
      · rfl

/-- A transaction with a clock, for parsers that know a new version, an old one, or none. -/
theorem decode_unknown_version_clock :
    let p (version : Option ServerVersion) : Parser := ⟨false, true, version⟩
    let h : Header := ⟨0, 33, 1, 61, 0, 0⟩
    let body : Bytes := 1 :: List.replicate 16 170 ++ [5, 0, 0, 0, 0, 0, 0, 0, 2] ++
      [7, 0, 0, 0, 0, 0, 0, 0, 8, 0, 0, 0, 0, 0, 0, 0]
    ∃ e, (p (some ⟨8, 0, 23⟩)).decode h body = .ok e ∧ (p none).decode h body = .ok e ∧
      (p (some ⟨5, 6, 51⟩)).decode h body = .error (.eventSizeMismatch 42 25) := by
  intro p h body
  let g : GtidEvent :=
    { commitFlag := true, gtid := ⟨⟨0xaaaaaaaaaaaaaaaaaaaaaaaaaaaaaaaa⟩, 5⟩,
      clock := some ⟨2, 7, 8⟩, commit := none }
  let e : Event :=
    { header := h, data := .gtid g, crc32 := none, checksum := .notChecked, eventSize := 42,
      bytesConsumed := 42 }
  have hnew : (p (some ⟨8, 0, 23⟩)).decode h body = .ok e := by decide +kernel
  obtain ⟨-, -, hdecode⟩ := decode_unknown_version
  have hnone := (hdecode (p (some ⟨8, 0, 23⟩)) h body e (.inl rfl)).1 hnew
  obtain ⟨g', hg, hversions⟩ := (hdecode (p none) h body e (.inl rfl)).2 hnone
  obtain rfl : g = g' := Option.some.inj hg
  exact ⟨e, hnew, hnone, (hversions ⟨5, 6, 51⟩).trans (by decide +kernel)⟩

end Parser

end Binlog
