import Mathlib.Control.Monad.Basic
import Binlog.Parser
import Binlog.Proofs.Layouts

/-!
# The frame of an event on the wire

The bytes of an event are its header, its body and, if there is a checksum, the four bytes of it. A
parser that accepts a run of bytes has cut its front into just these parts (`parse_eq_ok_iff`), and
writing the header that it read gives the bytes that it read it from. So the checksum that it
computes over header and body is the one of the bytes on the wire, flags without a name included.

**The verdict** (`parse_verdict`). Which footer there is depends on the type code, on the parser
and, for a format description, on its algorithm byte. Given these, the checksum found, the size of
the body and the verdict are functions of the bytes.
-/

namespace Binlog

open Reader

/-! ## Sequencing -/

/-- A sequence succeeds when both of its steps do. -/
theorem Except.bind_eq_ok_iff {ε α β : Type} {x : Except ε α} {f : α → Except ε β} {b : β} :
    (x >>= f) = .ok b ↔ ∃ a, x = .ok a ∧ f a = .ok b := by
  cases x with
  | ok a =>
    constructor
    · exact fun h => ⟨a, rfl, h⟩
    · rintro ⟨_, hx, h⟩
      cases hx
      exact h
  | error e =>
    refine ⟨fun hs => ?_, fun hs => ?_⟩
    · cases hs
    · rcases hs with ⟨_, hx, -⟩
      cases hx

/-! ## Words of four bytes -/

namespace Bytes

/-- The number of 32 bits that four bytes are, lowest byte first. -/
def toUInt32LE (bs : Bytes) : UInt32 := .ofNat bs.toNatLE

theorem toUInt32LE_ofNatLE (n : UInt32) : toUInt32LE (ofNatLE 4 n.toNat) = n := by
  rw [toUInt32LE, toNatLE_ofNatLE 4 n.toNat n.toNat_lt, UInt32.ofNat_toNat]

theorem ofNatLE_toUInt32LE {bs : Bytes} (h : bs.length = 4) :
    ofNatLE 4 (toUInt32LE bs).toNat = bs := by
  have hlt := bs.toNatLE_lt
  rw [h] at hlt
  rw [toUInt32LE, UInt32.toNat_ofNat_of_lt' hlt, ← h, ofNatLE_toNatLE]

end Bytes

/-! ## Cutting the data -/

namespace Frame

/-- The bytes of the checksum. -/
def footerBytes (f : Frame) : Bytes := (f.crc32.map fun n => Bytes.ofNatLE 4 n.toNat).getD []

/-- The body with the checksum behind it. -/
def data (f : Frame) : Bytes := f.body ++ f.footerBytes

/-- The event that a frame makes together with its header and its payload. -/
def event (f : Frame) (validate : Bool) (h : Header) (d : Payload) : Event :=
  { header := h, data := d, crc32 := f.crc32, checksum := f.verdict validate h,
    eventSize := f.body.length, bytesConsumed := f.body.length }

theorem length_footerBytes (f : Frame) :
    f.footerBytes.length = if f.crc32.isSome then Footer.size else 0 := by
  cases h : f.crc32 <;> simp [footerBytes, h, Footer.size]

theorem ofData?_eq_some_iff {footer : Footer} {bs : Bytes} {f : Frame} :
    ofData? footer bs = some f ↔
      f.footer = footer ∧ (f.crc32.isSome ↔ footer ≠ .absent) ∧ bs = f.data := by
  unfold ofData?
  split
  next habsent =>
    subst habsent
    refine ⟨fun hs => ?_, fun hs => ?_⟩
    · rcases hs with ⟨⟩
      simp [data, footerBytes]
    · rcases hs with ⟨hfooter, hcrc, rfl⟩
      have hnone : f.crc32 = none := by simpa using hcrc
      rcases f with ⟨_, body, _⟩
      cases hfooter
      cases hnone
      simp [data, footerBytes]
  next hpresent =>
    split
    next hshort =>
      refine ⟨fun hs => ?_, fun hs => ?_⟩
      · cases hs
      · rcases hs with ⟨rfl, hcrc, rfl⟩
        have hlen := f.length_footerBytes
        rw [if_pos (hcrc.mpr hpresent)] at hlen
        rw [data, List.length_append] at hshort
        omega
    next hlong =>
      refine ⟨fun hs => ?_, fun hs => ?_⟩
      · rcases hs with ⟨⟩
        have hfour : (bs.drop (bs.length - Footer.size)).length = 4 := by
          rw [List.length_drop]
          have : Footer.size = 4 := rfl
          omega
        refine ⟨rfl, by simpa using hpresent, ?_⟩
        change bs = bs.take _ ++ Bytes.ofNatLE 4 (Bytes.toUInt32LE (bs.drop _)).toNat
        rw [Bytes.ofNatLE_toUInt32LE hfour, List.take_append_drop]
      · rcases hs with ⟨rfl, hcrc, rfl⟩
        obtain ⟨n, hn⟩ := Option.isSome_iff_exists.mp (hcrc.mpr hpresent)
        rcases f with ⟨footer, body, _⟩
        cases hn
        have hdata : (Frame.mk footer body (some n)).data = body ++ Bytes.ofNatLE 4 n.toNat := rfl
        have hbody : (body ++ Bytes.ofNatLE 4 n.toNat).length - Footer.size = body.length := by
          simp [Footer.size]
        dsimp only
        rw [hdata, hbody, List.take_left, List.drop_left]
        exact congrArg (fun w => some (Frame.mk footer body (some w))) (Bytes.toUInt32LE_ofNatLE n)

theorem read_eq_ok_iff {f : Frame} {validate : Bool} {h : Header}
    {r : Reader Bytes DecodeError Payload} {e : Event} :
    f.read validate h r = .ok e ↔ ∃ d rest, r f.body = .ok d rest ∧
      f.body.length - rest.length = f.body.length ∧ e = f.event validate h d := by
  simp only [read, Except.bind_eq_ok_iff, Prod.exists, Bytes.read_eq_ok_iff]
  refine ⟨fun hs => ?_, fun hs => ?_⟩
  · rcases hs with ⟨d, rest, hr, he⟩
    split at he
    next hsize =>
      cases he
      exact ⟨d, rest, hr, hsize, by rw [event, hsize]⟩
    next => cases he
  · rcases hs with ⟨d, rest, hr, hsize, rfl⟩
    refine ⟨d, rest, hr, ?_⟩
    rw [if_pos hsize, hsize]
    rfl

end Frame

namespace Parser

variable {p : Parser} {h : Header} {f : Frame} {bs : Bytes} {e : Event}

/-- The footer of the data that a header declares. -/
def footer (p : Parser) (h : Header) (bs : Bytes) : Footer :=
  Footer.ofData p.checksum h.eventType (bs.take h.dataLength)

/-- The lengths are looked at first: the declared one, then that of the data. -/
theorem frame_eq (p : Parser) (h : Header) (bs : Bytes) : p.frame h bs =
    if h.eventLength.toNat < Header.size then .error (.invalidEventLength h.eventLength)
    else if h.dataLength ≤ bs.length then
      match Frame.ofData? (p.footer h bs) (bs.take h.dataLength) with
      | some f => .ok f
      | none => .error (.invalidEventLength h.eventLength)
    else .error (.read (.incomplete (.size (h.dataLength - bs.length)))) := by
  unfold frame
  rw [read_take]
  by_cases hshort : h.eventLength.toNat < Header.size
  · rw [if_pos hshort, if_pos hshort]
  · rw [if_neg hshort, if_neg hshort]
    by_cases hle : h.dataLength ≤ bs.length
    · rw [if_pos hle, if_pos hle]
      rfl
    · rw [if_neg hle, if_neg hle]
      rfl

/-- The frame `f` is what the parser cuts the data behind the header `h` into. -/
structure Cuts (p : Parser) (h : Header) (f : Frame) : Prop where
  size_le : Header.size ≤ h.eventLength.toNat
  length_data : f.data.length = h.dataLength
  footer_eq : f.footer = Footer.ofData p.checksum h.eventType f.data
  crc32_isSome : f.crc32.isSome ↔ f.footer ≠ .absent

theorem frame_eq_ok_iff :
    p.frame h bs = .ok f ↔ p.Cuts h f ∧ ∃ tail, bs = f.data ++ tail := by
  unfold frame
  split
  next hshort =>
    refine ⟨fun hs => ?_, fun hs => ?_⟩
    · cases hs
    · rcases hs with ⟨hcuts, -⟩
      exact absurd hcuts.size_le (by omega)
  next hsize =>
    simp only [Except.bind_eq_ok_iff, Prod.exists, Bytes.read_eq_ok_iff, take_eq_ok_iff]
    refine ⟨fun hs => ?_, fun hs => ?_⟩
    · rcases hs with ⟨data, tail, ⟨hlen, rfl⟩, hcut⟩
      split at hcut
      next f' hf =>
        cases hcut
        obtain ⟨hfooter, hcrc, rfl⟩ := Frame.ofData?_eq_some_iff.mp hf
        exact ⟨⟨by omega, hlen, hfooter, by rwa [hfooter]⟩, tail, rfl⟩
      next => cases hcut
    · rcases hs with ⟨hcuts, tail, rfl⟩
      refine ⟨f.data, tail, ⟨hcuts.length_data, rfl⟩, ?_⟩
      rw [Frame.ofData?_eq_some_iff.mpr
        ⟨hcuts.footer_eq, by rw [← hcuts.footer_eq]; exact hcuts.crc32_isSome, rfl⟩]
      rfl

theorem decode_eq_ok_iff :
    p.decode h bs = .ok e ↔ ∃ f d rest, p.Cuts h f ∧ (∃ tail, bs = f.data ++ tail) ∧
      p.payload h f.body = .ok d rest ∧ f.body.length - rest.length = f.body.length ∧
      e = f.event p.validate h d := by
  simp only [decode, Except.bind_eq_ok_iff, frame_eq_ok_iff, Frame.read_eq_ok_iff]
  refine ⟨fun hs => ?_, fun hs => ?_⟩
  · rcases hs with ⟨f, ⟨hcuts, htail⟩, d, rest, hread⟩
    exact ⟨f, d, rest, hcuts, htail, hread⟩
  · rcases hs with ⟨f, d, rest, hcuts, htail, hread⟩
    exact ⟨f, ⟨hcuts, htail⟩, d, rest, hread⟩

/-- **Accepted events.** What a parser accepts is a header, a frame it cuts behind it, whose body is
read and used up, and anything. -/
theorem parse_eq_ok_iff :
    p.parse bs = .ok e ↔ ∃ h f d rest, p.Cuts h f ∧ (∃ tail, bs = h.encode ++ (f.data ++ tail)) ∧
      p.payload h f.body = .ok d rest ∧ f.body.length - rest.length = f.body.length ∧
      e = f.event p.validate h d := by
  simp only [parse, Except.bind_eq_ok_iff, Prod.exists, Bytes.read_eq_ok_iff,
    Header.read_eq_ok_iff, decode_eq_ok_iff]
  refine ⟨fun hs => ?_, fun hs => ?_⟩
  · rcases hs with ⟨h, _, rfl, f, d, rest, hcuts, ⟨tail, rfl⟩, hread⟩
    exact ⟨h, f, d, rest, hcuts, ⟨tail, rfl⟩, hread⟩
  · rcases hs with ⟨h, f, d, rest, hcuts, ⟨tail, rfl⟩, hread⟩
    exact ⟨h, _, rfl, f, d, rest, hcuts, ⟨tail, rfl⟩, hread⟩

end Parser

/-- Nothing is left over of a body that was read from its front and is used up. -/
theorem Frame.rest_eq_nil {body front rest : Bytes} (h : body = front ++ rest)
    (hall : body.length - rest.length = body.length) : rest = [] := by
  have hlen := congrArg List.length h
  rw [List.length_append] at hlen
  exact List.eq_nil_of_length_eq_zero (by omega)

/-! ## Footers -/

theorem EventType.ofCode_eq_formatDescription_iff (c : UInt8) :
    EventType.ofCode c = .formatDescription ↔ c = 15 := by
  refine ⟨fun hs => ?_, fun hs => ?_⟩
  · apply UInt8.toNat.inj
    unfold ofCode at hs
    split at hs
    all_goals first | assumption | cases hs
  · subst hs
    rfl

theorem Footer.ofData_eq_absent_iff {checksum : Bool} {type : EventType} {bs : Bytes} :
    ofData checksum type bs = .absent ↔
      if type = .formatDescription then ∀ a, FormatDescription.peekAlgorithm bs = some a → a = 255
      else checksum = false := by
  unfold ofData
  split
  · cases hpeek : FormatDescription.peekAlgorithm bs with
    | none => simp [ofAlgorithm]
    | some a =>
      by_cases ha : a = FormatDescription.undefinedAlgorithm
      · subst ha
        simp [ofAlgorithm, FormatDescription.undefinedAlgorithm]
      · have hne : ofAlgorithm (some a) ≠ .absent := by
          simp only [ofAlgorithm, if_neg ha]
          split <;> simp
        exact ⟨fun h => absurd h hne, fun h => absurd (h a rfl) ha⟩
  · cases checksum <;> simp

theorem Footer.ofData_eq_crc32_iff {checksum : Bool} {type : EventType} {bs : Bytes} :
    ofData checksum type bs = .crc32 ↔
      if type = .formatDescription then FormatDescription.peekAlgorithm bs = some 1
      else checksum = true := by
  unfold ofData
  split
  · cases hpeek : FormatDescription.peekAlgorithm bs with
    | none => simp [ofAlgorithm]
    | some a =>
      by_cases ha : a = 1
      · subst ha
        simp [ofAlgorithm, FormatDescription.undefinedAlgorithm, FormatDescription.crc32Algorithm]
      · simp only [ofAlgorithm, FormatDescription.crc32Algorithm, Option.some.injEq]
        split <;> simp [ha]
  · cases checksum <;> simp

/-! ## Verdicts -/

theorem Frame.verdict_eq_valid_iff {f : Frame} {validate : Bool} {h : Header} :
    f.verdict validate h = .valid ↔ f.footer = .crc32 ∧ validate = true ∧
      f.crc32 = some (Crc32.checksum (h.encode ++ f.body)) := by
  unfold verdict
  cases f.crc32 with
  | none => simp
  | some n => simp; grind

theorem Frame.verdict_eq_invalid_iff {f : Frame} {validate : Bool} {h : Header} :
    f.verdict validate h = .invalid ↔ f.footer = .crc32 ∧ validate = true ∧
      ∃ n, f.crc32 = some n ∧ Crc32.checksum (h.encode ++ f.body) ≠ n := by
  unfold verdict
  cases f.crc32 with
  | none => simp
  | some n => simp; grind

theorem Frame.verdict_eq_notChecked_iff {f : Frame} {validate : Bool} {h : Header} :
    f.verdict validate h = .notChecked ↔
      (f.footer = .crc32 → validate = true → f.crc32 = none) := by
  unfold verdict
  cases f.crc32 with
  | none => simp
  | some n => simp; grind

/-! ## The bytes of an event -/

namespace Bytes

/-- The length of the whole event, as its bytes declare it. -/
def declaredLength (bs : Bytes) : Nat := toNatLE ((bs.drop 9).take 4)

/-- What stands between the header and the declared end. -/
def declaredData (bs : Bytes) : Bytes := (bs.take bs.declaredLength).drop Header.size

end Bytes

namespace Parser

/-- Whether the bytes of an event hold a checksum: those of a format description tell, for others
the parser knows. -/
def Footed (p : Parser) (bs : Bytes) : Prop :=
  if bs[4]? = some 15 then
    ∃ a, FormatDescription.peekAlgorithm bs.declaredData = some a ∧ a ≠ 255
  else p.checksum = true

/-- Whether that checksum is a CRC-32. -/
def Verifiable (p : Parser) (bs : Bytes) : Prop :=
  if bs[4]? = some 15 then FormatDescription.peekAlgorithm bs.declaredData = some 1
  else p.checksum = true

variable {p : Parser} {h : Header} {f : Frame} {bs : Bytes} {e : Event}

theorem typeCode_encode_append (h : Header) (rest : Bytes) :
    (h.encode ++ rest)[4]? = some h.typeCode := rfl

theorem declaredLength_encode_append (h : Header) (rest : Bytes) :
    Bytes.declaredLength (h.encode ++ rest) = h.eventLength.toNat :=
  Bytes.toNatLE_ofNatLE 4 h.eventLength.toNat h.eventLength.toNat_lt

theorem Cuts.take_declaredLength (hc : p.Cuts h f) (tail : Bytes) :
    (h.encode ++ (f.data ++ tail)).take (Bytes.declaredLength (h.encode ++ (f.data ++ tail))) =
      h.encode ++ f.data := by
  have hlen : (h.encode ++ f.data).length = h.eventLength.toNat := by
    have := hc.size_le
    rw [List.length_append, h.length_encode, hc.length_data, Header.dataLength]
    omega
  rw [declaredLength_encode_append, ← List.append_assoc, ← hlen, List.take_left]

theorem Cuts.declaredData (hc : p.Cuts h f) (tail : Bytes) :
    Bytes.declaredData (h.encode ++ (f.data ++ tail)) = f.data := by
  rw [Bytes.declaredData, hc.take_declaredLength, ← h.length_encode, List.drop_left]

theorem Cuts.footed_iff (hc : p.Cuts h f) (tail : Bytes) :
    p.Footed (h.encode ++ (f.data ++ tail)) ↔ f.footer ≠ .absent := by
  rw [Footed, typeCode_encode_append, hc.declaredData, hc.footer_eq, Ne,
    Footer.ofData_eq_absent_iff]
  simp only [Header.eventType, EventType.ofCode_eq_formatDescription_iff, Option.some.injEq]
  split <;> simp

theorem Cuts.verifiable_iff (hc : p.Cuts h f) (tail : Bytes) :
    p.Verifiable (h.encode ++ (f.data ++ tail)) ↔ f.footer = .crc32 := by
  rw [Verifiable, typeCode_encode_append, hc.declaredData, hc.footer_eq,
    Footer.ofData_eq_crc32_iff]
  simp only [Header.eventType, EventType.ofCode_eq_formatDescription_iff, Option.some.injEq]

theorem Cuts.declaredLength_eq (hc : p.Cuts h f) (tail : Bytes) :
    Bytes.declaredLength (h.encode ++ (f.data ++ tail)) =
      Header.size + f.body.length + f.footerBytes.length := by
  have hlen := hc.length_data
  rw [Frame.data, List.length_append, Header.dataLength] at hlen
  have := hc.size_le
  rw [declaredLength_encode_append]
  omega

theorem Cuts.declaredLength_le (hc : p.Cuts h f) (tail : Bytes) :
    Bytes.declaredLength (h.encode ++ (f.data ++ tail)) ≤
      (h.encode ++ (f.data ++ tail)).length := by
  have hlen := hc.declaredLength_eq tail
  simp only [Frame.data, List.length_append, h.length_encode] at hlen ⊢
  omega

/-- The declared bytes end with the checksum, if there is one. -/
theorem Cuts.split_declared (hc : p.Cuts h f) (tail : Bytes) {n : UInt32} (hn : f.crc32 = some n) :
    let bs := h.encode ++ (f.data ++ tail)
    bs.take (bs.declaredLength - Footer.size) = h.encode ++ f.body ∧
      (bs.take bs.declaredLength).drop (bs.declaredLength - Footer.size) =
        Bytes.ofNatLE 4 n.toNat := by
  intro bs
  have hfooter : f.footerBytes = Bytes.ofNatLE 4 n.toNat := by rw [Frame.footerBytes, hn]; rfl
  have hlen : bs.declaredLength - Footer.size = (h.encode ++ f.body).length := by
    have := hc.declaredLength_eq tail
    rw [hfooter, Bytes.length_ofNatLE] at this
    rw [List.length_append, h.length_encode]
    exact Nat.sub_eq_of_eq_add this
  have hbs : bs = (h.encode ++ f.body) ++ (Bytes.ofNatLE 4 n.toNat ++ tail) := by
    simp only [bs, Frame.data, hfooter, List.append_assoc]
  constructor
  · rw [hlen, hbs, List.take_left]
  · rw [hc.take_declaredLength tail, hlen, Frame.data, hfooter, ← List.append_assoc, List.drop_left]

/-- **The verdict on the bytes of an event.** The checksum and the size of the body follow from the
declared length and from whether there is a footer. The verdict compares the footer with the CRC-32
of all declared bytes in front of it; these are the header, written again, and the body. -/
theorem parse_verdict (p : Parser) (bs : Bytes) (e : Event) (he : p.parse bs = .ok e) :
    let footer := Bytes.toUInt32LE
      ((bs.take bs.declaredLength).drop (bs.declaredLength - Footer.size))
    let crc := Crc32.checksum (bs.take (bs.declaredLength - Footer.size))
    bs.declaredLength ≤ bs.length ∧
      (p.Footed bs → e.crc32 = some footer ∧
        Header.size + e.eventSize + Footer.size = bs.declaredLength) ∧
      (¬ p.Footed bs → e.crc32 = none ∧ Header.size + e.eventSize = bs.declaredLength) ∧
      (e.checksum = .valid ↔ p.Verifiable bs ∧ p.validate = true ∧ crc = footer) ∧
      (e.checksum = .invalid ↔ p.Verifiable bs ∧ p.validate = true ∧ crc ≠ footer) ∧
      (e.checksum = .notChecked ↔ ¬ (p.Verifiable bs ∧ p.validate = true)) ∧
      e.header.encode ++ (bs.drop Header.size).take e.eventSize =
        bs.take (Header.size + e.eventSize) := by
  obtain ⟨h, f, d, rest, hc, ⟨tail, rfl⟩, -, -, rfl⟩ := parse_eq_ok_iff.mp he
  have hlen := hc.declaredLength_eq tail
  have hle := hc.declaredLength_le tail
  have hbody : h.encode ++ ((h.encode ++ (f.data ++ tail)).drop Header.size).take f.body.length =
      (h.encode ++ (f.data ++ tail)).take (Header.size + f.body.length) := by
    rw [← h.length_encode, List.drop_left, ← List.length_append, Frame.data, List.append_assoc,
      ← List.append_assoc h.encode, List.take_left, List.take_left]
  have hsome := hc.crc32_isSome
  have hbytes := f.length_footerBytes
  rw [hc.footed_iff tail, hc.verifiable_iff tail]
  change _ ∧ (_ → f.crc32 = _ ∧ Header.size + f.body.length + _ = _) ∧
    (_ → f.crc32 = _ ∧ Header.size + f.body.length = _) ∧ (f.verdict p.validate h = _ ↔ _) ∧
    (f.verdict p.validate h = _ ↔ _) ∧ (f.verdict p.validate h = _ ↔ _) ∧ _
  rw [Frame.verdict_eq_valid_iff, Frame.verdict_eq_invalid_iff, Frame.verdict_eq_notChecked_iff]
  cases hn : f.crc32 with
  | none =>
    have habsent : f.footer = .absent := by simpa [hn] using hsome
    rw [hn] at hbytes
    have hzero : f.footerBytes.length = 0 := hbytes
    refine ⟨hle, fun hf => absurd habsent hf, fun _ => ⟨rfl, by omega⟩, ?_, ?_, ?_, hbody⟩
    · simp [habsent]
    · simp [habsent]
    · simp [habsent]
  | some n =>
    have hpresent : f.footer ≠ .absent := by simpa [hn] using hsome
    rw [hn] at hbytes
    have hsize : f.footerBytes.length = Footer.size := hbytes
    obtain ⟨hfront, hback⟩ := hc.split_declared tail hn
    rw [hfront, hback, Bytes.toUInt32LE_ofNatLE]
    refine ⟨hle, fun _ => ⟨rfl, by omega⟩, fun hf => absurd hpresent hf, ?_, ?_, ?_, hbody⟩
    · rw [Option.some.injEq, @eq_comm _ n]
    · simp
    · simp

/-- A stop event whose flags have no name, and whose checksum is right. -/
theorem parse_verdict_unnamed_flags :
    let p : Parser := ⟨true, true, none⟩
    let bs : Bytes := [1, 0, 0, 0, 3, 1, 0, 0, 0, 23, 0, 0, 0, 0, 0, 0, 0, 0, 132, 144, 31, 63, 174]
    ∃ e, p.parse bs = .ok e ∧ e.checksum = .valid ∧ e.crc32 = some 0xae3f1f90 ∧
      e.header.encode = bs.take 19 := by
  intro p bs
  have he : p.parse bs = .ok
      { header := ⟨1, 3, 1, 23, 0, 0x8400⟩, data := .stop, crc32 := some 0xae3f1f90,
        checksum := .valid, eventSize := 0, bytesConsumed := 0 } := by decide +kernel
  have hverifiable : p.Verifiable bs := rfl
  obtain ⟨-, -, -, hvalid, -, -, hwire⟩ := parse_verdict p bs _ he
  exact ⟨_, he, hvalid.mpr ⟨hverifiable, rfl, by decide +kernel⟩, rfl, hwire⟩

end Parser

end Binlog
