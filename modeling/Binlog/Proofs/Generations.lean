import Binlog.Proofs.AlgorithmByte
import Binlog.Proofs.Transparency

/-!
# Both generations of format descriptions

A server that knows checksums writes an algorithm byte behind the table of lengths, and four bytes
of checksum behind that; an older one writes neither. Nothing in front of the table tells which of
them wrote an event, and a parser that starts on a log does not know either.

**Own entry.** The table says its own length (`FormatDescription.WellFormed`). So the end of the
table is known in both generations, and what follows it is five bytes or none. The reader of the
body and the reader of the algorithm byte both come out right, whatever the lengths and the version
text are.

Main statement: `Parser.parse_generations`.
-/

namespace Binlog

open Reader

namespace FormatDescription

variable {f : FormatDescription}

/-- A description as servers write it: the version text fits into its field and does not end with
the byte that fills the field up, it names the version, and the table of lengths says in the entry
for the description itself where it ends. -/
structure WellFormed (f : FormatDescription) : Prop where
  text_le : (Utf8.encode f.serverVersion).length ≤ versionLength
  text_end : (Utf8.encode f.serverVersion).getLast? ≠ some 0
  version : ServerVersion.ofText? f.serverVersion = some f.version
  /-- The entry is a byte, and counts the bytes in front of the table too. -/
  table_le : fixedLength + f.postHeaderLengths.length ≤ 255
  own : f.postHeaderLengths[ownEntry]? = some (.ofNat (fixedLength + f.postHeaderLengths.length))

theorem trimNul_eq_self {bs : Bytes} (h : bs.getLast? ≠ some 0) : trimNul bs = bs := by
  unfold trimNul
  rw [List.getLast?_eq_head?_reverse] at h
  cases hrev : bs.reverse with
  | nil => rw [List.dropWhile_nil, List.reverse_nil, List.reverse_eq_nil_iff.mp hrev]
  | cons b rest =>
    have hb : b ≠ 0 := by
      rw [hrev] at h
      simpa using h
    rw [List.dropWhile_cons_of_neg (by simpa using hb), ← hrev, List.reverse_reverse]

namespace WellFormed

/-! ## The body -/

theorem toNat_own (hf : f.WellFormed) :
    (UInt8.ofNat (fixedLength + f.postHeaderLengths.length)).toNat =
      fixedLength + f.postHeaderLengths.length :=
  UInt8.toNat_ofNat_of_lt' (Nat.lt_succ_of_le hf.table_le)

theorem ownEntry_lt (hf : f.WellFormed) : ownEntry < f.postHeaderLengths.length :=
  (List.getElem?_eq_some_iff.mp hf.own).1

/-- The table ends where it says, whatever follows it. -/
theorem tableLength_append (hf : f.WellFormed) (rest : Bytes) :
    tableLength (f.postHeaderLengths ++ rest) = f.postHeaderLengths.length := by
  have hown : (f.postHeaderLengths ++ rest)[ownEntry]? =
      some (.ofNat (fixedLength + f.postHeaderLengths.length)) := by
    rw [List.getElem?_append_left hf.ownEntry_lt, hf.own]
  rw [tableLength_eq hown, hf.toNat_own, Nat.add_sub_cancel_left]
  · rw [hf.toNat_own]
    exact Nat.le_add_right _ _
  · rw [hf.toNat_own, Nat.add_sub_cancel_left, List.length_append]
    exact Nat.le_add_right _ _

theorem fits (hf : f.WellFormed) : f.Fits [] where
  text_le := hf.text_le
  text_trimmed := trimNul_eq_self hf.text_end
  version := hf.version
  table := by rw [List.append_assoc, hf.tableLength_append]
  rest_eq := fun _ => rfl

theorem read_encode (hf : f.WellFormed) :
    (read : Reader Bytes DecodeError FormatDescription) f.encode = .ok f [] :=
  read_eq_ok_iff.mpr ⟨hf.fits, (List.append_nil _).symm⟩

theorem length_encode (hf : f.WellFormed) : f.encode.length =
    fixedLength + f.postHeaderLengths.length + f.checksumAlgorithm.toList.length := by
  obtain ⟨fixed, hfixed, hencode⟩ := hf.fits.split
  rw [hencode, List.length_append, List.length_append, hfixed, Nat.add_assoc]

/-- A description is far shorter than the longest event. -/
theorem length_encode_le (hf : f.WellFormed) : f.encode.length ≤ 256 := by
  have hlen := hf.length_encode
  have htable := hf.table_le
  have hone : f.checksumAlgorithm.toList.length ≤ 1 := by cases f.checksumAlgorithm <;> simp
  omega

/-! ## The algorithm byte -/

/-- Four bytes behind the algorithm byte are a checksum. -/
theorem peekAlgorithm_encode_append (hf : f.WellFormed) {footer : Bytes}
    (hfooter : footer.length = 4) : peekAlgorithm (f.encode ++ footer) = f.checksumAlgorithm := by
  refine peekAlgorithm_append hfooter ?_ hf.read_encode
  have hlen := hf.length_encode
  have hown := hf.ownEntry_lt
  omega

/-- Without an algorithm byte no checksum is found. -/
theorem peekAlgorithm_encode (hf : f.WellFormed) (hnone : f.checksumAlgorithm = none) :
    peekAlgorithm f.encode = none := by
  obtain ⟨fixed, hfixed, hencode⟩ := hf.fits.split
  rw [Option.eq_none_iff_forall_ne_some]
  intro a ha
  obtain ⟨n, hn, hlen, -⟩ := peekAlgorithm_eq_some_iff.mp ha
  have hown : f.encode[fixedLength + ownEntry]? =
      some (.ofNat (fixedLength + f.postHeaderLengths.length)) := by
    rw [hencode, ← hfixed, List.getElem?_append_right (Nat.le_add_right _ _),
      Nat.add_sub_cancel_left, List.getElem?_append_left hf.ownEntry_lt, hf.own, hfixed]
  obtain rfl := Option.some.inj (hn.symm.trans hown)
  rw [hf.toNat_own, hf.length_encode, hnone, Option.toList_none, List.length_nil] at hlen
  omega

end WellFormed

end FormatDescription

namespace Parser

/-! ## Events -/

variable {h : Header} {f : FormatDescription}

/-- A description in a frame is accepted, if the header declares the frame's length and the frame
has the footer that the description asks for. -/
theorem parse_of_wellFormed (p : Parser) (fr : Frame) (hf : f.WellFormed) (htype : h.typeCode = 15)
    (hbody : fr.body = f.encode) (hcrc : fr.crc32.isSome ↔ fr.footer ≠ .absent)
    (hfooter : fr.footer = Footer.ofAlgorithm (FormatDescription.peekAlgorithm fr.data))
    (tail : Bytes) :
    let long := h.withLength (Header.size + fr.data.length)
    p.parse (long.encode ++ (fr.data ++ tail)) =
      .ok (fr.event p.validate long (.formatDescription f)) := by
  intro long
  have htype' : long.eventType = .formatDescription :=
    (EventType.ofCode_eq_formatDescription_iff _).mpr htype
  have hsize : Header.size + fr.data.length < 2 ^ 32 := by
    have hle := hf.length_encode_le
    have hfour := fr.length_footerBytes
    have hlen : fr.footerBytes.length ≤ Footer.size := by
      rw [hfour]
      split
      · exact Nat.le_refl _
      · exact Nat.zero_le _
    rw [Frame.data, List.length_append, hbody]
    simp only [Footer.size] at hlen
    simp only [Header.size]
    omega
  have hcuts : p.Cuts long fr := by
    refine ⟨h.size_le_withLength hsize, (h.dataLength_withLength hsize).symm, ?_, hcrc⟩
    rw [hfooter, Footer.ofData, if_pos htype']
  have hread : p.payload long fr.body = .ok (.formatDescription f) [] := by
    rw [payload, htype', hbody]
    exact (map_injective_eq_ok_iff fun _ _ => Payload.formatDescription.inj).mpr hf.read_encode
  exact parse_eq_ok_iff.mpr ⟨long, fr, _, [], hcuts, ⟨tail, rfl⟩, hread, rfl, rfl⟩

/-- **Both generations are told apart.** Let a well-formed description stand behind a header of its
type that declares its length. With an algorithm byte, which is not the undefined one, and any four
bytes behind it, it is decoded as it is by every parser; the four bytes are its checksum, which is
verified just when the algorithm is CRC-32 and the parser verifies checksums. Without both it is
decoded as it is and has no checksum. Just in the case of CRC-32 the following events have
checksums; the version of the server is the one that the text names. -/
theorem parse_generations (p : Parser) (h : Header) (f : FormatDescription) (hf : f.WellFormed)
    (htype : h.typeCode = 15) (tail : Bytes) :
    (∀ (a : UInt8) (crc : UInt32), f.checksumAlgorithm = some a →
      a ≠ FormatDescription.undefinedAlgorithm →
      let long := h.withLength (Header.size + (f.encode.length + Footer.size))
      p.parse (long.encode ++ (f.encode ++ Bytes.ofNatLE 4 crc.toNat ++ tail)) = .ok
          { header := long
            data := .formatDescription f
            crc32 := some crc
            checksum :=
              if a = FormatDescription.crc32Algorithm ∧ p.validate then
                if Crc32.checksum (long.encode ++ f.encode) = crc then .valid else .invalid
              else .notChecked
            eventSize := f.encode.length
            bytesConsumed := f.encode.length } ∧
        ∀ validate, ofFormatDescription f validate =
          ⟨a == FormatDescription.crc32Algorithm, validate, some f.version⟩) ∧
      (f.checksumAlgorithm = none →
        let long := h.withLength (Header.size + f.encode.length)
        p.parse (long.encode ++ (f.encode ++ tail)) = .ok
            { header := long
              data := .formatDescription f
              crc32 := none
              checksum := .notChecked
              eventSize := f.encode.length
              bytesConsumed := f.encode.length } ∧
          ∀ validate, ofFormatDescription f validate = ⟨false, validate, some f.version⟩) := by
  refine ⟨fun a crc ha hne => ?_, fun hnone => ?_⟩
  · intro long
    have hpeek : FormatDescription.peekAlgorithm (f.encode ++ Bytes.ofNatLE 4 crc.toNat) = some a :=
      (hf.peekAlgorithm_encode_append (Bytes.length_ofNatLE 4 _)).trans ha
    have hpresent : Footer.ofAlgorithm (some a) ≠ .absent := by
      simp only [Footer.ofAlgorithm, if_neg hne]
      split <;> simp
    have hcrc32 : Footer.ofAlgorithm (some a) = .crc32 ↔ a = FormatDescription.crc32Algorithm := by
      simp only [Footer.ofAlgorithm, if_neg hne]
      split <;> simp_all
    let fr : Frame := ⟨Footer.ofAlgorithm (some a), f.encode, some crc⟩
    have hlen : fr.data.length = f.encode.length + Footer.size := by
      rw [Frame.data, List.length_append, fr.length_footerBytes]
      rfl
    have hparse := parse_of_wellFormed p fr hf htype rfl
      ⟨fun _ => hpresent, fun _ => rfl⟩ (congrArg Footer.ofAlgorithm hpeek.symm) tail
    rw [hlen] at hparse
    have hverdict : fr.verdict p.validate long =
        if a = FormatDescription.crc32Algorithm ∧ p.validate then
          if Crc32.checksum (long.encode ++ f.encode) = crc then .valid else .invalid
        else .notChecked := by
      simp only [Frame.verdict, fr, hcrc32]
    refine ⟨?_, fun validate => ?_⟩
    · rw [← hverdict]
      exact hparse
    · rw [ofFormatDescription, FormatDescription.checksumEnabled, ha]
      rfl
  · intro long
    have hpeek := hf.peekAlgorithm_encode hnone
    let fr : Frame := ⟨.absent, f.encode, none⟩
    have hdata : fr.data = f.encode := List.append_nil _
    have hparse := parse_of_wellFormed p fr hf htype rfl
      ⟨fun hsome => absurd hsome (by simp [fr]), fun hne => absurd rfl hne⟩
      (by rw [hdata, hpeek]; rfl) tail
    rw [hdata] at hparse
    refine ⟨hparse, fun validate => ?_⟩
    rw [ofFormatDescription, FormatDescription.checksumEnabled, hnone]
    rfl

set_option maxRecDepth 20000 in
/-- A table of 15 lengths, once with the algorithm CRC-32 and the right checksum and once without
both, for a parser that expects checksums and for one that does not. -/
theorem parse_generations_fifteen_lengths :
    let new : FormatDescription :=
      { binlogVersion := 4, serverVersion := "5.7.30", version := ⟨5, 7, 30⟩, createTimestamp := 0,
        headerLength := 19, postHeaderLengths := List.replicate 14 0 ++ [72],
        checksumAlgorithm := some 1 }
    let old : FormatDescription := { new with checksumAlgorithm := none }
    let front : Bytes := [4, 0, 53, 46, 55, 46, 51, 48] ++ List.replicate 44 0 ++
      [0, 0, 0, 0, 19] ++ List.replicate 14 0 ++ [72]
    new.WellFormed ∧ old.WellFormed ∧
      (∃ e, (⟨false, true, none⟩ : Parser).parse
          ((⟨0, 15, 1, 96, 0, 0⟩ : Header).encode ++ (front ++ [1, 13, 228, 38, 96])) = .ok e ∧
        e.data = .formatDescription new ∧ e.checksum = .valid) ∧
      ∃ e, (⟨true, true, none⟩ : Parser).parse
          ((⟨0, 15, 1, 91, 0, 0⟩ : Header).encode ++ front) = .ok e ∧
        e.data = .formatDescription old ∧ e.checksum = .notChecked := by
  intro new old front
  have hnew : new.WellFormed :=
    ⟨by decide +kernel, by decide +kernel, by decide +kernel, by decide, by decide⟩
  have hold : old.WellFormed :=
    ⟨by decide +kernel, by decide +kernel, by decide +kernel, by decide, by decide⟩
  have hfooted := (parse_generations ⟨false, true, none⟩ ⟨0, 15, 1, 0, 0, 0⟩ new hnew rfl []).1
    1 0x6026e40d rfl (by decide)
  have hbare := (parse_generations ⟨true, true, none⟩ ⟨0, 15, 1, 0, 0, 0⟩ old hold rfl []).2 rfl
  have hlong : (⟨0, 15, 1, 0, 0, 0⟩ : Header).withLength
      (Header.size + (new.encode.length + Footer.size)) = ⟨0, 15, 1, 96, 0, 0⟩ := by
    decide +kernel
  have hshort : (⟨0, 15, 1, 0, 0, 0⟩ : Header).withLength (Header.size + old.encode.length) =
      ⟨0, 15, 1, 91, 0, 0⟩ := by
    decide +kernel
  have hnewBytes : new.encode ++ Bytes.ofNatLE 4 (0x6026e40d : UInt32).toNat ++ [] =
      front ++ [1, 13, 228, 38, 96] := by
    decide +kernel
  have holdBytes : old.encode ++ [] = front := by decide +kernel
  rw [hlong, hnewBytes] at hfooted
  rw [hshort, holdBytes] at hbare
  refine ⟨hnew, hold, ⟨_, hfooted.1, rfl, ?_⟩, _, hbare.1, rfl, rfl⟩
  decide +kernel

end Parser

end Binlog
