import Binlog.Proofs.Framing

/-!
# The algorithm byte of a format description

Two readers look for this byte. `peekAlgorithm` finds it in the data with the checksum still there,
and so decides whether there is one; `FormatDescription.read` finds it in the body that is left.
Each of them takes the place of the byte from the description's own entry in the table of lengths,
and asks that the data ends where it should (`peekAlgorithm_eq_some_iff`, `algorithm_eq_some_iff`).

**Agreement** (`peekAlgorithm_append`). Where the own entry stands in the body, the one finds in the
body and four more bytes what the other finds in the body. So an event that was verified is followed
by events with checksums (`decode_formatDescription`). Data that ends right behind the algorithm
byte has no room for a checksum, whatever the byte says.
-/

namespace Binlog

open Reader

namespace FormatDescription

variable {f : FormatDescription} {data s : Bytes} {a : UInt8}

/-! ## The two readers -/

/-- The data ends with the algorithm byte, as that of a log without room for checksums does. -/
def EndsAtAlgorithm (data : Bytes) : Prop :=
  ∃ n, data[fixedLength + ownEntry]? = some n ∧ data.length = n.toNat + 1

theorem peekAlgorithm_eq_some_iff :
    peekAlgorithm data = some a ↔ ∃ n, data[fixedLength + ownEntry]? = some n ∧
      data.length = n.toNat + 1 + 4 ∧ data[n.toNat]? = some a := by
  simp only [peekAlgorithm, Option.bind_eq_bind, Option.bind_eq_some_iff]
  refine exists_congr fun n => and_congr_right fun hn => ?_
  have hlt : fixedLength + ownEntry < data.length := (List.getElem?_eq_some_iff.mp hn).1
  refine ⟨fun h => ?_, fun h => ?_⟩
  · split at h
    next hlen => exact ⟨hlen.2, h⟩
    next => cases h
  · obtain ⟨hlen, ha⟩ := h
    -- 71 bytes are more than the own entry falls short of
    have hle : fixedLength ≤ n.toNat := by
      simp only [fixedLength, ownEntry] at hlt ⊢
      omega
    rw [if_pos ⟨hle, hlen⟩, ha]

/-- What is read stands behind the fields of fixed length. -/
theorem Fits.split (hf : f.Fits s) : ∃ fixed : Bytes, fixed.length = fixedLength ∧
    f.encode = fixed ++ (f.postHeaderLengths ++ f.checksumAlgorithm.toList) := by
  have hle := hf.text_le
  refine ⟨Bytes.ofNatLE 2 f.binlogVersion.toNat ++ Utf8.encode f.serverVersion ++
    List.replicate (versionLength - (Utf8.encode f.serverVersion).length) 0 ++
    Bytes.ofNatLE 4 f.createTimestamp.toNat ++ [f.headerLength], ?_, ?_⟩
  · simp only [versionLength] at hle
    simp only [List.length_append, Bytes.length_ofNatLE, List.length_replicate,
      List.length_singleton, versionLength, fixedLength]
    omega
  · simp only [encode, List.append_assoc, List.cons_append, List.nil_append]

theorem tableLength_eq {table : Bytes} {n : UInt8} (hown : table[ownEntry]? = some n)
    (hle : fixedLength ≤ n.toNat) (hlen : n.toNat - fixedLength ≤ table.length) :
    tableLength table = n.toNat - fixedLength := by
  unfold tableLength
  rw [hown]
  exact if_pos ⟨hle, hlen⟩

/-- A table that does not take all bytes has the length that its own entry says. -/
theorem own_of_tableLength_lt {table : Bytes} (h : tableLength table < table.length) :
    ∃ n, table[ownEntry]? = some n ∧ n.toNat = fixedLength + tableLength table := by
  unfold tableLength at h ⊢
  cases hown : table[ownEntry]? with
  | none =>
    rw [hown] at h
    exact absurd h (Nat.lt_irrefl _)
  | some n =>
    rw [hown] at h
    dsimp only at h ⊢
    split at h
    next hguard =>
      rw [if_pos hguard]
      exact ⟨n, rfl, by omega⟩
    next => exact absurd h (Nat.lt_irrefl _)

theorem algorithm_eq_some_iff
    (h : (read : Reader Bytes DecodeError FormatDescription) s = .ok f []) :
    f.checksumAlgorithm = some a ↔ ∃ n, s[fixedLength + ownEntry]? = some n ∧
      s.length = n.toNat + 1 ∧ s[n.toNat]? = some a := by
  obtain ⟨hfits, rfl⟩ := FormatDescription.read_eq_ok_iff.mp h
  obtain ⟨fixed, hfixed, hencode⟩ := hfits.split
  have htable := hfits.table
  have hlength : (f.postHeaderLengths ++ f.checksumAlgorithm.toList).length =
      f.postHeaderLengths.length + f.checksumAlgorithm.toList.length := List.length_append
  rw [List.append_nil] at htable ⊢
  rw [hencode, ← hfixed, List.getElem?_append_right (Nat.le_add_right _ _), Nat.add_sub_cancel_left,
    List.length_append, hlength]
  -- the byte, if it is there, is the last one
  have hlast (b : UInt8) (hb : f.checksumAlgorithm = some b) :
      (fixed ++ (f.postHeaderLengths ++ f.checksumAlgorithm.toList))[fixed.length +
        f.postHeaderLengths.length]? = some b := by
    rw [hb, Option.toList_some, ← List.append_assoc, ← List.length_append,
      List.getElem?_concat_length]
  refine ⟨fun ha => ?_, fun hn => ?_⟩
  · have hone : f.checksumAlgorithm.toList.length = 1 := by rw [ha]; rfl
    have hleft : tableLength (f.postHeaderLengths ++ f.checksumAlgorithm.toList) <
        (f.postHeaderLengths ++ f.checksumAlgorithm.toList).length := by omega
    obtain ⟨n, hown, hn⟩ := own_of_tableLength_lt hleft
    refine ⟨n, hown, by omega, ?_⟩
    rw [← hlast a ha]
    congr 1
    omega
  · obtain ⟨n, hown, hlen, hbyte⟩ := hn
    have hlt : ownEntry < (f.postHeaderLengths ++ f.checksumAlgorithm.toList).length :=
      (List.getElem?_eq_some_iff.mp hown).1
    have hfour : ownEntry = 14 := rfl
    rw [tableLength_eq hown (by omega) (by omega)] at htable
    cases hsome : f.checksumAlgorithm with
    | none =>
      have hzero : f.checksumAlgorithm.toList.length = 0 := by rw [hsome]; rfl
      omega
    | some b =>
      have hplace : n.toNat = fixed.length + f.postHeaderLengths.length := by omega
      rwa [hplace, hlast b hsome] at hbyte

/-- With four bytes behind the body, the algorithm is found where it was. -/
theorem peekAlgorithm_append {footer : Bytes} (hfooter : footer.length = 4)
    (hown : fixedLength + ownEntry < s.length)
    (h : (read : Reader Bytes DecodeError FormatDescription) s = .ok f []) :
    peekAlgorithm (s ++ footer) = f.checksumAlgorithm := by
  apply Option.ext
  intro a
  rw [peekAlgorithm_eq_some_iff, algorithm_eq_some_iff h, List.length_append, hfooter,
    List.getElem?_append_left hown]
  refine exists_congr fun n => and_congr_right fun _ => ?_
  refine ⟨fun ⟨hlen, ha⟩ => ?_, fun ⟨hlen, ha⟩ => ?_⟩
  · rw [List.getElem?_append_left (by omega)] at ha
    exact ⟨by omega, ha⟩
  · rw [List.getElem?_append_left (by omega)]
    exact ⟨by omega, ha⟩

theorem not_endsAtAlgorithm (h : peekAlgorithm data = some a) : ¬ EndsAtAlgorithm data := by
  intro hend
  obtain ⟨n, hn, hlen, -⟩ := peekAlgorithm_eq_some_iff.mp h
  obtain ⟨m, hm, hend⟩ := hend
  rw [hn] at hm
  cases hm
  omega

end FormatDescription

/-! ## Decoded format descriptions -/

namespace Parser

theorem Cuts.crc32_isSome_iff {p : Parser} {h : Header} {f : Frame} (hc : p.Cuts h f)
    (htype : h.eventType = .formatDescription) :
    f.crc32.isSome ↔ ∃ a, FormatDescription.peekAlgorithm f.data = some a ∧
      a ≠ FormatDescription.undefinedAlgorithm := by
  rw [hc.crc32_isSome, hc.footer_eq, Ne, Footer.ofData_eq_absent_iff, if_pos htype]
  simp only [not_forall, exists_prop]
  rfl

/-- A payload that is a format description was read as one, from all of the body. -/
theorem read_of_payload {p : Parser} {h : Header} {f : FormatDescription} {body rest : Bytes}
    (hread : p.payload h body = .ok (.formatDescription f) rest)
    (hall : body.length - rest.length = body.length) :
    h.eventType = .formatDescription ∧
      (FormatDescription.read : Reader Bytes DecodeError FormatDescription) body = .ok f [] := by
  have htype : h.eventType = .formatDescription :=
    EventKind.ofType_eq_formatDescription_iff.mp (Payload.kind_of_read hread).symm
  rw [payload, htype] at hread
  have hbody := (map_injective_eq_ok_iff fun _ _ => Payload.formatDescription.inj).mp hread
  obtain rfl := Frame.rest_eq_nil (FormatDescription.read_eq_ok_iff.mp hbody).2 hall
  exact ⟨htype, hbody⟩

/-- **The readers agree on what is accepted.** Let the body hold the description's own entry if a
checksum was cut off. Then there is a checksum just when the algorithm is not the undefined one and
the data goes on behind it, the algorithm is the one that was looked for, and a verdict means that
the following events have checksums. -/
theorem decode_formatDescription (p : Parser) (h : Header) (bs : Bytes) (e : Event)
    (f : FormatDescription) (he : p.decode h bs = .ok e) (hf : e.data = .formatDescription f)
    (hown : e.crc32.isSome →
      FormatDescription.fixedLength + FormatDescription.ownEntry < e.eventSize) :
    let data := bs.take h.dataLength
    (e.crc32.isSome ↔
      (∃ a, f.checksumAlgorithm = some a ∧ a ≠ FormatDescription.undefinedAlgorithm) ∧
        ¬ FormatDescription.EndsAtAlgorithm data) ∧
      (e.crc32.isSome → FormatDescription.peekAlgorithm data = f.checksumAlgorithm) ∧
      (e.checksum ≠ .notChecked →
        ∀ validate, (ofFormatDescription f validate).checksum = true) := by
  intro data
  obtain ⟨fr, d, rest, hc, ⟨tail, rfl⟩, hread, hall, rfl⟩ := decode_eq_ok_iff.mp he
  obtain rfl : d = .formatDescription f := hf
  have hdata : data = fr.data := by
    show (fr.data ++ tail).take h.dataLength = fr.data
    rw [← hc.length_data, List.take_left]
  obtain ⟨htype, hbody⟩ := read_of_payload hread hall
  have hsome := hc.crc32_isSome_iff htype
  have hpeek (hcrc : fr.crc32.isSome) :
      FormatDescription.peekAlgorithm fr.data = f.checksumAlgorithm := by
    have hfour := fr.length_footerBytes
    rw [if_pos hcrc] at hfour
    exact FormatDescription.peekAlgorithm_append hfour (hown hcrc) hbody
  rw [hdata]
  change (fr.crc32.isSome ↔ _) ∧ (fr.crc32.isSome → _) ∧ (fr.verdict p.validate h ≠ _ → _)
  refine ⟨⟨fun hcrc => ?_, fun hmore => ?_⟩, hpeek, fun hverdict validate => ?_⟩
  · obtain ⟨a, ha, hne⟩ := hsome.mp hcrc
    refine ⟨⟨a, ?_, hne⟩, FormatDescription.not_endsAtAlgorithm ha⟩
    rw [← hpeek hcrc, ha]
  · obtain ⟨⟨a, ha, hne⟩, hgoes⟩ := hmore
    by_contra hcrc
    obtain ⟨n, hn, hlen, -⟩ := (FormatDescription.algorithm_eq_some_iff hbody).mp ha
    apply hgoes
    have hfooter : fr.footerBytes = [] := by
      have hnone := fr.length_footerBytes
      rw [if_neg hcrc] at hnone
      exact List.eq_nil_of_length_eq_zero hnone
    rw [Frame.data, hfooter, List.append_nil]
    exact ⟨n, hn, hlen⟩
  · have hcrc32 : fr.footer = .crc32 := by
      by_contra hne
      exact hverdict (Frame.verdict_eq_notChecked_iff.mpr fun h => absurd h hne)
    have hone : FormatDescription.peekAlgorithm fr.data = some 1 := by
      rw [hc.footer_eq, Footer.ofData_eq_crc32_iff, if_pos htype] at hcrc32
      exact hcrc32
    have hcrc : fr.crc32.isSome := hsome.mpr ⟨1, hone, by decide⟩
    show (f.checksumAlgorithm == some FormatDescription.crc32Algorithm) = true
    rw [← hpeek hcrc, hone]
    rfl

set_option maxRecDepth 20000 in
/-- A table of 15 lengths, the algorithm CRC-32 and a checksum that is right. -/
theorem decode_formatDescription_verified :
    let p : Parser := ⟨true, true, none⟩
    let bs : Bytes := [4, 0, 53, 46, 55, 46, 51, 48] ++ List.replicate 44 0 ++ [0, 0, 0, 0, 19] ++
      List.replicate 14 0 ++ [72, 1, 13, 228, 38, 96]
    ∃ e f, p.decode ⟨0, 15, 1, 96, 0, 0⟩ bs = .ok e ∧ e.data = .formatDescription f ∧
      e.checksum = .valid ∧ (ofFormatDescription f true).checksum = true := by
  intro p bs
  have he : p.decode ⟨0, 15, 1, 96, 0, 0⟩ bs = .ok
      { header := ⟨0, 15, 1, 96, 0, 0⟩
        data := .formatDescription
          ⟨4, "5.7.30", ⟨5, 7, 30⟩, 0, 19, List.replicate 14 0 ++ [72], some 1⟩
        crc32 := some 0x6026e40d, checksum := .valid, eventSize := 73, bytesConsumed := 73 } := by
    decide +kernel
  obtain ⟨-, -, henabled⟩ := decode_formatDescription p _ bs _ _ he rfl (by decide)
  exact ⟨_, _, he, rfl, rfl, henabled (by decide) true⟩

set_option maxRecDepth 20000 in
/-- Data that ends with the algorithm byte has no checksum, though the byte names CRC-32. And a
table of 13 lengths has no own entry: the byte in that place belongs to the checksum. Where it is
70, the description is verified, but no algorithm is read. -/
theorem decode_formatDescription_disagreement :
    let p : Parser := ⟨true, true, none⟩
    let front : Bytes := [4, 0, 53, 46, 55, 46, 51, 48] ++ List.replicate 44 0
    let ends : Bytes := front ++ [0, 0, 0, 0, 19] ++ List.replicate 14 0 ++ [72, 1]
    let short : Bytes :=
      front ++ [237, 0, 0, 0, 19] ++ List.replicate 13 0 ++ [1, 70, 114, 192, 103]
    (∃ e f, p.decode ⟨0, 15, 1, 92, 0, 0⟩ ends = .ok e ∧ e.data = .formatDescription f ∧
      ¬ (e.crc32.isSome ↔
        ∃ a, f.checksumAlgorithm = some a ∧ a ≠ FormatDescription.undefinedAlgorithm)) ∧
      ∃ e f, p.decode ⟨0, 15, 1, 94, 0, 0⟩ short = .ok e ∧ e.data = .formatDescription f ∧
        e.checksum = .valid ∧ e.crc32.isSome ∧
        FormatDescription.peekAlgorithm short ≠ f.checksumAlgorithm ∧
        (ofFormatDescription f true).checksum = false := by
  intro p front ends short
  have hends : p.decode ⟨0, 15, 1, 92, 0, 0⟩ ends = .ok
      { header := ⟨0, 15, 1, 92, 0, 0⟩
        data := .formatDescription
          ⟨4, "5.7.30", ⟨5, 7, 30⟩, 0, 19, List.replicate 14 0 ++ [72], some 1⟩
        crc32 := none, checksum := .notChecked, eventSize := 73, bytesConsumed := 73 } := by
    decide +kernel
  have hshort : p.decode ⟨0, 15, 1, 94, 0, 0⟩ short = .ok
      { header := ⟨0, 15, 1, 94, 0, 0⟩
        data := .formatDescription
          ⟨4, "5.7.30", ⟨5, 7, 30⟩, 237, 19, List.replicate 13 0 ++ [1], none⟩
        crc32 := some 0x67c07246, checksum := .valid, eventSize := 71, bytesConsumed := 71 } := by
    decide +kernel
  refine ⟨⟨_, _, hends, rfl, fun h => ?_⟩, _, _, hshort, rfl, rfl, rfl, by decide, rfl⟩
  exact absurd (h.mpr ⟨1, rfl, by decide⟩) (by decide)

end Parser

end Binlog
