import Binlog.Proofs.Reading

/-!
# Strict text

Bytes are read as a text strictly exactly when they are the text's UTF-8 (`decode_eq_ok_iff`), so a
text that was read strictly can be written again byte for byte.

The pieces of a run of bytes are found one after the other. If a character stands at the front, it
is the first piece, and the others are the pieces of what follows (`pieces_utf8EncodeChar_append`).
All pieces are characters just when the run is made up of characters in this way.
-/

namespace Binlog.Utf8

/-! ## The first character -/

theorem char?_utf8EncodeChar_append (c : Char) (rest : Bytes) :
    char? (String.utf8EncodeChar c ++ rest) = some c := by
  have hle : (String.utf8EncodeChar c).length ≤ 4 := by
    rw [String.length_utf8EncodeChar]
    exact c.utf8Size_le_four
  rw [char?, List.take_append, List.take_of_length_le hle, List.toByteArray_append]
  exact ByteArray.utf8DecodeChar?_utf8EncodeChar_append

theorem eq_append_of_char?_eq_some {bs : Bytes} {c : Char} (h : char? bs = some c) :
    ∃ rest, bs = String.utf8EncodeChar c ++ rest := by
  obtain ⟨l, hl⟩ := ByteArray.exists_of_utf8DecodeChar?_eq_some h
  have htake : bs.take 4 = String.utf8EncodeChar c ++ l.data.toList := by
    have := congrArg (fun b : ByteArray => b.data.toList) hl
    simpa [ByteArray.data_append] using this
  exact ⟨l.data.toList ++ bs.drop 4, by rw [← List.append_assoc, ← htake, List.take_append_drop]⟩

/-! ## Pieces -/

theorem piecesFrom_eq_pieces_drop (skip : Nat) (bs : Bytes) :
    piecesFrom skip bs = pieces (bs.drop skip) := by
  induction bs generalizing skip with
  | nil => cases skip <;> rfl
  | cons b rest ih =>
    cases skip with
    | zero => rfl
    | succ skip => exact ih skip

theorem pieces_cons (b : UInt8) (rest : Bytes) :
    pieces (b :: rest) = piece b rest :: pieces (rest.drop ((piece b rest).size - 1)) := by
  rw [← piecesFrom_eq_pieces_drop]
  rfl

theorem pieces_utf8EncodeChar_append (c : Char) (rest : Bytes) :
    pieces (String.utf8EncodeChar c ++ rest) = .char c :: pieces rest := by
  have hchar := char?_utf8EncodeChar_append c rest
  have hlen := String.length_utf8EncodeChar c
  cases henc : String.utf8EncodeChar c with
  | nil => exact absurd henc String.utf8EncodeChar_ne_nil
  | cons b tail =>
    rw [henc, List.cons_append] at hchar
    rw [henc, List.length_cons] at hlen
    have hpiece : piece b (tail ++ rest) = .char c := by
      simp only [piece, hchar]
    have hsize : c.utf8Size - 1 = tail.length := by omega
    rw [List.cons_append, pieces_cons, hpiece, Piece.size, hsize, List.drop_left]

theorem eq_append_of_pieces_eq_cons {bs : Bytes} {c : Char} {ps : List Piece}
    (h : pieces bs = .char c :: ps) :
    ∃ rest, bs = String.utf8EncodeChar c ++ rest ∧ pieces rest = ps := by
  cases bs with
  | nil => cases h
  | cons b tail =>
    have hpiece : piece b tail = .char c := by
      rw [pieces_cons] at h
      exact (List.cons.inj h).1
    have hchar : char? (b :: tail) = some c := by
      unfold piece at hpiece
      split at hpiece
      next c' hc' =>
        cases hpiece
        exact hc'
      next =>
        split at hpiece
        next => cases hpiece
        next =>
          dsimp only at hpiece
          split at hpiece <;> cases hpiece
    obtain ⟨rest, hrest⟩ := eq_append_of_char?_eq_some hchar
    rw [hrest, pieces_utf8EncodeChar_append] at h
    exact ⟨rest, hrest, (List.cons.inj h).2⟩

theorem pieces_eq_map_char_iff {bs : Bytes} {cs : List Char} :
    pieces bs = cs.map .char ↔ bs = cs.flatMap String.utf8EncodeChar := by
  induction cs generalizing bs with
  | nil =>
    cases bs with
    | nil => exact ⟨fun _ => rfl, fun _ => rfl⟩
    | cons b rest => simp [pieces_cons]
  | cons c cs ih =>
    rw [List.map_cons, List.flatMap_cons]
    refine ⟨fun h => ?_, fun h => ?_⟩
    · obtain ⟨rest, rfl, hrest⟩ := eq_append_of_pieces_eq_cons h
      rw [ih.mp hrest]
    · subst h
      rw [pieces_utf8EncodeChar_append, ih.mpr rfl]

/-! ## Texts -/

theorem charsFrom_eq_ok_iff (index : Nat) {ps : List Piece} {cs : List Char} :
    charsFrom index ps = .ok cs ↔ ps = cs.map .char := by
  induction ps generalizing index cs with
  | nil => cases cs <;> simp [charsFrom]
  | cons p ps ih =>
    cases p with
    | bad n => cases cs <;> simp [charsFrom]
    | cut n => cases cs <;> simp [charsFrom]
    | char c =>
      rw [charsFrom]
      cases hrest : charsFrom (index + c.utf8Size) ps with
      | error e =>
        refine ⟨fun h => ?_, fun h => ?_⟩
        · cases h
        · cases cs with
          | nil => cases h
          | cons d cs =>
            have hok := (ih (index + c.utf8Size)).mpr (List.cons.inj h).2
            rw [hrest] at hok
            cases hok
      | ok ds =>
        rw [(ih _).mp hrest, ← List.map_cons]
        refine ⟨fun h => ?_, fun h => ?_⟩
        · cases h
          rfl
        · rw [List.map_inj_right (fun _ _ hp => Piece.char.inj hp)] at h
          rw [← h]
          rfl

/-- **Strict reading inverts writing**: the bytes of a text are all that is read as the text. -/
theorem decode_eq_ok_iff {bs : Bytes} {s : String} : decode bs = .ok s ↔ bs = encode s := by
  rw [encode, ← pieces_eq_map_char_iff, ← charsFrom_eq_ok_iff 0, decode]
  cases charsFrom 0 (pieces bs) with
  | error e =>
    constructor <;> intro h <;> cases h
  | ok cs =>
    refine ⟨fun h => ?_, fun h => ?_⟩
    · cases h
      rw [String.toList_ofList]
    · cases h
      exact congrArg Except.ok (String.ofList_toList)

/-- The bytes of a text have no other piece than characters, so lossy reading loses nothing. -/
theorem decodeLossy_encode (s : String) : decodeLossy (encode s) = s := by
  have hpieces : pieces (encode s) = s.toList.map .char := pieces_eq_map_char_iff.mpr rfl
  rw [decodeLossy, hpieces, List.map_map]
  have hshown : Piece.shown ∘ Piece.char = id := rfl
  rw [hshown, List.map_id, String.ofList_toList]

end Utf8

/-- Strict reading of a text within a decoder. -/
theorem Reader.strictText_eq_ok_iff {σ : Type} {bs : Bytes} {text : String} {s t : σ} :
    (strictText bs : Reader σ DecodeError String) s = .ok text t ↔
      bs = Utf8.encode text ∧ s = t := by
  rw [← Utf8.decode_eq_ok_iff, strictText]
  cases Utf8.decode bs with
  | error e => simp [throw_ne_ok]
  | ok s => simp [pure_eq_ok_iff]

end Binlog
