import Binlog.Parser
import Binlog.Proofs.Layouts
import Binlog.Proofs.TextForms
import Mathlib.Data.List.Forall2
import Mathlib.Data.List.TakeWhile

/-!
# The grammar of versions

A version text has parts between points, up to a hyphen or the end. Each of the first three parts is
a number: digits with blanks around them and perhaps a plus sign in front. Numbers that are missing
are zero, but a part that is there and has no digits names no number. What follows the third part,
or the hyphen, may be anything.

**Separators.** A text is cut into its parts in one way only, since a part has neither of the two
separators in it (`segments_eq`). The three plain numbers of a version are such parts, and what is
read from them is the version.

Main statement: `names_exactly`.
-/

namespace Binlog

/-! ## Blanks -/

namespace Text

theorem isBlank_of_isDigit {c : Char} (h : c.isDigit) : isBlank c = false := by
  have hrange : 48 ≤ c.toNat ∧ c.toNat ≤ 57 := by
    simpa [Char.isDigit, UInt32.le_iff_toNat_le] using h
  simp [isBlank, inRanges, blankRanges]
  omega

/-- A text is what is left of it between blanks. -/
theorem exists_eq_trimBlank (cs : List Char) : ∃ left right : List Char,
    cs = left ++ trimBlank cs ++ right ∧ ∀ c ∈ left ++ right, isBlank c := by
  let rest := cs.dropWhile isBlank
  refine ⟨cs.takeWhile isBlank, (rest.reverse.takeWhile isBlank).reverse, ?_, ?_⟩
  · have hrest : rest = trimBlank cs ++ (rest.reverse.takeWhile isBlank).reverse := by
      rw [trimBlank, ← List.reverse_append, List.takeWhile_append_dropWhile, List.reverse_reverse]
    rw [List.append_assoc, ← hrest, List.takeWhile_append_dropWhile]
  · intro c hc
    rcases List.mem_append.mp hc with hc | hc
    · exact List.mem_takeWhile_imp hc
    · exact List.mem_takeWhile_imp (List.mem_reverse.mp hc)

theorem dropWhile_isBlank_append {blanks cs : List Char} (hblanks : ∀ c ∈ blanks, isBlank c)
    (hcs : ∀ c, cs.head? = some c → isBlank c = false) :
    (blanks ++ cs).dropWhile isBlank = cs := by
  rw [List.dropWhile_append_of_pos hblanks]
  cases cs with
  | nil => rfl
  | cons c cs => exact List.dropWhile_cons_of_neg (by simp [hcs c rfl])

/-- Only the blanks at the ends are dropped. -/
theorem trimBlank_append {left core right : List Char} (hends : ∀ c ∈ left ++ right, isBlank c)
    (hcore : ∀ c ∈ core, isBlank c = false) (hne : core ≠ []) :
    trimBlank (left ++ core ++ right) = core := by
  rw [List.forall_mem_append] at hends
  obtain ⟨hleft, hright⟩ := hends
  have hfront : (left ++ core ++ right).dropWhile isBlank = core ++ right := by
    rw [List.append_assoc]
    refine dropWhile_isBlank_append hleft fun c hc => hcore c ?_
    rw [List.head?_append_of_ne_nil _ hne] at hc
    exact List.mem_of_head? hc
  have hback : (core ++ right).reverse.dropWhile isBlank = core.reverse := by
    rw [List.reverse_append]
    refine dropWhile_isBlank_append (fun c hc => hright c (List.mem_reverse.mp hc)) fun c hc => ?_
    exact hcore c (List.mem_reverse.mp (List.mem_of_head? hc))
  rw [trimBlank, hfront, hback, List.reverse_reverse]

end Text

/-! ## Parts -/

/-- Every text is cut at a separator into parts that do not have it. -/
theorem exists_parts (c : Char) (cs : List Char) : ∃ parts : List (List Char),
    cs = [c].intercalate parts ∧ parts ≠ [] ∧ ∀ part ∈ parts, c ∉ part ∧ part ⊆ cs := by
  induction cs with
  | nil => exact ⟨[[]], by simp, by simp, by simp⟩
  | cons d cs ih =>
    obtain ⟨parts, hcs, hne, hparts⟩ := ih
    have hsub : ∀ part ∈ parts, c ∉ part ∧ part ⊆ d :: cs := fun part hpart =>
      ⟨(hparts part hpart).1, List.subset_cons_of_subset d (hparts part hpart).2⟩
    by_cases hd : d = c
    · subst hd
      refine ⟨[] :: parts, ?_, List.cons_ne_nil _ _, ?_⟩
      · rw [List.intercalate_cons_of_ne_nil hne, ← hcs]
        rfl
      · rw [List.forall_mem_cons]
        exact ⟨⟨List.not_mem_nil, List.nil_subset _⟩, hsub⟩
    · obtain ⟨part, rest, rfl⟩ := List.exists_cons_of_ne_nil hne
      rw [List.forall_mem_cons] at hparts hsub
      refine ⟨(d :: part) :: rest, ?_, List.cons_ne_nil _ _, ?_⟩
      · rw [hcs]
        cases rest with
        | nil => simp
        | cons next rest => simp [List.intercalate_cons_cons]
      · rw [List.forall_mem_cons]
        refine ⟨⟨?_, ?_⟩, hsub.2⟩
        · simp [hparts.1.1, Ne.symm hd]
        · exact List.cons_subset_cons d hparts.1.2

namespace ServerVersion

/-! ## Numbers -/

/-- Digits with blanks around them and perhaps a plus sign in front, for the number `n`. -/
def IsNumeral (n : UInt32) (cs : List Char) : Prop :=
  ∃ left sign digits right : List Char, cs = left ++ (sign ++ digits) ++ right ∧
    (∀ c ∈ left ++ right, Text.isBlank c) ∧ (sign = [] ∨ sign = ['+']) ∧
    digits ≠ [] ∧ (∀ c ∈ digits, c.isDigit) ∧ Digits.value digits = n.toNat

theorem digits?_eq_some_iff {cs : List Char} {n : UInt32} : digits? cs = some n ↔
    cs ≠ [] ∧ (∀ c ∈ cs, c.isDigit) ∧ Digits.value cs = n.toNat := by
  unfold digits?
  by_cases hdigits : cs ≠ [] ∧ ∀ c ∈ cs, c.isDigit
  · rw [if_neg (by simpa using hdigits)]
    by_cases hlt : Digits.value cs < 2 ^ 32
    · rw [if_pos hlt, Option.some_inj, ← UInt32.toNat_inj, UInt32.toNat_ofNat_of_lt' hlt]
      exact ⟨fun hvalue => ⟨hdigits.1, hdigits.2, hvalue⟩, fun h => h.2.2⟩
    · rw [if_neg hlt]
      refine iff_of_false (by simp) ?_
      rintro ⟨-, -, hvalue⟩
      exact hlt (hvalue ▸ n.toNat_lt)
  · rw [if_pos (by simpa [imp_iff_not_or] using hdigits)]
    refine iff_of_false (by simp) ?_
    rintro ⟨hne, hall, -⟩
    exact hdigits ⟨hne, hall⟩

theorem segment?_eq_some_iff {cs : List Char} {n : UInt32} :
    segment? cs = some n ↔ IsNumeral n cs := by
  constructor
  · intro h
    obtain ⟨left, right, hcs, hends⟩ := Text.exists_eq_trimBlank cs
    unfold segment? at h
    split at h
    next rest htrim =>
      rw [htrim] at hcs
      exact ⟨left, ['+'], rest, right, hcs, hends, .inr rfl, digits?_eq_some_iff.mp h⟩
    next => exact ⟨left, [], _, right, hcs, hends, .inl rfl, digits?_eq_some_iff.mp h⟩
  · rintro ⟨left, sign, digits, right, rfl, hends, hsign, hne, hall, hvalue⟩
    have hdigits : digits? digits = some n := digits?_eq_some_iff.mpr ⟨hne, hall, hvalue⟩
    have hcore : ∀ c ∈ sign ++ digits, Text.isBlank c = false := by
      intro c hc
      rcases List.mem_append.mp hc with hc | hc
      · rcases hsign with rfl | rfl
        · cases hc
        · rw [List.mem_singleton.mp hc]
          decide
      · exact Text.isBlank_of_isDigit (hall c hc)
    rw [segment?, Text.trimBlank_append hends hcore (by simp [hne])]
    rcases hsign with rfl | rfl
    · split
      next rest heq =>
        -- a plus sign is no digit
        have hplus : '+' ∈ digits := by
          rw [← List.nil_append digits, heq]
          exact List.mem_cons_self
        exact absurd (hall '+' hplus) (by decide)
      next => exact hdigits
    · exact hdigits

theorem mapM_segment?_eq_some_iff {parts : List (List Char)} {numbers : List UInt32} :
    parts.mapM segment? = some numbers ↔ List.Forall₂ IsNumeral numbers parts := by
  induction parts generalizing numbers with
  | nil => simp [List.forall₂_nil_right_iff, eq_comm]
  | cons part parts ih =>
    rw [List.mapM_cons, List.forall₂_cons_right_iff]
    simp only [Option.bind_eq_bind, Option.pure_def, Option.bind_eq_some_iff, Option.some_inj,
      segment?_eq_some_iff, ih]
    constructor
    · rintro ⟨n, hn, rest, hrest, rfl⟩
      exact ⟨n, rest, hn, hrest, rfl⟩
    · rintro ⟨n, rest, hn, hrest, rfl⟩
      exact ⟨n, hn, rest, hrest, rfl⟩

/-! ## Versions -/

/-- The text has these parts between points, up to a hyphen or the end. -/
def IsCut (cs : List Char) (parts : List (List Char)) : Prop :=
  ∃ tail, cs = ['.'].intercalate parts ++ tail ∧ parts ≠ [] ∧
    (∀ part ∈ parts, '.' ∉ part ∧ '-' ∉ part) ∧ (tail = [] ∨ ∃ x, tail = '-' :: x)

/-- The first three parts of the text are the numbers of the version, of which those that are
missing are zero. -/
def Names (cs : List Char) (v : ServerVersion) : Prop :=
  ∃ parts numbers, IsCut cs parts ∧ List.Forall₂ IsNumeral numbers (parts.take 3) ∧
    [v.major, v.minor, v.patch] = numbers ++ List.replicate (3 - numbers.length) 0

theorem exists_isCut (cs : List Char) : ∃ parts, IsCut cs parts := by
  obtain ⟨parts, hfront, hne, hparts⟩ := exists_parts '.' (cs.takeWhile (· != '-'))
  refine ⟨parts, cs.dropWhile (· != '-'), ?_, hne, fun part hpart => ?_, ?_⟩
  · rw [← hfront, List.takeWhile_append_dropWhile]
  · obtain ⟨hpoint, hfront⟩ := hparts part hpart
    refine ⟨hpoint, fun hhyphen => ?_⟩
    have himp := List.mem_takeWhile_imp (hfront hhyphen)
    simp at himp
  · cases htail : cs.dropWhile (· != '-') with
    | nil => exact .inl rfl
    | cons c tail =>
      have hhead := List.head?_dropWhile_not (· != '-') cs
      rw [htail] at hhead
      have hc : c = '-' := by simpa using hhead
      exact .inr ⟨tail, by rw [hc]⟩

theorem segments_eq {cs : List Char} {parts : List (List Char)} (h : IsCut cs parts) :
    segments cs = parts.take 3 := by
  obtain ⟨tail, rfl, hne, hparts, htail⟩ := h
  have hhyphen : '-' ∉ ['.'].intercalate parts :=
    notMem_intercalate (by decide) fun part hpart => (hparts part hpart).2
  have hfront : (['.'].intercalate parts ++ tail).takeWhile (· != '-') =
      ['.'].intercalate parts := by
    rw [List.takeWhile_append_of_pos]
    · rcases htail with rfl | ⟨x, rfl⟩
      · simp
      · simp
    · intro c hc
      simp only [bne_iff_ne]
      rintro rfl
      exact hhyphen hc
  rw [segments, hfront, List.splitOn_intercalate '.' (fun part hpart => (hparts part hpart).1) hne]

theorem ofNumbers_eq_iff {numbers : List UInt32} (h : numbers.length ≤ 3) {v : ServerVersion} :
    ofNumbers numbers = v ↔
      [v.major, v.minor, v.patch] = numbers ++ List.replicate (3 - numbers.length) 0 := by
  rcases v with ⟨major, minor, patch⟩
  match numbers with
  | [] | [_] | [_, _] | [_, _, _] => simp [ofNumbers, List.replicate, eq_comm]
  | _ :: _ :: _ :: _ :: _ =>
    simp only [List.length_cons] at h
    omega

/-- A version is read from a text exactly if the text names it. -/
theorem ofText?_eq_some_iff {s : String} {v : ServerVersion} :
    ofText? s = some v ↔ Names s.toList v := by
  have hlength {numbers : List UInt32} {parts : List (List Char)}
      (h : List.Forall₂ IsNumeral numbers (parts.take 3)) : numbers.length ≤ 3 := by
    rw [h.length_eq]
    exact List.length_take_le _ _
  unfold ofText?
  constructor
  · intro h
    obtain ⟨numbers, hnumbers, hv⟩ := Option.map_eq_some_iff.mp h
    obtain ⟨parts, hcut⟩ := exists_isCut s.toList
    rw [segments_eq hcut, mapM_segment?_eq_some_iff] at hnumbers
    exact ⟨parts, numbers, hcut, hnumbers, (ofNumbers_eq_iff (hlength hnumbers)).mp hv⟩
  · rintro ⟨parts, numbers, hcut, hnumbers, hv⟩
    rw [segments_eq hcut, mapM_segment?_eq_some_iff.mpr hnumbers]
    exact congrArg some ((ofNumbers_eq_iff (hlength hnumbers)).mpr hv)

/-! ## Plain texts -/

theorem isNumeral_chars (n : UInt32) : IsNumeral n (Digits.chars n.toNat) := by
  refine ⟨[], [], Digits.chars n.toNat, [], by simp, by simp, .inl rfl, Nat.toDigits_ne_nil, ?_,
    Digits.value_chars _⟩
  intro c hc
  exact Nat.isDigit_of_mem_toDigits (by decide) (by decide) hc

/-- The plain text of a version names it, whatever stands behind a hyphen. -/
theorem names_text (v : ServerVersion) {tail : List Char}
    (htail : tail = [] ∨ ∃ x, tail = '-' :: x) : Names (v.chars ++ tail) v := by
  let parts := [v.major, v.minor, v.patch].map fun n => Digits.chars n.toNat
  refine ⟨parts, [v.major, v.minor, v.patch], ⟨tail, ?_, by simp [parts], ?_, htail⟩, ?_, rfl⟩
  · simp [chars, parts, List.intercalate_cons_cons]
  · intro part hpart
    obtain ⟨n, -, rfl⟩ := List.mem_map.mp hpart
    exact ⟨Digits.notMem_chars (by decide) _, Digits.notMem_chars (by decide) _⟩
  · simp [parts, isNumeral_chars]

theorem ofText?_text (v : ServerVersion) : ofText? v.text = some v := by
  rw [ofText?_eq_some_iff, text, String.toList_ofList]
  simpa using v.names_text (.inl rfl)

theorem ofText?_text_append (v : ServerVersion) (x : String) :
    ofText? (v.text ++ "-" ++ x) = some v := by
  rw [ofText?_eq_some_iff, String.toList_append, String.toList_append, text, String.toList_ofList,
    List.append_assoc]
  exact v.names_text (.inr ⟨x.toList, rfl⟩)

/-! ## Where versions are read -/

variable {s : String}

theorem ofText?_eq_none_iff : ofText? s = none ↔ ∀ v, ¬ Names s.toList v := by
  rw [Option.eq_none_iff_forall_ne_some]
  simp only [ne_eq, ofText?_eq_some_iff]

/-- A text is refused as a whole where a parser is configured with it. -/
theorem ofConfig_eq_error_iff {config : Config} (h : config.serverVersion = some s)
    {e : DecodeError} : Parser.ofConfig config = .error e ↔
      (∀ v, ¬ Names s.toList v) ∧ e = .invalidServerVersion s := by
  rw [← ofText?_eq_none_iff, Parser.ofConfig, h]
  cases hversion : ofText? s with
  | none => simp [hversion, eq_comm]
  | some v => simp [hversion]

theorem ofConfig_eq_ok_iff {config : Config} (h : config.serverVersion = some s) {p : Parser} :
    Parser.ofConfig config = .ok p ↔
      ∃ v, Names s.toList v ∧ p = ⟨config.checksum, config.validateChecksum, some v⟩ := by
  simp only [← ofText?_eq_some_iff, Parser.ofConfig, h]
  cases hversion : ofText? s with
  | none => simp
  | some v => simp [eq_comm]

open FormatDescription in
/-- A text is refused as a whole where a format description holds it. -/
theorem read_of_unnamed {n : UInt16} {raw rest : Bytes} (hraw : raw.length = versionLength)
    (htext : trimNul raw = Utf8.encode s) (hno : ∀ v, ¬ Names s.toList v) :
    (FormatDescription.read : Reader Bytes DecodeError FormatDescription)
        (Bytes.ofNatLE 2 n.toNat ++ (raw ++ rest)) = .error (.invalidServerVersion s) rest := by
  have htake : (Reader.take versionLength : Reader Bytes DecodeError Bytes) (raw ++ rest) =
      .ok raw rest := Reader.take_eq_ok_iff.mpr ⟨hraw, rfl⟩
  have hdecode : (Reader.strictText (trimNul raw) : Reader Bytes DecodeError String) rest =
      .ok s rest := Reader.strictText_eq_ok_iff.mpr ⟨htext, rfl⟩
  rw [FormatDescription.read, Reader.bind_of_ok (Reader.u16_eq_ok_iff.mpr rfl),
    Reader.bind_of_ok htake, Reader.bind_of_ok hdecode, ofText?_eq_none_iff.mpr hno]
  rfl

/-- An accepted format description has the version that its text names. -/
theorem names_of_read {bs t : Bytes} {f : FormatDescription}
    (h : (FormatDescription.read : Reader Bytes DecodeError FormatDescription) bs = .ok f t) :
    Names f.serverVersion.toList f.version := by
  obtain ⟨hfits, -⟩ := FormatDescription.read_eq_ok_iff.mp h
  exact ofText?_eq_some_iff.mp hfits.version

/-! ## The main result -/

/-- **Versions.** A version is read from a text exactly if the text names it; a text that names none
is refused as a whole, in a configuration as well as in a format description. The plain text of a
version names that version, alone and with anything behind a hyphen, so writing the version that
was read from a text and reading that again changes nothing. -/
theorem names_exactly :
    (∀ (s : String) (v : ServerVersion), ofText? s = some v ↔ Names s.toList v) ∧
    (∀ (config : Config) (s : String), config.serverVersion = some s →
      (∀ p, Parser.ofConfig config = .ok p ↔
        ∃ v, Names s.toList v ∧ p = ⟨config.checksum, config.validateChecksum, some v⟩) ∧
      ∀ e, Parser.ofConfig config = .error e ↔
        (∀ v, ¬ Names s.toList v) ∧ e = .invalidServerVersion s) ∧
    (∀ (n : UInt16) (raw rest : Bytes) (s : String),
      raw.length = FormatDescription.versionLength →
        FormatDescription.trimNul raw = Utf8.encode s → (∀ v, ¬ Names s.toList v) →
          (FormatDescription.read : Reader Bytes DecodeError FormatDescription)
            (Bytes.ofNatLE 2 n.toNat ++ (raw ++ rest)) = .error (.invalidServerVersion s) rest) ∧
    (∀ (bs t : Bytes) (f : FormatDescription),
      (FormatDescription.read : Reader Bytes DecodeError FormatDescription) bs = .ok f t →
        Names f.serverVersion.toList f.version) ∧
    (∀ (v : ServerVersion) (x : String),
      ofText? v.text = some v ∧ ofText? (v.text ++ "-" ++ x) = some v) ∧
    ∀ (s : String) (v : ServerVersion), ofText? s = some v → ofText? v.text = some v := by
  refine ⟨fun s v => ofText?_eq_some_iff, ?_, ?_, ?_, ?_, ?_⟩
  · intro config s h
    exact ⟨fun p => ofConfig_eq_ok_iff h, fun e => ofConfig_eq_error_iff h⟩
  · intro n raw rest s hraw htext hno
    exact read_of_unnamed hraw htext hno
  · intro bs t f h
    exact names_of_read h
  · intro v x
    exact ⟨ofText?_text v, ofText?_text_append v x⟩
  · intro s v _
    exact ofText?_text v

/-- A text with blanks, a plus sign, zeros in front and a fourth part that is no number; then one
with an empty part, which is not a zero. -/
theorem names_exactly_empty_part :
    let raw : Bytes := [0x38, 0x2e, 0x2e, 0x31] ++ List.replicate 46 0
    Names " +008 .0.23.x-5".toList ⟨8, 0, 23⟩ ∧ ofText? "8.0.23" = some ⟨8, 0, 23⟩ ∧
      Parser.ofConfig { serverVersion := some "+8" } = .ok ⟨false, true, some ⟨8, 0, 0⟩⟩ ∧
      Parser.ofConfig { serverVersion := some "8..1" } = .error (.invalidServerVersion "8..1") ∧
      FormatDescription.trimNul raw = Utf8.encode "8..1" ∧
      (∀ v, ¬ Names "8..1".toList v) ∧
      (FormatDescription.read : Reader Bytes DecodeError FormatDescription)
        ([4, 0] ++ (raw ++ [7])) = .error (.invalidServerVersion "8..1") [7] := by
  intro raw
  obtain ⟨hnames, hconfig, hdescription, -, -, hplain⟩ := names_exactly
  have hcrooked : ofText? " +008 .0.23.x-5" = some ⟨8, 0, 23⟩ := by decide +kernel
  have hone : ofText? "+8" = some ⟨8, 0, 0⟩ := by decide +kernel
  have hno : ∀ v, ¬ Names "8..1".toList v := by
    intro v hv
    have hnone : ofText? "8..1" = none := by decide +kernel
    rw [(hnames _ v).mpr hv] at hnone
    cases hnone
  have htrim : FormatDescription.trimNul raw = Utf8.encode "8..1" := by decide +kernel
  have htext : ServerVersion.text ⟨8, 0, 23⟩ = "8.0.23" := by decide +kernel
  refine ⟨(hnames _ _).mp hcrooked, htext ▸ hplain _ _ hcrooked, ?_, ?_, htrim, hno, ?_⟩
  · exact ((hconfig _ "+8" rfl).1 _).mpr ⟨_, (hnames _ _).mp hone, rfl⟩
  · exact ((hconfig _ "8..1" rfl).2 _).mpr ⟨hno, rfl⟩
  · exact hdescription 4 raw [7] "8..1" rfl htrim hno

end ServerVersion

end Binlog
