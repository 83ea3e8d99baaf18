import Binlog.Event.Gtid
import Binlog.Event.Mariadb
import Binlog.Text.Base64

/-!
# Texts that determine their values

Different values have different texts: numbers as digits, bytes as hexadecimal digits or base64, and
the ids and sets of transactions.

**Separators.** Parts are joined by a character that none of them contains, so splitting the text at
the character gives the parts back (`intercalate_inj`). The same character may stand for something
else further in: the hyphens of a source id are no ends of an interval, and the sign of a negative
start is a hyphen too. Each level is split at a character of its own, and a sign makes one part
more, so no text is ambiguous.

Main statements: `Gtid.text_inj`, `DomainGtid.text_inj`, `GtidSet.text_inj` and `Base64.text_inj`.
-/

namespace Binlog

/-! ## Separators -/

section Separators

variable {c d : Char} {ls ms : List (List Char)}

/-- Parts without the separator are determined by the text that joins them. -/
theorem intercalate_inj (hls : ∀ l ∈ ls, c ∉ l) (hms : ∀ m ∈ ms, c ∉ m) (hls' : ls ≠ [])
    (hms' : ms ≠ []) : [c].intercalate ls = [c].intercalate ms ↔ ls = ms := by
  refine ⟨fun h => ?_, congrArg _⟩
  rw [← List.splitOn_intercalate c hls hls', h, List.splitOn_intercalate c hms hms']

/-- Texts that join parts are the same just when their parts are. -/
theorem joined_inj {α : Type} {chars : α → List Char} {parts : α → List (List Char)}
    (hchars : ∀ a, chars a = [c].intercalate (parts a)) (hparts : ∀ a, ∀ part ∈ parts a, c ∉ part)
    (hne : ∀ a, parts a ≠ []) {a b : α} : chars a = chars b ↔ parts a = parts b := by
  rw [hchars, hchars, intercalate_inj (hparts a) (hparts b) (hne a) (hne b)]

/-- There may be no parts at all, if none of them is empty. -/
theorem intercalate_inj_of_ne_nil (hls : ∀ l ∈ ls, c ∉ l) (hms : ∀ m ∈ ms, c ∉ m)
    (hls' : [] ∉ ls) (hms' : [] ∉ ms) : [c].intercalate ls = [c].intercalate ms ↔ ls = ms := by
  have hnil {ns : List (List Char)} (hns : ∀ n ∈ ns, c ∉ n) (hns' : [] ∉ ns)
      (h : [] = [c].intercalate ns) : ns = [] := by
    by_cases hne : ns = []
    · exact hne
    · have hsplit := List.splitOn_intercalate c hns hne
      rw [← h, List.splitOn_nil] at hsplit
      rw [← hsplit] at hns'
      exact absurd List.mem_cons_self hns'
  refine ⟨fun h => ?_, congrArg _⟩
  by_cases hl : ls = []
  · rw [hl, List.intercalate_nil] at h
    rw [hl, hnil hms hms' h]
  · by_cases hm : ms = []
    · rw [hm, List.intercalate_nil] at h
      exact absurd (hnil hls hls' h.symm) hl
    · exact (intercalate_inj hls hms hl hm).mp h

theorem notMem_intercalate (hd : d ≠ c) (hls : ∀ l ∈ ls, d ∉ l) : d ∉ [c].intercalate ls := by
  induction ls with
  | nil => exact List.not_mem_nil
  | cons l ls ih =>
    have hl := hls l List.mem_cons_self
    have hrest := ih fun m hm => hls m (List.mem_cons_of_mem _ hm)
    cases ls with
    | nil => rwa [List.intercalate_singleton]
    | cons m ls =>
      rw [List.intercalate_cons_cons]
      simp only [List.mem_append, List.mem_singleton, not_or]
      exact ⟨⟨hl, hd⟩, hrest⟩

end Separators

/-! ## Digits -/

namespace Digits

theorem value_chars (n : Nat) : value (chars n) = n := Nat.ofDigitChars_ten_toDigits

theorem chars_inj {n m : Nat} : chars n = chars m ↔ n = m := by
  refine ⟨fun h => ?_, congrArg _⟩
  rw [← value_chars n, h, value_chars]

theorem notMem_chars {c : Char} (hc : c.isDigit = false) (n : Nat) : c ∉ chars n := by
  intro h
  rw [Nat.isDigit_of_mem_toDigits (by decide) (by decide) h] at hc
  cases hc

/-- What stands between the hyphens of an integer: behind the sign of a negative one, the part in
front of which is empty. -/
def signedParts : Int → List (List Char)
  | .ofNat n => [chars n]
  | .negSucc n => [[], chars (n + 1)]

theorem signed_eq (n : Int) : signed n = ['-'].intercalate (signedParts n) := by
  cases n with
  | ofNat n => simp [signed, signedParts]
  | negSucc n => simp [signed, signedParts, List.intercalate_cons_cons]

theorem signedParts_inj {n m : Int} : signedParts n = signedParts m ↔ n = m := by
  refine ⟨fun h => ?_, congrArg _⟩
  cases n with
  | ofNat n =>
    cases m with
    | ofNat m => rw [chars_inj.mp (List.cons.inj h).1]
    | negSucc m => simp [signedParts] at h
  | negSucc n =>
    cases m with
    | ofNat m => simp [signedParts] at h
    | negSucc m =>
      have hchars := chars_inj.mp (List.cons.inj (List.cons.inj h).2).1
      rw [Nat.add_right_cancel hchars]

theorem notMem_of_mem_signedParts {c : Char} (hc : c.isDigit = false) (n : Int) :
    ∀ part ∈ signedParts n, c ∉ part := by
  cases n with
  | ofNat n => simp [signedParts, notMem_chars hc]
  | negSucc n => simp [signedParts, notMem_chars hc]

theorem notMem_signed {c : Char} (hc : c.isDigit = false) (hsign : c ≠ '-') (n : Int) :
    c ∉ signed n := by
  rw [signed_eq]
  exact notMem_intercalate hsign (notMem_of_mem_signedParts hc n)

end Digits

/-! ## Hexadecimal digits -/

namespace Hex

theorem digit_inj {n m : Nat} : digit n = digit m ↔ n % 16 = m % 16 := by
  have hdigit : ∀ i < 16, ∀ j < 16, Nat.digitChar i = Nat.digitChar j → i = j := by decide
  exact ⟨hdigit _ (Nat.mod_lt n (by decide)) _ (Nat.mod_lt m (by decide)),
    fun h => congrArg Nat.digitChar h⟩

theorem ofByte_inj {a b : UInt8} : ofByte a = ofByte b ↔ a = b := by
  refine ⟨fun h => ?_, congrArg _⟩
  simp only [ofByte, List.cons.injEq, digit_inj, and_true] at h
  have ha := a.toNat_lt
  have hb := b.toNat_lt
  exact UInt8.toNat_inj.mp (by omega)

theorem length_chars (bs : Bytes) : (chars bs).length = 2 * bs.length := by
  induction bs with
  | nil => rfl
  | cons b bs ih =>
    rw [chars, List.flatMap_cons, List.length_append, ← chars, ih, List.length_cons]
    simp only [ofByte, List.length_cons, List.length_nil]
    omega

theorem chars_inj {bs bs' : Bytes} : chars bs = chars bs' ↔ bs = bs' := by
  refine ⟨fun h => ?_, congrArg _⟩
  induction bs generalizing bs' with
  | nil =>
    have hlen := congrArg List.length h
    rw [length_chars, length_chars, List.length_nil] at hlen
    exact (List.eq_nil_of_length_eq_zero (by omega)).symm
  | cons b bs ih =>
    cases bs' with
    | nil => cases h
    | cons b' bs' =>
      obtain ⟨hb, hbs⟩ := List.append_inj h rfl
      rw [ofByte_inj.mp hb, ih hbs]

theorem notMem_chars {c : Char} (hc : ∀ n < 16, Nat.digitChar n ≠ c) (bs : Bytes) :
    c ∉ chars bs := by
  intro h
  obtain ⟨b, -, hb⟩ := List.mem_flatMap.mp h
  simp only [ofByte, digit, List.mem_cons, List.not_mem_nil, or_false] at hb
  obtain rfl | rfl := hb
  · exact hc _ (Nat.mod_lt _ (by decide)) rfl
  · exact hc _ (Nat.mod_lt _ (by decide)) rfl

end Hex

/-! ## Ids of transactions -/

namespace SourceId

/-- The groups of digits between the hyphens. -/
def parts (id : SourceId) : List (List Char) :=
  let cs := Hex.chars id.encode
  [cs.take 8, (cs.drop 8).take 4, (cs.drop 12).take 4, (cs.drop 16).take 4, cs.drop 20]

theorem flatten_parts (id : SourceId) : id.parts.flatten = Hex.chars id.encode := by
  have split (n m : Nat) (cs : List Char) : (cs.drop n).take m ++ cs.drop (n + m) = cs.drop n := by
    rw [← List.drop_drop, List.take_append_drop]
  simp only [parts, List.flatten_cons, List.flatten_nil, List.append_nil]
  rw [split 16 4, split 12 4, split 8 4, List.take_append_drop]

theorem chars_eq (id : SourceId) : id.chars = ['-'].intercalate id.parts := by
  simp [chars, parts, List.intercalate_cons_cons]

theorem encode_inj {id id' : SourceId} : id.encode = id'.encode ↔ id = id' := by
  refine ⟨fun h => ?_, congrArg _⟩
  have hvalue (id : SourceId) : NumberFormat.decode (.big 16) id.encode = id.value.toNat :=
    NumberFormat.decode_encode (.big 16) _ id.value.isLt
  cases id
  cases id'
  congr
  exact BitVec.eq_of_toNat_eq (by rw [← hvalue ⟨_⟩, h, hvalue])

theorem notMem_of_mem_parts {id : SourceId} {c : Char} (hc : ∀ n < 16, Nat.digitChar n ≠ c) :
    ∀ part ∈ id.parts, c ∉ part := fun part hpart hmem =>
  Hex.notMem_chars hc id.encode
    (id.flatten_parts ▸ List.mem_flatten.mpr ⟨part, hpart, hmem⟩)

theorem chars_inj {id id' : SourceId} : id.chars = id'.chars ↔ id = id' := by
  refine ⟨fun h => ?_, congrArg _⟩
  rw [joined_inj chars_eq (fun _ => notMem_of_mem_parts (by decide))
    fun _ => List.cons_ne_nil _ _] at h
  rw [← encode_inj, ← Hex.chars_inj, ← flatten_parts, h, flatten_parts]

theorem notMem_chars {c : Char} (hc : ∀ n < 16, Nat.digitChar n ≠ c) (hhyphen : c ≠ '-')
    (id : SourceId) : c ∉ id.chars := by
  rw [chars_eq]
  exact notMem_intercalate hhyphen (notMem_of_mem_parts hc)

end SourceId

namespace Gtid

/-- What stands on either side of the colon: the source id and the number. -/
def parts (g : Gtid) : List (List Char) := [g.source.chars, Digits.chars g.number.toNat]

theorem text_eq (g : Gtid) : g.text = .ofList ([':'].intercalate g.parts) := by
  simp [text, parts, List.intercalate_cons_cons]

theorem notMem_of_mem_parts (g : Gtid) : ∀ part ∈ g.parts, ':' ∉ part := by
  simp only [parts, List.mem_cons, List.not_mem_nil, or_false, forall_eq_or_imp, forall_eq]
  exact ⟨g.source.notMem_chars (by decide) (by decide), Digits.notMem_chars (by decide) _⟩

theorem text_inj {g g' : Gtid} : g.text = g'.text ↔ g = g' := by
  refine ⟨fun h => ?_, congrArg _⟩
  rw [text_eq, text_eq, String.ofList_inj,
    joined_inj (fun _ => rfl) notMem_of_mem_parts fun _ => List.cons_ne_nil _ _] at h
  simp only [parts, List.cons.injEq, SourceId.chars_inj, Digits.chars_inj, UInt64.toNat_inj,
    and_true] at h
  cases g
  cases g'
  exact (mk.injEq ..).mpr h

end Gtid

namespace DomainGtid

/-- The digits between the hyphens. -/
def parts (g : DomainGtid) : List (List Char) :=
  [Digits.chars g.domain.toNat, Digits.chars g.server.toNat, Digits.chars g.sequence.toNat]

theorem chars_eq (g : DomainGtid) : g.chars = ['-'].intercalate g.parts := by
  simp [chars, parts, List.intercalate_cons_cons]

theorem notMem_of_mem_parts (g : DomainGtid) : ∀ part ∈ g.parts, '-' ∉ part := by
  simp only [parts, List.mem_cons, List.not_mem_nil, or_false, forall_eq_or_imp, forall_eq]
  exact ⟨Digits.notMem_chars (by decide) _, Digits.notMem_chars (by decide) _,
    Digits.notMem_chars (by decide) _⟩

theorem text_inj {g g' : DomainGtid} : g.text = g'.text ↔ g = g' := by
  refine ⟨fun h => ?_, congrArg _⟩
  rw [text, text, String.ofList_inj,
    joined_inj chars_eq notMem_of_mem_parts fun _ => List.cons_ne_nil _ _] at h
  simp only [parts, List.cons.injEq, Digits.chars_inj, UInt32.toNat_inj, UInt64.toNat_inj,
    and_true] at h
  cases g
  cases g'
  exact (mk.injEq ..).mpr h

end DomainGtid

/-! ## Sets of transactions -/

namespace GtidInterval

/-- What stands between the hyphens: the start, with its sign, and the end. -/
def parts (i : GtidInterval) : List (List Char) :=
  Digits.signedParts i.start.toInt ++ [Digits.chars i.stop.toNat]

theorem chars_eq (i : GtidInterval) : i.chars = ['-'].intercalate i.parts := by
  rw [chars, parts, Digits.signed_eq]
  cases i.start.toInt <;> simp [Digits.signedParts, List.intercalate_cons_cons]

theorem notMem_of_mem_parts (i : GtidInterval) : ∀ part ∈ i.parts, '-' ∉ part := by
  intro part hpart
  rw [parts, List.mem_append, List.mem_singleton] at hpart
  obtain hpart | rfl := hpart
  · exact Digits.notMem_of_mem_signedParts (by decide) _ part hpart
  · exact Digits.notMem_chars (by decide) _

theorem chars_inj {i i' : GtidInterval} : i.chars = i'.chars ↔ i = i' := by
  refine ⟨fun h => ?_, congrArg _⟩
  rw [joined_inj chars_eq notMem_of_mem_parts fun _ => by simp [parts]] at h
  obtain ⟨hstart, hstop⟩ := List.append_inj' h rfl
  simp only [List.cons.injEq, Digits.chars_inj, UInt64.toNat_inj, and_true] at hstop
  rw [Digits.signedParts_inj, Int64.toInt_inj] at hstart
  cases i
  cases i'
  exact (mk.injEq ..).mpr ⟨hstart, hstop⟩

theorem notMem_chars {c : Char} (hc : c.isDigit = false) (hhyphen : c ≠ '-') (i : GtidInterval) :
    c ∉ i.chars := by
  rw [chars, List.mem_append, List.mem_cons, not_or, not_or]
  exact ⟨Digits.notMem_signed hc hhyphen _, hhyphen, Digits.notMem_chars hc _⟩

end GtidInterval

namespace GtidSet

/-- What stands between the colons: the source id and the intervals. -/
def groupParts (group : GtidGroup) : List (List Char) :=
  group.1.chars :: group.2.map GtidInterval.chars

theorem groupChars_eq (group : GtidGroup) :
    groupChars group = [':'].intercalate (groupParts group) := by
  have joined (part : List Char) (is : List GtidInterval) :
      part ++ is.flatMap (fun i => ':' :: i.chars) =
        [':'].intercalate (part :: is.map GtidInterval.chars) := by
    induction is generalizing part with
    | nil => simp
    | cons i is ih =>
      rw [List.map_cons, List.intercalate_cons_cons, ← ih, List.flatMap_cons]
      simp
  exact joined group.1.chars group.2

theorem notMem_of_mem_groupParts {c : Char} (hhex : ∀ n < 16, Nat.digitChar n ≠ c)
    (hdigit : c.isDigit = false) (hhyphen : c ≠ '-') (group : GtidGroup) :
    ∀ part ∈ groupParts group, c ∉ part := by
  intro part hpart
  rw [groupParts, List.mem_cons, List.mem_map] at hpart
  obtain rfl | ⟨i, -, rfl⟩ := hpart
  · exact group.1.notMem_chars hhex hhyphen
  · exact i.notMem_chars hdigit hhyphen

theorem groupChars_inj {group group' : GtidGroup} :
    groupChars group = groupChars group' ↔ group = group' := by
  refine ⟨fun h => ?_, congrArg _⟩
  rw [joined_inj groupChars_eq
    (notMem_of_mem_groupParts (by decide) (by decide) (by decide))
    fun _ => List.cons_ne_nil _ _] at h
  obtain ⟨hsource, hintervals⟩ := List.cons.inj h
  exact Prod.ext (SourceId.chars_inj.mp hsource)
    ((List.map_inj_right fun _ _ => GtidInterval.chars_inj.mp).mp hintervals)

theorem notMem_groupChars (group : GtidGroup) : ',' ∉ groupChars group := by
  rw [groupChars_eq]
  exact notMem_intercalate (by decide)
    (notMem_of_mem_groupParts (by decide) (by decide) (by decide) group)

theorem groupChars_ne_nil (group : GtidGroup) : groupChars group ≠ [] := by
  simp [groupChars, SourceId.chars]

theorem text_inj {s s' : GtidSet} : s.text = s'.text ↔ s = s' := by
  refine ⟨fun h => ?_, congrArg _⟩
  have hcomma (s : GtidSet) : ∀ cs ∈ s.groups.map groupChars, ',' ∉ cs := by
    intro cs hcs
    obtain ⟨group, -, rfl⟩ := List.mem_map.mp hcs
    exact notMem_groupChars group
  have hnil (s : GtidSet) : [] ∉ s.groups.map groupChars := by
    intro hmem
    obtain ⟨group, -, hgroup⟩ := List.mem_map.mp hmem
    exact groupChars_ne_nil group hgroup
  rw [text, text, String.ofList_inj, chars, chars,
    intercalate_inj_of_ne_nil (hcomma s) (hcomma s') (hnil s) (hnil s'),
    List.map_inj_right fun _ _ => groupChars_inj.mp] at h
  cases s
  cases s'
  exact (mk.injEq ..).mpr h

end GtidSet

/-! ## Base64 -/

namespace Base64

/-- The place of a digit in the alphabet is the number that it stands for. -/
theorem idxOf_digit (n : Nat) : alphabet.idxOf (digit n) = n % 64 := by
  have hdigit : ∀ i < 64, alphabet.idxOf (alphabet.getD i '=') = i := by decide +kernel
  exact hdigit _ (Nat.mod_lt n (by decide))

theorem digit_inj {n m : Nat} : digit n = digit m ↔ n % 64 = m % 64 := by
  refine ⟨fun h => ?_, fun h => congrArg (alphabet.getD · '=') h⟩
  rw [← idxOf_digit, h, idxOf_digit]

theorem digit_ne_filler (n : Nat) : digit n ≠ '=' := by
  have hfiller : alphabet.idxOf '=' = 64 := by decide +kernel
  intro h
  have hn := idxOf_digit n
  rw [h, hfiller] at hn
  omega

theorem chars_inj {bs bs' : Bytes} : chars bs = chars bs' ↔ bs = bs' := by
  refine ⟨fun h => ?_, congrArg _⟩
  -- along the groups of three bytes; a shorter group ends in fillers, which are no digits
  induction bs using chars.induct generalizing bs' with
  | case1 =>
    match bs' with
    | [] => rfl
    | [_] | [_, _] | _ :: _ :: _ :: _ => simp [chars] at h
  | case2 a =>
    match bs' with
    | [a'] =>
      simp only [chars, List.cons.injEq, digit_inj, and_true] at h
      have ha := a.toNat_lt
      have ha' := a'.toNat_lt
      rw [UInt8.toNat_inj.mp (show a.toNat = a'.toNat by omega)]
    | [] | [_, _] | _ :: _ :: _ :: _ => simp [chars, (digit_ne_filler _).symm] at h
  | case3 a b =>
    match bs' with
    | [a', b'] =>
      simp only [chars, List.cons.injEq, digit_inj, and_true] at h
      have ha := a.toNat_lt
      have ha' := a'.toNat_lt
      have hb := b.toNat_lt
      have hb' := b'.toNat_lt
      rw [UInt8.toNat_inj.mp (show a.toNat = a'.toNat by omega),
        UInt8.toNat_inj.mp (show b.toNat = b'.toNat by omega)]
    | [] | [_] | _ :: _ :: _ :: _ => simp [chars, digit_ne_filler, (digit_ne_filler _).symm] at h
  | case4 a b c rest ih =>
    match bs' with
    | a' :: b' :: c' :: rest' =>
      simp only [chars, List.cons.injEq, digit_inj] at h
      obtain ⟨h₁, h₂, h₃, h₄, hrest⟩ := h
      have ha := a.toNat_lt
      have ha' := a'.toNat_lt
      have hb := b.toNat_lt
      have hb' := b'.toNat_lt
      have hc := c.toNat_lt
      have hc' := c'.toNat_lt
      rw [UInt8.toNat_inj.mp (show a.toNat = a'.toNat by omega),
        UInt8.toNat_inj.mp (show b.toNat = b'.toNat by omega),
        UInt8.toNat_inj.mp (show c.toNat = c'.toNat by omega), ih hrest]
    | [] | [_] | [_, _] => simp [chars, digit_ne_filler] at h

theorem text_inj {bs bs' : Bytes} : text bs = text bs' ↔ bs = bs' := by
  rw [text, text, String.ofList_inj, chars_inj]

end Base64

end Binlog
