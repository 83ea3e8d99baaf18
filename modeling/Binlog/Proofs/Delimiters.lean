import Binlog.Proofs.Stopping
import Binlog.Proofs.Writing

/-!
# Delimiters

A text of unknown length stands in front of a delimiter. `takeUntil` looks for the delimiter in all
that is ahead, `takeCString` for a NUL among as many bytes as the text may have.

**The first delimiter.** A run of bytes with a delimiter in it is a front without one, the delimiter
and a tail, in one way only. What is read depends on the front alone, and what is left is the tail,
whether the delimiter is wanted or not.

**The limit.** A NUL in front of the limit ends the text and is passed over. A NUL at the limit is
as good as none: the text has its greatest length, and the NUL stays ahead.

**Lists.** Each text that is read leaves the bytes exactly where the next one starts, so terminated
texts one behind the other are read in turn, with or without limits.

Main statement: `takes_first`.
-/

namespace Binlog.Reader

/-! ## Either source -/

section Sources

variable {α : Type} {r : (σ : Type) → [ByteSource σ] → Reader σ ReadError α}

/-- Over the bytes, and over every cursor that they are ahead of, the reader fails and stays where
it is. -/
def FailsInPlace (r : (σ : Type) → [ByteSource σ] → Reader σ ReadError α) (s : Bytes)
    (e : ReadError) : Prop :=
  r Bytes s = .error e s ∧ ∀ c : Cursor, c.remaining = s → r Cursor c = .error e c

theorem failsInPlace_of_alike {s : Bytes} {e : ReadError}
    (h : Cursor.Alike (r Cursor) (r Bytes)) (hrun : r Bytes s = .error e s) :
    FailsInPlace r s e := by
  refine ⟨hrun, fun c hahead => (Cursor.error_iff h).mpr ⟨rfl, ?_⟩⟩
  rw [hahead]
  exact hrun

end Sources

variable {ε : Type} [OfReadError ε]

theorem alike_takeUntil (b : UInt8) (inclusive : Bool) :
    Cursor.Alike (takeUntil b inclusive : Reader Cursor ε Bytes) (takeUntil b inclusive) :=
  fun buffer => .takeUntil (Cursor.simulation buffer fun _ => True.intro) True.intro b inclusive

theorem alike_takeCString (max : Nat) :
    Cursor.Alike (takeCString max : Reader Cursor ε Bytes) (takeCString max) :=
  fun buffer => .takeCString (Cursor.simulation buffer fun _ => True.intro) max

/-! ## One text -/

/-- What `takeCString` gives is a text without a NUL, and no longer than it may be. -/
theorem notMem_of_takeCString {s t bs : Bytes} {max : Nat}
    (h : (takeCString max : Reader Bytes ε Bytes) s = .ok bs t) : 0 ∉ bs ∧ bs.length ≤ max := by
  by_cases h0 : 0 ∈ s.take max
  · obtain ⟨front, tail, rfl, hfront, hmax⟩ := exists_append_cons_of_mem_take h0
    rw [takeCString_append_cons hfront hmax] at h
    cases h
    exact ⟨hfront, Nat.le_of_lt hmax⟩
  · rw [takeCString_of_notMem h0] at h
    obtain ⟨rfl, rfl⟩ := take_eq_ok_iff.mp h
    rw [List.take_left] at h0
    exact ⟨h0, Nat.le_refl _⟩

/-- Without a NUL in front of the limit, as many bytes are taken as the text may have. -/
theorem takeCString_of_le {s : Bytes} {max : Nat} (h0 : 0 ∉ s.take max) (hmax : max ≤ s.length) :
    (takeCString max : Reader Bytes ε Bytes) s = .ok (s.take max) (s.drop max) := by
  rw [takeCString_of_notMem h0, take_eq_ok_iff]
  exact ⟨List.length_take_of_le hmax, (List.take_append_drop max s).symm⟩

/-- Bytes that are too few and have no NUL in them are a text that is cut. -/
theorem takeCString_of_lt {s : Bytes} {max : Nat} (h0 : 0 ∉ s.take max) (hmax : s.length < max) :
    (takeCString max : Reader Bytes ε Bytes) s = .error (cut (max - s.length)) s := by
  rw [takeCString_of_notMem h0, take_eq_error_iff]
  exact ⟨hmax, rfl, rfl⟩

/-! ## Lists of texts -/

/-- The texts one behind the other, each with a NUL behind it. -/
def terminated (texts : List Bytes) : Bytes := texts.flatMap (· ++ [0])

theorem count_takeUntil_eq_ok_iff {s t : Bytes} {n : Nat} {texts : List Bytes} :
    count (takeUntil 0 false : Reader Bytes ε Bytes) n s = .ok texts t ↔
      texts.length = n ∧ (∀ text ∈ texts, 0 ∉ text) ∧ s = terminated texts ++ t := by
  have hitem (s t text : Bytes) : (takeUntil 0 false : Reader Bytes ε Bytes) s = .ok text t ↔
      ∃ front, s = front ++ t ∧ front = text ++ [0] ∧ 0 ∉ text := by
    rw [takeUntil_eq_ok_iff]
    simp [and_comm]
  rw [count_eq_ok_iff_rows hitem]
  refine and_congr_right fun _ => ?_
  simp only [Rows.eq_and_iff]
  refine ⟨?_, ?_⟩
  · rintro ⟨_, rfl, rfl, htexts⟩
    exact ⟨htexts, rfl⟩
  · rintro ⟨htexts, rfl⟩
    exact ⟨_, rfl, rfl, htexts⟩

/-- The limits are as many as the texts, and each is greater than the length of its text. -/
def Admits : (limits : List Nat) → (texts : List Bytes) → Prop :=
  List.Forall₂ fun limit text => text.length < limit

theorem mapM_takeCString {limits : List Nat} {texts : List Bytes} (h : Admits limits texts)
    (htexts : ∀ text ∈ texts, 0 ∉ text) (t : Bytes) :
    (limits.mapM takeCString : Reader Bytes ε (List Bytes)) (terminated texts ++ t) =
      .ok texts t := by
  induction h with
  | nil => rfl
  | @cons limit text limits texts hlimit _ ih =>
    rw [List.forall_mem_cons] at htexts
    have hfirst : (takeCString limit : Reader Bytes ε Bytes) (terminated (text :: texts) ++ t) =
        .ok text (terminated texts ++ t) := by
      have hfront := takeCString_append_cons (ε := ε) (t := terminated texts ++ t) htexts.1 hlimit
      simpa [terminated] using hfront
    rw [List.mapM_cons, bind_of_ok hfirst, bind_of_ok (ih htexts.2)]
    rfl

/-! ## The main result -/

section Scans

variable (u : Bytes)

theorem takeUntil_first {b : UInt8} (hb : b ∈ u) : ∃ front tail, u = front ++ b :: tail ∧
    b ∉ front ∧ ReadsOff (fun _ _ => takeUntil b false) (front ++ [b]) front tail ∧
      ReadsOff (fun _ _ => takeUntil b true) (front ++ [b]) (front ++ [b]) tail := by
  obtain ⟨front, tail, rfl, hfront⟩ := List.eq_append_cons_of_mem hb
  have hrun (inclusive : Bool) :
      (takeUntil b inclusive : Reader Bytes ReadError Bytes) (front ++ [b] ++ tail) =
        .ok (if inclusive then front ++ [b] else front) tail := by
    rw [List.append_assoc]
    exact takeUntil_append_cons hfront
  refine ⟨front, tail, rfl, hfront, ?_, ?_⟩
  · exact readsOff_of_alike (alike_takeUntil b false) (hrun false)
  · exact readsOff_of_alike (alike_takeUntil b true) (hrun true)

theorem takeCString_first {max : Nat} (h0 : 0 ∈ u.take max) : ∃ front tail,
    u = front ++ 0 :: tail ∧ 0 ∉ front ∧ front.length < max ∧
      ReadsOff (fun _ _ => takeCString max) (front ++ [0]) front tail := by
  obtain ⟨front, tail, rfl, hfront, hmax⟩ := exists_append_cons_of_mem_take h0
  refine ⟨front, tail, rfl, hfront, hmax, readsOff_of_alike (alike_takeCString max) ?_⟩
  rw [List.append_assoc]
  exact takeCString_append_cons hfront hmax

/-- **Delimiters.** A text up to a delimiter is read exactly if the delimiter is ahead, and then up
to the first one, which is passed over whether it is wanted or not. A text of a limited length ends
at the first NUL in front of the limit, which is passed over, or else at the limit; if there are
fewer bytes, those that are missing are told. What fails passes over nothing, and all of this holds
over either source. So texts without a NUL, each with a NUL behind it, are read in turn by either
reader, if the limits are greater than their lengths, and what stands behind them is left. -/
theorem takes_first :
    (∀ (b : UInt8) (inclusive : Bool),
      (∃ bs t, (takeUntil b inclusive : Reader Bytes ReadError Bytes) u = .ok bs t) ↔ b ∈ u) ∧
    (∀ b ∈ u, ∃ front tail, u = front ++ b :: tail ∧ b ∉ front ∧
      ReadsOff (fun _ _ => takeUntil b false) (front ++ [b]) front tail ∧
      ReadsOff (fun _ _ => takeUntil b true) (front ++ [b]) (front ++ [b]) tail) ∧
    (∀ b ∉ u, ∀ inclusive : Bool,
      FailsInPlace (fun _ _ => takeUntil b inclusive) u (.incomplete .unknown)) ∧
    (∀ max, 0 ∈ u.take max → ∃ front tail, u = front ++ 0 :: tail ∧ 0 ∉ front ∧
      front.length < max ∧ ReadsOff (fun _ _ => takeCString max) (front ++ [0]) front tail) ∧
    (∀ max, 0 ∉ u.take max → max ≤ u.length →
      ReadsOff (fun _ _ => takeCString max) (u.take max) (u.take max) (u.drop max)) ∧
    (∀ max, 0 ∉ u.take max → u.length < max →
      FailsInPlace (fun _ _ => takeCString max) u (.incomplete (.size (max - u.length)))) ∧
    (∀ max bs t, (takeCString max : Reader Bytes ReadError Bytes) u = .ok bs t →
      0 ∉ bs ∧ bs.length ≤ max) ∧
    ∀ (texts : List Bytes) (tail : Bytes), (∀ text ∈ texts, 0 ∉ text) →
      ReadsOff (fun _ _ => count (takeUntil 0 false) texts.length) (terminated texts) texts tail ∧
      ∀ limits, Admits limits texts →
        ReadsOff (fun _ _ => limits.mapM takeCString) (terminated texts) texts tail := by
  refine ⟨fun b inclusive => ⟨fun ⟨bs, t, h⟩ => ?_, fun hb => ?_⟩, fun b => takeUntil_first u,
    fun b hb inclusive => ?_, fun max => takeCString_first u, fun max h0 hmax => ?_,
    fun max h0 hmax => ?_, fun max bs t => notMem_of_takeCString, fun texts tail htexts => ?_⟩
  · by_cases hb : b ∈ u
    · exact hb
    · rw [takeUntil_of_notMem hb] at h
      cases h
  · obtain ⟨front, tail, rfl, hfront⟩ := List.eq_append_cons_of_mem hb
    exact ⟨_, tail, takeUntil_append_cons hfront⟩
  · exact failsInPlace_of_alike (alike_takeUntil b inclusive) (takeUntil_of_notMem hb)
  · refine readsOff_of_alike (alike_takeCString max) ?_
    rw [List.take_append_drop]
    exact takeCString_of_le h0 hmax
  · exact failsInPlace_of_alike (alike_takeCString max) (takeCString_of_lt h0 hmax)
  · refine ⟨readsOff_of_alike (fun buffer => ?_) (count_takeUntil_eq_ok_iff.mpr ?_), ?_⟩
    · exact (alike_takeUntil 0 false buffer).count _
    · exact ⟨rfl, htexts, rfl⟩
    · intro limits hlimits
      exact readsOff_of_alike (.mapM alike_takeCString limits)
        (mapM_takeCString hlimits htexts tail)

end Scans

/-- A NUL in front of the limit, at it, and none in too few bytes; then a list with an empty text
in it, of which each limit is the least. -/
theorem takes_first_at_limits :
    let s : Bytes := [97, 98, 0, 99, 0]
    let texts : List Bytes := [[97, 98], [], [99]]
    (0 ∈ s.take 3 ∧ ∃ front tail, s = front ++ 0 :: tail ∧ 0 ∉ front ∧ front.length < 3 ∧
      ReadsOff (fun _ _ => takeCString 3) (front ++ [0]) front tail) ∧
    (0 ∉ s.take 2 ∧ ReadsOff (fun _ _ => takeCString 2) [97, 98] [97, 98] [0, 99, 0]) ∧
    (7 ∉ s ∧ FailsInPlace (fun _ _ => takeUntil 7 true) s (.incomplete .unknown)) ∧
    (0 ∉ List.take 5 ([97, 98] : Bytes) ∧
      FailsInPlace (fun _ _ => takeCString 5) [97, 98] (.incomplete (.size 3))) ∧
    ((∀ text ∈ texts, 0 ∉ text) ∧ Admits [3, 1, 2] texts ∧
      ReadsOff (fun _ _ => count (takeUntil 0 false) 3) [97, 98, 0, 0, 99, 0] texts [0] ∧
      ReadsOff (fun _ _ => [3, 1, 2].mapM takeCString) [97, 98, 0, 0, 99, 0] texts [0]) := by
  intro s texts
  obtain ⟨-, -, habsent, hbefore, hat, -, -, hlists⟩ := takes_first s
  obtain ⟨-, -, -, -, -, hshort, -⟩ := takes_first [97, 98]
  have hadmits : Admits [3, 1, 2] texts := by simp [Admits, texts]
  have htexts : ∀ text ∈ texts, 0 ∉ text := by decide
  obtain ⟨huntil, hcstring⟩ := hlists texts [0] htexts
  refine ⟨⟨by decide, hbefore 3 (by decide)⟩, ⟨by decide, hat 2 (by decide) (by decide)⟩,
    ⟨by decide, habsent 7 (by decide) true⟩,
    ⟨by decide, hshort 5 (by decide) (by decide)⟩, htexts, hadmits, huntil, hcstring _ hadmits⟩

end Binlog.Reader
