import Binlog.Proofs.Cursors

/-!
# Writing and reading back

Numbers that are written one behind the other are read back in the same order by the readers of
their formats, and nothing else is read as them: a run of bytes is read as a list of values exactly
if it starts with what writing these values appends (`WriteStep.mapM_matching_eq_ok_iff`).

**Fits.** A value that is too large for its format loses its high bytes when it is written, and a
byte from 251 on is read as a tag. All other values fit (`WriteStep.Fits`).

Main statement: `WriteStep.write_read_inverse`.
-/

namespace Binlog

open Reader

/-! ## Length-encoded integers -/

/-- The form is read back as it is: its one byte is no tag, and its three bytes hold the number. -/
def LenEncInt.Fits : LenEncInt → Prop
  | len1 n => n < 0xfb
  | len4 n => n.toNat < 256 ^ 3
  | _ => True

instance : (n : LenEncInt) → Decidable n.Fits
  | .len1 n => inferInstanceAs (Decidable (n < 0xfb))
  | .len4 n => inferInstanceAs (Decidable (n.toNat < 256 ^ 3))
  | .null | .err | .len3 _ | .len9 _ => inferInstanceAs (Decidable True)

namespace Reader

variable {ε : Type} [OfReadError ε] {s t : Bytes}

theorem u24_eq_ok_iff {n : UInt32} : (u24 : Reader Bytes ε UInt32) s = .ok n t ↔
    n.toNat < 256 ^ 3 ∧ s = Bytes.ofNatLE 3 n.toNat ++ t := by
  refine word_eq_ok_iff (fun _ => UInt32.ofNat_toNat) fun n hn => UInt32.toNat_ofNat_of_lt' ?_
  exact Nat.lt_trans hn (by decide)

theorem u56_eq_ok_iff {n : UInt64} : (u56 : Reader Bytes ε UInt64) s = .ok n t ↔
    n.toNat < 256 ^ 7 ∧ s = Bytes.ofNatLE 7 n.toNat ++ t := by
  refine word_eq_ok_iff (fun _ => UInt64.ofNat_toNat) fun n hn => UInt64.toNat_ofNat_of_lt' ?_
  exact Nat.lt_trans hn (by decide)

/-- A length-encoded integer is read exactly from its written form. -/
theorem lenEncInt_eq_ok_iff {n : LenEncInt} :
    (lenEncInt : Reader Bytes ε LenEncInt) s = .ok n t ↔ n.Fits ∧ s = n.encode ++ t := by
  simp only [lenEncInt, bind_eq_ok_iff, u8_eq_ok_iff]
  refine ⟨?_, ?_⟩
  · rintro ⟨tag, u, rfl, h⟩
    split at h
    · obtain ⟨rfl, rfl⟩ := pure_eq_ok_iff.mp h
      exact ⟨True.intro, rfl⟩
    · obtain ⟨m, _, hm, hn⟩ := bind_eq_ok_iff.mp h
      obtain ⟨rfl, rfl⟩ := pure_eq_ok_iff.mp hn
      exact ⟨True.intro, congrArg (List.cons 0xfc) (u16_eq_ok_iff.mp hm)⟩
    · obtain ⟨m, _, hm, hn⟩ := bind_eq_ok_iff.mp h
      obtain ⟨rfl, rfl⟩ := pure_eq_ok_iff.mp hn
      obtain ⟨hlt, rfl⟩ := u24_eq_ok_iff.mp hm
      exact ⟨hlt, rfl⟩
    · obtain ⟨m, _, hm, hn⟩ := bind_eq_ok_iff.mp h
      obtain ⟨rfl, rfl⟩ := pure_eq_ok_iff.mp hn
      exact ⟨True.intro, congrArg (List.cons 0xfe) (u64_eq_ok_iff.mp hm)⟩
    · obtain ⟨rfl, rfl⟩ := pure_eq_ok_iff.mp h
      exact ⟨True.intro, rfl⟩
    next hnull hlen3 hlen4 hlen9 herr =>
      obtain ⟨rfl, rfl⟩ := pure_eq_ok_iff.mp h
      refine ⟨?_, rfl⟩
      -- the five tags are the bytes from 251 on
      have hbyte := tag.toNat_lt
      simp only [← UInt8.toNat_inj, UInt8.reduceToNat, imp_false] at hnull hlen3 hlen4 hlen9 herr
      have hlow : tag.toNat < 251 := by omega
      exact UInt8.lt_iff_toNat_lt.mpr hlow
  · rintro ⟨hfits, rfl⟩
    cases n with
    | null => exact ⟨0xfb, t, rfl, rfl⟩
    | err => exact ⟨0xff, t, rfl, rfl⟩
    | len1 n =>
      refine ⟨n, t, rfl, ?_⟩
      split
      iterate 5 exact absurd hfits (by decide)
      rfl
    | len3 n =>
      have hn : (u16 : Reader Bytes ε UInt16) (Bytes.ofNatLE 2 n.toNat ++ t) = .ok n t :=
        u16_eq_ok_iff.mpr rfl
      exact ⟨0xfc, _, rfl, bind_eq_ok_iff.mpr ⟨n, t, hn, rfl⟩⟩
    | len4 n =>
      have hn : (u24 : Reader Bytes ε UInt32) (Bytes.ofNatLE 3 n.toNat ++ t) = .ok n t :=
        u24_eq_ok_iff.mpr ⟨hfits, rfl⟩
      exact ⟨0xfd, _, rfl, bind_eq_ok_iff.mpr ⟨n, t, hn, rfl⟩⟩
    | len9 n =>
      have hn : (u64 : Reader Bytes ε UInt64) (Bytes.ofNatLE 8 n.toNat ++ t) = .ok n t :=
        u64_eq_ok_iff.mpr rfl
      exact ⟨0xfe, _, rfl, bind_eq_ok_iff.mpr ⟨n, t, hn, rfl⟩⟩

end Reader

/-! ## Either source -/

/-- Over bytes that start with the front, and over every cursor that they are ahead of, the reader
gives the value and passes over the front. -/
def Reader.ReadsOff {α : Type} (r : (σ : Type) → [ByteSource σ] → Reader σ ReadError α)
    (front : Bytes) (a : α) (tail : Bytes) : Prop :=
  r Bytes (front ++ tail) = .ok a tail ∧
    ∀ c : Cursor, c.remaining = front ++ tail → ∃ c', r Cursor c = .ok a c' ∧
      c.MovesBy front.length c'

theorem Reader.readsOff_of_alike {α : Type}
    {r : (σ : Type) → [ByteSource σ] → Reader σ ReadError α} {front tail : Bytes} {a : α}
    (h : Cursor.Alike (r Cursor) (r Bytes)) (hrun : r Bytes (front ++ tail) = .ok a tail) :
    ReadsOff r front a tail :=
  ⟨hrun, fun _ hahead => h.exists_movesBy hahead hrun⟩

theorem ReadStep.alike_mapM (steps : List ReadStep) :
    Cursor.Alike (steps.mapM ReadStep.run : Reader Cursor ReadError (List ReadValue))
      (steps.mapM ReadStep.run) :=
  .mapM ReadStep.alike_run steps

/-! ## Writers -/

namespace Writer

/-- To any buffer the writer appends the bytes, and says how many these are. -/
def Appends (w : Writer) (bs : Bytes) : Prop :=
  ∀ buffer : Bytes, w.run buffer = (bs.length, buffer ++ bs)

theorem appends_number (f : NumberFormat) (n : Nat) : Appends (number f n) (f.encode n) := by
  intro buffer
  rw [f.length_encode]
  rfl

theorem Appends.add {x y : Writer} {bs bs' : Bytes} (hx : Appends x bs) (hy : Appends y bs') :
    Appends (do return (← x) + (← y)) (bs ++ bs') := by
  intro buffer
  simp only [StateT.run_bind, StateT.run_pure, hx buffer, List.length_append,
    ← List.append_assoc]
  change (y.run (buffer ++ bs) >>= fun p => pure (bs.length + p.1, p.2) : Id _) = _
  rw [hy]
  rfl

theorem appends_tag (b : UInt8) : Appends (number (.little 1) b.toNat) [b] := by
  have hencode : (NumberFormat.little 1).encode b.toNat = [b] := by
    simp [NumberFormat.encode, NumberFormat.little, Bytes.ofNatLE]
  rw [← hencode]
  exact appends_number _ _

theorem appends_lenEncInt (n : LenEncInt) : Appends (lenEncInt n) n.encode := by
  cases n with
  | null => exact appends_tag 0xfb
  | err => exact appends_tag 0xff
  | len1 n => exact appends_tag n
  | len3 n => exact (appends_tag 0xfc).add (appends_number _ _)
  | len4 n => exact (appends_tag 0xfd).add (appends_number _ _)
  | len9 n => exact (appends_tag 0xfe).add (appends_number _ _)

end Writer

/-! ## Steps -/

namespace WriteStep

/-- The value is read back as it is. -/
def Fits : WriteStep → Prop
  | number f n => n < f.bound
  | lenEncInt n => n.Fits

instance : (step : WriteStep) → Decidable step.Fits
  | number f n => inferInstanceAs (Decidable (n < f.bound))
  | lenEncInt n => inferInstanceAs (Decidable n.Fits)

/-- The step that reads what the step writes. -/
def matching : WriteStep → ReadStep
  | number f _ => .number f
  | lenEncInt _ => .lenEncInt

/-- What reading gives. -/
def value : WriteStep → ReadValue
  | number _ n => .number n
  | lenEncInt n => .lenEncInt n

theorem appends_run (step : WriteStep) : step.run.Appends step.encode := by
  cases step with
  | number f n => exact Writer.appends_number f n
  | lenEncInt n => exact Writer.appends_lenEncInt n

/-- Steps in turn append their bytes one behind the other. -/
theorem mapM_run_eq (steps : List WriteStep) (buffer : Bytes) :
    (steps.mapM WriteStep.run).run buffer =
      (steps.map fun step => step.encode.length, buffer ++ steps.flatMap encode) := by
  induction steps generalizing buffer with
  | nil =>
    rw [List.flatMap_nil, List.append_nil]
    rfl
  | cons step steps ih =>
    simp only [List.mapM_cons, StateT.run_bind, StateT.run_pure, appends_run step buffer]
    change ((steps.mapM WriteStep.run).run (buffer ++ step.encode) >>=
      fun p => pure (step.encode.length :: p.1, p.2) : Id _) = _
    rw [ih, List.append_assoc]
    rfl

/-! ### Reading back -/

variable {step : WriteStep} {steps : List WriteStep} {s t : Bytes}

/-- A step's value is read exactly from what the step appends. -/
theorem run_matching_eq_ok_iff :
    (step.matching.run : Reader Bytes ReadError ReadValue) s = .ok step.value t ↔
      step.Fits ∧ s = step.encode ++ t := by
  cases step with
  | number f n =>
    refine Iff.trans ?_ (number_eq_ok_iff (ε := ReadError))
    simp only [matching, ReadStep.run, value, bind_eq_ok_iff, pure_eq_ok_iff,
      ReadValue.number.injEq, existsAndEq, and_true]
  | lenEncInt n =>
    refine Iff.trans ?_ (lenEncInt_eq_ok_iff (ε := ReadError))
    simp only [matching, ReadStep.run, value, bind_eq_ok_iff, pure_eq_ok_iff,
      ReadValue.lenEncInt.injEq, existsAndEq, and_true]

/-- What the reader of a step gives is the value of a step of the same kind. -/
theorem exists_value_eq {v : ReadValue}
    (h : (step.matching.run : Reader Bytes ReadError ReadValue) s = .ok v t) :
    ∃ step' : WriteStep, step'.matching = step.matching ∧ step'.value = v := by
  cases step with
  | number f n =>
    obtain ⟨m, _, -, hv⟩ := bind_eq_ok_iff.mp h
    exact ⟨number f m, rfl, (pure_eq_ok_iff.mp hv).1⟩
  | lenEncInt n =>
    obtain ⟨m, _, -, hv⟩ := bind_eq_ok_iff.mp h
    exact ⟨lenEncInt m, rfl, (pure_eq_ok_iff.mp hv).1⟩

/-- Values are read in turn exactly from what writing them in turn appends. -/
theorem mapM_matching_eq_ok_iff :
    ((steps.map matching).mapM ReadStep.run : Reader Bytes ReadError (List ReadValue)) s =
        .ok (steps.map value) t ↔
      (∀ step ∈ steps, step.Fits) ∧ s = steps.flatMap encode ++ t := by
  induction steps generalizing s with
  | nil => simp [pure_eq_ok_iff]
  | cons step steps ih =>
    simp only [List.map_cons, List.mapM_cons, bind_eq_ok_iff, pure_eq_ok_iff, List.cons.injEq,
      List.forall_mem_cons, List.flatMap_cons]
    refine ⟨?_, ?_⟩
    · rintro ⟨v, u, hv, vs, _, hvs, ⟨rfl, rfl⟩, rfl⟩
      obtain ⟨hfits, rfl⟩ := run_matching_eq_ok_iff.mp hv
      obtain ⟨hall, rfl⟩ := ih.mp hvs
      exact ⟨⟨hfits, hall⟩, (List.append_assoc ..).symm⟩
    · rintro ⟨⟨hfits, hall⟩, rfl⟩
      rw [List.append_assoc]
      exact ⟨_, _, run_matching_eq_ok_iff.mpr ⟨hfits, rfl⟩, _, _, ih.mpr ⟨hall, rfl⟩, ⟨rfl, rfl⟩,
        rfl⟩

/-- Eight bytes read as a signed number are the number in two's complement. -/
theorem run_signed (n : UInt64) (tail : Bytes) :
    (ReadStep.signed.run : Reader Bytes ReadError ReadValue)
      ((NumberFormat.little 8).encode n.toNat ++ tail) = .ok (.signed n.toInt64) tail := by
  have hn : (u64 : Reader Bytes ReadError UInt64) ((NumberFormat.little 8).encode n.toNat ++ tail) =
      .ok n tail := u64_eq_ok_iff.mpr rfl
  have hi : (i64 : Reader Bytes ReadError Int64) ((NumberFormat.little 8).encode n.toNat ++ tail) =
      .ok n.toInt64 tail := bind_eq_ok_iff.mpr ⟨n, tail, hn, rfl⟩
  exact bind_eq_ok_iff.mpr ⟨n.toInt64, tail, hi, rfl⟩

theorem toInt_toInt64 (n : UInt64) :
    n.toInt64.toInt = if n.toNat < 2 ^ 63 then (n.toNat : Int) else n.toNat - 2 ^ 64 := by
  have hbits : n.toInt64.toInt = n.toBitVec.toInt := rfl
  rw [hbits, BitVec.toInt_eq_toNat_cond, UInt64.toNat_toBitVec]
  by_cases hn : n.toNat < 2 ^ 63
  · rw [if_pos hn, if_pos (by omega)]
  · rw [if_neg hn, if_neg (by omega)]
    rfl

/-- **Writing and reading are inverse.** Writes in turn keep the buffer, append one behind the other
and say how many bytes each appended. If the values fit, the matching reads give them back from
these bytes, over either source and whatever stands behind, and a signed read of eight bytes gives
the two's complement. What a matching read has passed over is what writing its value appends. -/
theorem write_read_inverse (steps : List WriteStep) (buffer tail : Bytes) :
    (steps.mapM WriteStep.run).run buffer =
        (steps.map fun step => step.encode.length, buffer ++ steps.flatMap encode) ∧
      ((∀ step ∈ steps, step.Fits) →
        ReadsOff (fun _ _ => (steps.map matching).mapM ReadStep.run) (steps.flatMap encode)
          (steps.map value) tail) ∧
      (∀ n : UInt64,
        ReadsOff (fun _ _ => ReadStep.signed.run) (number (.little 8) n.toNat).encode
            (.signed n.toInt64) tail ∧
          n.toInt64.toInt =
            if n.toNat < 2 ^ 63 then (n.toNat : Int) else (n.toNat : Int) - 2 ^ 64) ∧
      (∀ (read : WriteStep) (v : ReadValue) (s t : Bytes),
        (read.matching.run : Reader Bytes ReadError ReadValue) s = .ok v t →
          ∃ step : WriteStep, step.matching = read.matching ∧ step.value = v ∧
            s = step.encode ++ t ∧
            step.run.run buffer = (step.encode.length, buffer ++ step.encode)) ∧
      ∀ (read : WriteStep) (v : ReadValue) (c c' : Cursor),
        (read.matching.run : Reader Cursor ReadError ReadValue) c = .ok v c' →
          ∃ step : WriteStep, step.matching = read.matching ∧ step.value = v ∧
            c.remaining = step.encode ++ c'.remaining ∧ c.MovesBy step.encode.length c' ∧
            step.run.run buffer = (step.encode.length, buffer ++ step.encode) := by
  have hrewrite (read : WriteStep) (v : ReadValue) (s t : Bytes)
      (h : (read.matching.run : Reader Bytes ReadError ReadValue) s = .ok v t) :
      ∃ step : WriteStep, step.matching = read.matching ∧ step.value = v ∧
        s = step.encode ++ t := by
    obtain ⟨step, hmatching, rfl⟩ := exists_value_eq h
    rw [← hmatching] at h
    exact ⟨step, hmatching, rfl, (run_matching_eq_ok_iff.mp h).2⟩
  refine ⟨mapM_run_eq steps buffer, fun hfits => ?_, fun n => ⟨?_, toInt_toInt64 n⟩, ?_, ?_⟩
  · exact readsOff_of_alike (ReadStep.alike_mapM _) (mapM_matching_eq_ok_iff.mpr ⟨hfits, rfl⟩)
  · exact readsOff_of_alike (ReadStep.alike_run .signed) (run_signed n tail)
  · intro read v s t h
    obtain ⟨step, hmatching, hvalue, hs⟩ := hrewrite read v s t h
    exact ⟨step, hmatching, hvalue, hs, appends_run step buffer⟩
  · intro read v c c' h
    obtain ⟨hbuffer, hrun⟩ := (Cursor.ok_iff read.matching.alike_run).mp h
    obtain ⟨step, hmatching, hvalue, hahead⟩ := hrewrite read v _ _ hrun
    exact ⟨step, hmatching, hvalue, hahead,
      Cursor.movesBy_iff.mpr ⟨hbuffer, step.encode, rfl, hahead⟩, appends_run step buffer⟩

/-- Odd widths in both orders between length-encoded integers, with a tag behind them. -/
theorem write_read_inverse_odd_widths :
    let steps : List WriteStep := [.number (.little 3) 0xfedcba, .lenEncInt (.len4 70000),
      .number (.big 3) 0x010203, .lenEncInt (.len1 250), .number (.little 7) (2 ^ 56 - 2)]
    let bytes : Bytes := [0xba, 0xdc, 0xfe, 0xfd, 0x70, 0x11, 1, 1, 2, 3, 250, 254, 255, 255, 255,
      255, 255, 255]
    (∀ step ∈ steps, step.Fits) ∧
      (steps.mapM WriteStep.run).run [9] = ([3, 4, 3, 1, 7], 9 :: bytes) ∧
      ReadsOff (fun _ _ => (steps.map matching).mapM ReadStep.run) bytes (steps.map value)
        [0xfb] := by
  intro steps bytes
  have hfits : ∀ step ∈ steps, step.Fits := by decide
  have hbytes : steps.flatMap encode = bytes := by decide
  obtain ⟨hwrite, hread, -⟩ := write_read_inverse steps [9] [0xfb]
  rw [hbytes] at hwrite hread
  exact ⟨hfits, hwrite, hread hfits⟩

end WriteStep

end Binlog
