import Binlog.Proofs.GuardedPayload

/-!
# Decoding is without faults

Whatever follows a header, the guarded decoder has no fault, and its result is that of the decoder
(`Parser.decodeGuarded_faultless`).

**Two cursors.** The data is taken off the bytes behind the header, of which there may be any
number; its length is a number of four bytes, and so is what is computed with it from there on. The
body and the footer are then read from the data with a cursor of their own, and the payload from the
body.
-/

namespace Binlog

open Reader GuardedCursor

variable {buffer : Bytes} {D : DecodeError → Prop}

/-! ## Computations -/

/-- A guarded computation has no fault, and its result is that of the computation. -/
def Faultless {α : Type} (x : ExceptT DecodeError (Except Fault) α) (y : Except DecodeError α) :
    Prop := x.run = .ok y

namespace Faultless

variable {α β : Type}

/-- A value may be given in another form, as long as it is used in that form. -/
theorem bind_map {γ : Type} {x : ExceptT DecodeError (Except Fault) γ} {y : Except DecodeError α}
    {φ : α → γ} {f : γ → ExceptT DecodeError (Except Fault) β} {g : α → Except DecodeError β}
    (hx : Faultless x (φ <$> y)) (hf : ∀ a, y = .ok a → Faultless (f (φ a)) (g a)) :
    Faultless (x >>= f) (y >>= g) := by
  refine Except.bind_eq_ok_iff.mpr ⟨φ <$> y, hx, ?_⟩
  cases y with
  | ok a => exact hf a rfl
  | error e => rfl

theorem bind {x : ExceptT DecodeError (Except Fault) α} {y : Except DecodeError α}
    {f : α → ExceptT DecodeError (Except Fault) β} {g : α → Except DecodeError β}
    (hx : Faultless x y) (hf : ∀ a, y = .ok a → Faultless (f a) (g a)) :
    Faultless (x >>= f) (y >>= g) :=
  bind_map (φ := id) (by rwa [id_map]) hf

theorem ite {c : Prop} [Decidable c] {x x' : ExceptT DecodeError (Except Fault) α}
    {y y' : Except DecodeError α} (hx : c → Faultless x y) (hx' : ¬ c → Faultless x' y') :
    Faultless (if c then x else x') (if c then y else y') := by
  by_cases h : c
  · rw [if_pos h, if_pos h]
    exact hx h
  · rw [if_neg h, if_neg h]
    exact hx' h

theorem lift_bind {x : Except Fault α} {a : α} {f : α → ExceptT DecodeError (Except Fault) β}
    {y : Except DecodeError β} (hx : x = .ok a) (hf : Faultless (f a) y) :
    Faultless (ExceptT.lift x >>= f) y := by
  subst hx
  exact hf

end Faultless

/-- A value with the number of bytes passed over, instead of the bytes left. -/
def passedOver {α : Type} (bs : Bytes) (x : α × Bytes) : α × Nat := (x.1, bs.length - x.2.length)

section Runs

variable {α : Type} {bs : Bytes} {r : Reader GuardedCursor DecodeError α} {c : GuardedCursor}

/-- A run has no fault if the reads end within the buffer and have had none. -/
theorem GuardedCursor.run_of_ok {a : α} (hrun : r (start bs) = .ok a c)
    (hle : c.offset ≤ c.buffer.length) (hfault : c.fault = none) :
    Faultless (run bs r) (.ok (a, c.offset)) := by
  unfold Faultless GuardedCursor.run
  rw [hrun]
  exact settle_eq_ok hle hfault _

theorem GuardedCursor.run_of_error {e : DecodeError} (hrun : r (start bs) = .error e c)
    (hle : c.offset ≤ c.buffer.length) (hfault : c.fault = none) :
    Faultless (run bs r) (.error e) := by
  unfold Faultless GuardedCursor.run
  rw [hrun]
  exact settle_eq_ok hle hfault _

theorem GuardedCursor.run_faultless {r' : Reader Bytes DecodeError α}
    (hlen : bs.length < 2 ^ 64) (hr : Agrees (Follows bs) D r r') :
    Faultless (GuardedCursor.run bs r) (passedOver bs <$> bs.read r') := by
  have hout := hr _ _ (follows_start hlen)
  unfold Bytes.read
  generalize hrun : r (start bs) = o at hout
  generalize r' bs = o' at hout
  cases hout with
  | ok left =>
    have hpassed := run_of_ok hrun left.offset_le_length left.fault_eq
    rw [left.offset_eq] at hpassed
    exact hpassed
  | error admitted left => exact run_of_error hrun left.offset_le_length left.fault_eq

/-- The front of any bytes is taken without a fault, if its length is a word. -/
theorem GuardedCursor.run_take_faultless {n : Nat} (hn : n < 2 ^ 64) (bs : Bytes) :
    Faultless (run bs (Reader.take n)) (passedOver bs <$> bs.read (Reader.take n)) := by
  rw [read_take]
  by_cases hle : n ≤ bs.length
  · have hpassed : bs.length - (bs.drop n).length = n := by
      rw [List.length_drop]
      omega
    rw [if_pos hle]
    change Faultless _ (.ok (bs.take n, bs.length - (bs.drop n).length))
    rw [hpassed]
    exact run_of_ok (take_start hn hle) hle rfl
  · rw [if_neg hle]
    exact run_of_error (take_start_of_lt (Nat.lt_of_not_le hle)) (Nat.zero_le _) rfl

end Runs

/-! ## Frames -/

theorem Footer.lt_length_iff {footer : Footer} {n : Nat} :
    n < footer.length ↔ footer ≠ .absent ∧ n < size := by
  unfold length
  by_cases habsent : footer = .absent
  · simp [habsent]
  · simp [habsent]

theorem Header.dataLength_lt (h : Header) : h.dataLength < 2 ^ 64 := by
  have hlt := h.eventLength.toNat_lt
  rw [dataLength]
  omega

namespace Frame

theorem agrees_cut (hsize : ∀ n, D (.read (.incomplete (.size n)))) (footer : Footer) (n : Nat) :
    Agrees (Follows buffer) D (cut footer n) (cut footer n) := by
  have hsim := simulation buffer (ε := DecodeError) hsize
  refine (Agrees.take hsim n).bind fun body => ?_
  exact .ite_bind (fun _ => .pure none) (fun _ => .map _ (.u32 hsim)) fun crc32 => .pure _

theorem length_footerBytes_of_footer {f : Frame} (h : f.crc32.isSome ↔ f.footer ≠ .absent) :
    f.footerBytes.length = f.footer.length := by
  rw [length_footerBytes, Footer.length]
  by_cases habsent : f.footer = .absent
  · rw [if_neg (fun hsome => h.mp hsome habsent), if_pos habsent]
  · rw [if_pos (h.mpr habsent), if_neg habsent]

/-- Cutting the data is reading the body and then the footer. -/
theorem read_cut {footer : Footer} {data : Bytes} {f : Frame} (h : ofData? footer data = some f) :
    footer.length ≤ data.length ∧
      data.read (cut footer (data.length - footer.length)) = .ok (f, []) := by
  obtain ⟨rfl, hcrc, rfl⟩ := ofData?_eq_some_iff.mp h
  have hlen : f.data.length = f.body.length + f.footer.length := by
    rw [data, List.length_append, length_footerBytes_of_footer hcrc]
  rw [hlen, Nat.add_sub_cancel]
  refine ⟨Nat.le_add_left _ _, Bytes.read_eq_ok_iff.mpr ?_⟩
  refine bind_eq_ok_iff.mpr ⟨f.body, f.footerBytes, take_eq_ok_iff.mpr ⟨rfl, rfl⟩, ?_⟩
  rcases f with ⟨footer, body, crc32⟩
  cases crc32 with
  | none =>
    have habsent : footer = .absent := by simpa using hcrc
    rw [if_pos habsent]
    rfl
  | some n =>
    have hpresent : footer ≠ .absent := by simpa using hcrc
    rw [if_neg hpresent]
    refine bind_eq_ok_iff.mpr ⟨some n, [], map_eq_ok_iff.mpr ⟨n, ?_, rfl⟩, rfl⟩
    exact u32_eq_ok_iff.mpr (List.append_nil _).symm

theorem ofData?_eq_none {footer : Footer} {data : Bytes} (h : ofData? footer data = none) :
    data.length < footer.length := by
  rw [Footer.lt_length_iff]
  unfold ofData? at h
  split at h
  next => cases h
  next hpresent =>
    split at h
    next hshort => exact ⟨hpresent, hshort⟩
    next => cases h

theorem readGuarded_faultless (f : Frame) (validate : Bool) (h : Header)
    {r : Reader GuardedCursor DecodeError Payload} {r' : Reader Bytes DecodeError Payload}
    (hlen : f.body.length < 2 ^ 64) (hr : Agrees (Follows f.body) D r r') :
    Faultless (f.readGuarded validate h r) (f.read validate h r') :=
  (run_faultless hlen hr).bind_map fun _ _ => .ite (fun _ => rfl) fun _ => rfl

end Frame

/-! ## Events -/

namespace Parser

variable (p : Parser) (h : Header) (bs : Bytes)

theorem footerGuarded_eq (data : Bytes) :
    p.footerGuarded h data = .ok (Footer.ofData p.checksum h.eventType data) := by
  unfold footerGuarded Footer.ofData
  split
  · exact Except.bind_eq_ok_iff.mpr ⟨_, FormatDescription.peekGuarded_eq data, rfl⟩
  · split
    · rfl
    · rfl

theorem frameGuarded_faultless : Faultless (p.frameGuarded h bs) (p.frame h bs) := by
  refine .ite (fun _ => rfl) fun _ => ?_
  refine (run_take_faultless h.dataLength_lt bs).bind_map fun (data, rest) htake => ?_
  refine .lift_bind (p.footerGuarded_eq h data) ?_
  obtain ⟨hlen, -⟩ := take_eq_ok_iff.mp (Bytes.read_eq_ok_iff.mp htake)
  dsimp only
  generalize Footer.ofData p.checksum h.eventType data = footer
  cases hcut : Frame.ofData? footer data with
  | none =>
    rw [if_pos (Frame.ofData?_eq_none hcut)]
    rfl
  | some f =>
    obtain ⟨hle, hread⟩ := Frame.read_cut hcut
    rw [if_neg (Nat.not_lt_of_le hle)]
    refine .lift_bind (if_pos hle) ?_
    have hlt : data.length < 2 ^ 64 := by
      rw [hlen]
      exact h.dataLength_lt
    have hagree : Agrees (Follows data) (fun _ => True)
        (Frame.cut footer (data.length - footer.length))
        (Frame.cut footer (data.length - footer.length)) :=
      Frame.agrees_cut (fun _ => True.intro) _ _
    have hrun := run_faultless hlt hagree
    rw [hread] at hrun
    exact hrun.bind (g := fun x => pure x.1) fun _ _ => rfl

variable {p h} in
/-- A body is shorter than a number of four bytes can say. -/
theorem Cuts.length_body_lt {f : Frame} (hc : p.Cuts h f) : f.body.length < 2 ^ 64 := by
  have hdata := hc.length_data
  have hlt := h.dataLength_lt
  rw [Frame.data, List.length_append] at hdata
  omega

/-- **No faults.** On any payload behind any header the guarded decoder does what the decoder does,
and nothing is applied outside its domain. -/
theorem decodeGuarded_faultless : Faultless (p.decodeGuarded h bs) (p.decode h bs) := by
  refine (p.frameGuarded_faultless h bs).bind fun f hf => ?_
  obtain ⟨hcuts, -⟩ := frame_eq_ok_iff.mp hf
  exact f.readGuarded_faultless p.validate h hcuts.length_body_lt
    (Payload.agrees_readGuarded _ _ _)

end Parser

end Binlog
