import Binlog.Proofs.Faultless

/-!
# The errors of decoding

Which errors a decoding can end with, and when (`Parser.Contract`). A reader of a log decides by the
error whether to wait for more bytes, to pass over the event or to give up, so an error that stands
for another cause would mislead it.

**Lengths.** A declared length is rejected when it does not reach over the header, or when the data
it declares is there but too short for the checksum that it must hold.

**Left bytes.** A kind that takes all that is left as its last field never leaves bytes unread
(`Payload.drains_read`). For the others the mismatch tells the length of the body, and how much less
was used.

Main statement: `Parser.decode_contract`.
-/

namespace Binlog

open Reader

/-- A sequence fails when one of its steps does. -/
theorem Except.bind_eq_error_iff {ε α β : Type} {x : Except ε α} {f : α → Except ε β} {e : ε} :
    (x >>= f) = .error e ↔ x = .error e ∨ ∃ a, x = .ok a ∧ f a = .error e := by
  cases x with
  | ok a =>
    refine ⟨fun h => .inr ⟨a, rfl, h⟩, ?_⟩
    rintro (hx | ⟨_, hx, h⟩)
    · cases hx
    · cases hx
      exact h
  | error e' =>
    refine ⟨fun h => ?_, ?_⟩
    · cases h
      exact .inl rfl
    · rintro (hx | ⟨_, hx, -⟩)
      · cases hx
        rfl
      · cases hx

/-! ## Decoders that leave nothing -/

/-- Nothing is left when the reader succeeds. -/
def Reader.Drains {ε α : Type} (r : Reader Bytes ε α) : Prop := ∀ s a t, r s = .ok a t → t = []

namespace Reader.Drains

variable {ε α β : Type}

theorem rest [OfReadError ε] : Drains (Reader.rest : Reader Bytes ε Bytes) :=
  fun _ _ _ h => (rest_eq_ok_iff.mp h).2

theorem bind {x : Reader Bytes ε α} {f : α → Reader Bytes ε β} (hf : ∀ a, Drains (f a)) :
    Drains (x >>= f) := by
  intro s b t h
  obtain ⟨a, u, -, h⟩ := bind_eq_ok_iff.mp h
  exact hf a u b t h

theorem bind_pure {x : Reader Bytes ε α} {f : α → β} (hx : Drains x) :
    Drains (x >>= fun a => pure (f a)) := by
  intro s b t h
  obtain ⟨a, u, hx', h⟩ := bind_eq_ok_iff.mp h
  obtain ⟨-, rfl⟩ := pure_eq_ok_iff.mp h
  exact hx s a u hx'

theorem map {x : Reader Bytes ε α} {f : α → β} (hx : Drains x) : Drains (f <$> x) := by
  intro s b t h
  obtain ⟨a, hx', -⟩ := map_eq_ok_iff.mp h
  exact hx s a t hx'

theorem ite_bind {c : Prop} [Decidable c] {x y : Reader Bytes ε α} {f : α → Reader Bytes ε β}
    (hf : ∀ a, Drains (f a)) : Drains (if c then x >>= f else y >>= f) := by
  by_cases h : c
  · rw [if_pos h]
    exact bind hf
  · rw [if_neg h]
    exact bind hf

end Reader.Drains

theorem Statement.drains_read (head : QueryHead) :
    Drains (Statement.read head : Reader Bytes DecodeError Statement) := by
  refine .bind fun block => .bind fun statusVars => .bind fun bs => .bind fun schema => ?_
  exact .bind fun _ => .bind_pure .rest

theorem DomainGtidEvent.drains_read (server : UInt32) :
    Drains (DomainGtidEvent.read server : Reader Bytes DecodeError DomainGtidEvent) := by
  refine .bind fun sequence => .bind fun domain => .bind fun flags => ?_
  exact .ite_bind fun commitId => .ite_bind fun xid => .bind_pure .rest

/-- The kinds whose last field is all that is left. -/
def EventKind.draining : List EventKind :=
  [.query, .executeLoad, .rotate, .beginLoad, .heartbeat, .rowsQuery, .annotateRows, .domainGtid,
    .notImplemented]

theorem Payload.drains_read {server : UInt32} {version : Option ServerVersion} {kind : EventKind}
    (hkind : kind ∈ EventKind.draining) :
    Drains (read server version kind : Reader Bytes DecodeError Payload) := by
  simp only [EventKind.draining, List.mem_cons, List.not_mem_nil, or_false] at hkind
  rcases hkind with rfl | rfl | rfl | rfl | rfl | rfl | rfl | rfl | rfl
  · exact .map (.bind fun head => .bind_pure (Statement.drains_read head))
  · exact .map (.bind fun head => .bind fun file => .bind_pure (Statement.drains_read head))
  · exact .map fun _ _ _ h => (Rotate.read_eq_ok_iff.mp h).2
  · exact .map fun _ _ _ h => (BeginLoad.read_eq_ok_iff.mp h).2
  · exact .map fun _ _ _ h => (Heartbeat.read_eq_ok_iff.mp h).2
  · exact .map (.bind fun _ => .bind_pure .rest)
  · exact .map fun _ _ _ h => (AnnotateRows.read_eq_ok_iff.mp h).2
  · exact .map (DomainGtidEvent.drains_read server)
  · exact .bind_pure .rest

/-! ## Reading a frame -/

/-- A body is not read, or not to its end. -/
theorem Frame.read_eq_error_iff {f : Frame} {validate : Bool} {h : Header}
    {r : Reader Bytes DecodeError Payload} {e : DecodeError} :
    f.read validate h r = .error e ↔ (∃ t, r f.body = .error e t) ∨
      ∃ d rest, r f.body = .ok d rest ∧ f.body.length - rest.length ≠ f.body.length ∧
        e = .eventSizeMismatch f.body.length (f.body.length - rest.length) := by
  simp only [read, Except.bind_eq_error_iff, Prod.exists, Bytes.read_eq_error_iff,
    Bytes.read_eq_ok_iff]
  refine or_congr_right (exists_congr fun d => exists_congr fun rest => and_congr_right fun _ => ?_)
  split
  next hused =>
    refine ⟨fun he => ?_, fun he => absurd hused he.1⟩
    cases he
  next hleft =>
    refine ⟨fun he => ?_, fun he => ?_⟩
    · cases he
      exact ⟨hleft, rfl⟩
    · rw [he.2]
      rfl

/-! ## The contract -/

namespace Parser

variable {p : Parser} {h : Header} {bs : Bytes} {e : DecodeError}

/-- The conditions under which a decoding may end with an error. An error that is not about a length
depends only on the kind of the event. -/
def Contract (p : Parser) (h : Header) (bs : Bytes) : DecodeError → Prop
  | .invalidEventLength n => n = h.eventLength ∧ (n.toNat < Header.size ∨
      h.dataLength ≤ bs.length ∧ p.footer h bs ≠ .absent ∧ h.dataLength < Footer.size)
  | .eventSizeMismatch expected consumed => consumed < expected ∧ h.dataLength ≤ bs.length ∧
      expected + (p.footer h bs).length = h.dataLength ∧
      EventKind.ofType h.eventType ∉ EventKind.draining
  | e => (EventKind.ofType h.eventType).MayReject e

theorem contract_of_mayReject (he : (EventKind.ofType h.eventType).MayReject e) :
    p.Contract h bs e := by
  cases e with
  | invalidEventLength n => exact he.elim
  | eventSizeMismatch expected consumed => exact he.elim
  | _ => exact he

theorem contract_of_frame (he : p.frame h bs = .error e) : p.Contract h bs e := by
  rw [frame_eq] at he
  split at he
  next hshort =>
    cases he
    exact ⟨rfl, .inl hshort⟩
  next =>
    split at he
    next hle =>
      cases hcut : Frame.ofData? (p.footer h bs) (bs.take h.dataLength) with
      | some f =>
        rw [hcut] at he
        cases he
      | none =>
        rw [hcut] at he
        cases he
        have hlt := Frame.ofData?_eq_none hcut
        rw [List.length_take_of_le hle] at hlt
        exact ⟨rfl, .inr ⟨hle, Footer.lt_length_iff.mp hlt⟩⟩
    next =>
      cases he
      exact True.intro

/-- What is left of a body was not used. -/
theorem Cuts.contract_of_left {f : Frame} (hc : p.Cuts h f) (htail : ∃ tail, bs = f.data ++ tail)
    {d : Payload} {rest : Bytes} (hr : p.payload h f.body = .ok d rest)
    (hleft : f.body.length - rest.length ≠ f.body.length) :
    p.Contract h bs (.eventSizeMismatch f.body.length (f.body.length - rest.length)) := by
  obtain ⟨tail, rfl⟩ := htail
  have hdata : (f.data ++ tail).take h.dataLength = f.data := by
    rw [← hc.length_data, List.take_left]
  have hfooter : p.footer h (f.data ++ tail) = f.footer := by
    rw [footer, hdata, ← hc.footer_eq]
  refine ⟨by omega, ?_, ?_, fun hkind => ?_⟩
  · rw [List.length_append, hc.length_data]
    exact Nat.le_add_right _ _
  · rw [hfooter, ← hc.length_data, Frame.data, List.length_append,
      Frame.length_footerBytes_of_footer hc.crc32_isSome]
  · obtain rfl : rest = [] := Payload.drains_read hkind _ _ _ hr
    exact hleft rfl

/-- **The error contract.** On any payload behind any header, nothing is applied outside its domain,
and an error meets its conditions. -/
theorem decode_contract (p : Parser) (h : Header) (bs : Bytes) :
    Faultless (p.decodeGuarded h bs) (p.decode h bs) ∧
      ∀ e, p.decode h bs = .error e → p.Contract h bs e := by
  refine ⟨p.decodeGuarded_faultless h bs, fun e he => ?_⟩
  obtain he | ⟨f, hf, he⟩ := Except.bind_eq_error_iff.mp he
  · exact contract_of_frame he
  · obtain ⟨hcuts, htail⟩ := frame_eq_ok_iff.mp hf
    obtain ⟨t, hr⟩ | ⟨d, rest, hr, hleft, rfl⟩ := Frame.read_eq_error_iff.mp he
    · have hlen : f.body.length < 2 ^ 64 := hcuts.length_body_lt
      exact contract_of_mayReject (Payload.mayReject_of_read hlen hr)
    · exact hcuts.contract_of_left htail hr hleft

/-- The value of a variable is a decimal of five digits, of which only one byte is there. -/
theorem decode_contract_short_decimal :
    let p : Parser := ⟨false, true, none⟩
    let h : Header := ⟨0, 14, 1, 38, 0, 0⟩
    let bs : Bytes := [1, 0, 0, 0, 97, 0, 4, 63, 0, 0, 0, 3, 0, 0, 0, 5, 2, 128, 0]
    let e := DecodeError.malformedDecimal (.tooShort 5 2 3 1)
    p.decode h bs = .error e ∧ Faultless (p.decodeGuarded h bs) (.error e) ∧ p.Contract h bs e := by
  intro p h bs e
  have he : p.decode h bs = .error e := by decide +kernel
  obtain ⟨hfaultless, hcontract⟩ := decode_contract p h bs
  rw [he] at hfaultless
  exact ⟨he, hfaultless, hcontract e he⟩

end Parser

end Binlog
