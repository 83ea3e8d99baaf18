import Binlog.Event.UserVar
import Binlog.Proofs.PackedDecimal
import Binlog.Proofs.StrictText
import Binlog.Proofs.Writing

/-!
# User variables as they are written

A value that is not NULL has a run of bytes of its own, in the form of its kind. Behind it stands a
byte of flags, which old servers do not write. Its lowest bit is for integers: eight bytes are an
unsigned number if it is set, and else a number in two's complement. The other kinds do not depend
on it.

**Written values** (`WrittenValue`). One constructor for each kind, with the bytes that it is
written as, what they mean, and the flags that may stand behind them.

**Any bytes** (`UserVar.read_body_eq_ok_iff`). What is read is settled by the type, the bytes of the
value and the first byte behind them, also where these are no written value.

Main statement: `UserVar.read_written`.
-/

namespace Binlog

open Reader

/-! ## Flags -/

namespace TypedVar

/-- Whether there is a byte of flags, with its lowest bit set. -/
def marksUnsigned (flags : Option UInt8) : Bool := flags.any fun b => b.toNat.testBit 0

theorem and_one_eq (b : UInt8) : b &&& 1 = if b.toNat.testBit 0 then 1 else 0 := by
  apply UInt8.toNat.inj
  rw [UInt8.toNat_and, UInt8.toNat_one, Nat.and_one_is_mod, Nat.testBit_zero]
  by_cases h : b.toNat % 2 = 1
  · simp [h]
  · have heven : b.toNat % 2 = 0 := by omega
    simp [heven]

theorem getD_and_one (flags : Option UInt8) :
    flags.getD 0 &&& 1 = if marksUnsigned flags then 1 else 0 := by
  cases flags with
  | none => rfl
  | some b => exact and_one_eq b

theorem getD_and_one_bne (flags : Option UInt8) :
    (flags.getD 0 &&& 1 != 0) = marksUnsigned flags := by
  rw [getD_and_one]
  cases marksUnsigned flags <;> rfl

end TypedVar

/-! ## Written values -/

/-- A value as it is written. -/
inductive WrittenValue where
  | string (bs : Bytes)
  /-- A binary64 number, as its bits. -/
  | real (bits : UInt64)
  | int (n : Int64)
  | uint (n : UInt64)
  | row (bs : Bytes)
  /-- A decimal whose digits are those of two numbers. -/
  | decimal (precision scale : UInt8) (negative : Bool) (integer fraction : Nat)
  | unknown (valueType : UInt8) (bs : Bytes)

namespace WrittenValue

/-- The byte that names the kind. -/
def valueType : WrittenValue → UInt8
  | string _ => 0
  | real _ => 1
  | int _ | uint _ => 2
  | row _ => 3
  | decimal .. => 4
  | unknown valueType _ => valueType

/-- The bytes of the value itself. -/
def encode : WrittenValue → Bytes
  | string bs | row bs | unknown _ bs => bs
  | real n | uint n => Bytes.ofNatLE 8 n.toNat
  | int n => Bytes.ofNatLE 8 n.toUInt64.toNat
  | decimal precision scale negative integer fraction =>
    precision :: scale :: Decimal.pack precision.toNat scale.toNat negative integer fraction

/-- What is written. A string need not be UTF-8. -/
def meaning : WrittenValue → UserValue
  | string bs => .string (Utf8.decodeLossy bs)
  | real bits => .real bits
  | int n => .int n
  | uint n => .uint n
  | row bs => .row bs
  | decimal precision scale negative integer fraction =>
    .decimal (.cut precision.toNat scale.toNat negative integer fraction)
  | unknown _ bs => .unknown bs

/-- A decimal has the digits that it declares, and the type of an unknown value is none of the
others. -/
def Fits : WrittenValue → Prop
  | decimal precision scale _ integer fraction =>
    Decimal.Admitted precision.toNat scale.toNat ∧
      integer < 10 ^ (precision.toNat - scale.toNat) ∧ fraction < 10 ^ scale.toNat
  | unknown valueType _ => 5 ≤ valueType
  | _ => True

instance : (v : WrittenValue) → Decidable v.Fits
  | decimal .. => inferInstanceAs (Decidable (_ ∧ _ ∧ _))
  | unknown valueType _ => inferInstanceAs (Decidable (5 ≤ valueType))
  | string _ | real _ | int _ | uint _ | row _ => inferInstanceAs (Decidable True)

/-- The flags that may stand behind the value. -/
def Allows : WrittenValue → Option UInt8 → Prop
  | uint _, flags => TypedVar.marksUnsigned flags = true
  | int _, flags => TypedVar.marksUnsigned flags = false
  | _, _ => True

/-- A written value is read from its own bytes. -/
theorem read_encode {v : WrittenValue} {flags : Option UInt8} (hfits : v.Fits)
    (hflags : v.Allows flags) :
    UserValue.read v.valueType (TypedVar.marksUnsigned flags) v.encode = .ok v.meaning [] := by
  cases v with
  | string bs => exact bind_of_ok (rest_eq_ok_iff.mpr ⟨rfl, rfl⟩)
  | row bs => exact bind_of_ok (rest_eq_ok_iff.mpr ⟨rfl, rfl⟩)
  | real bits => exact bind_of_ok (u64_eq_ok_iff.mpr (List.append_nil _).symm)
  | int n =>
    have hmark : TypedVar.marksUnsigned flags = false := hflags
    rw [hmark]
    exact bind_of_ok (i64_eq_ok_iff.mpr (List.append_nil _).symm)
  | uint n =>
    have hmark : TypedVar.marksUnsigned flags = true := hflags
    rw [hmark]
    exact bind_of_ok (u64_eq_ok_iff.mpr (List.append_nil _).symm)
  | decimal precision scale negative integer fraction =>
    obtain ⟨hadmitted, -, -⟩ := hfits
    have hread := Decimal.read_append hadmitted
      (Decimal.length_pack precision.toNat scale.toNat negative integer fraction) []
    rw [Decimal.ofBlock_pack hadmitted, List.append_nil] at hread
    have hdigits : ∀ (b : UInt8) (rest : Bytes),
        (u8 : Reader Bytes DecodeError UInt8) (b :: rest) = .ok b rest :=
      fun _ _ => u8_eq_ok_iff.mpr rfl
    exact (bind_of_ok (hdigits _ _)).trans
      ((bind_of_ok (hdigits _ _)).trans (bind_of_ok hread))
  | unknown valueType bs =>
    obtain ⟨k, hk⟩ : ∃ k, valueType.toNat = k + 5 :=
      Nat.exists_eq_add_of_le' (UInt8.le_iff_toNat_le.mp hfits)
    rw [WrittenValue.valueType, UserValue.read, hk]
    exact bind_of_ok (rest_eq_ok_iff.mpr ⟨rfl, rfl⟩)

end WrittenValue

/-! ## Any bytes -/

theorem Reader.within_eq_ok_iff {σ ε α : Type} {bs : Bytes} {r : Reader Bytes ε α} {a : α}
    {s t : σ} : (within bs r) s = .ok a t ↔ (∃ u, r bs = .ok a u) ∧ s = t := by
  unfold within
  cases r bs with
  | ok b u => simp [pure_eq_ok_iff]
  | error e u => simp [throw_ne_ok]

/-- Only one type gives an unsigned number. -/
theorem UserValue.eq_two_of_read_uint {valueType : UInt8} {unsigned : Bool} {bs u : Bytes}
    {n : UInt64} (h : UserValue.read valueType unsigned bs = .ok (.uint n) u) :
    valueType = 2 := by
  rw [UserValue.read] at h
  rcases hcode : valueType.toNat with _ | _ | _ | _ | _ | k
  case succ.succ.zero => exact UInt8.toNat.inj hcode
  all_goals
    rw [hcode] at h
    simp [bind_eq_ok_iff, map_eq_ok_iff] at h

/-- An unsigned number is chosen by the type and the mark. -/
theorem UserValue.exists_uint_iff {valueType : UInt8} {unsigned : Bool} {bs u : Bytes}
    {value : UserValue} (h : UserValue.read valueType unsigned bs = .ok value u) :
    (∃ n, value = .uint n) ↔ valueType = 2 ∧ unsigned = true := by
  refine ⟨?_, ?_⟩
  · rintro ⟨n, rfl⟩
    obtain rfl := eq_two_of_read_uint h
    cases unsigned with
    | true => exact ⟨rfl, rfl⟩
    | false =>
      obtain ⟨i, _, -, hv⟩ := bind_eq_ok_iff.mp h
      cases (pure_eq_ok_iff.mp hv).1
  · rintro ⟨rfl, rfl⟩
    obtain ⟨n, _, -, hv⟩ := bind_eq_ok_iff.mp h
    exact ⟨n, (pure_eq_ok_iff.mp hv).1.symm⟩

namespace TypedVar

variable {valueType : UInt8} {charset : UInt32} {bs rest t : Bytes}

/-- Reads the flags if there is a byte of them. -/
def readFlags : Reader Bytes DecodeError UInt8 := do if ← hasMore then u8 else pure 0

theorem readFlags_eq (rest : Bytes) : readFlags rest = .ok (rest.head?.getD 0) rest.tail := by
  cases rest with
  | nil => rfl
  | cons b rest => exact u8_eq_ok_iff.mpr rfl

theorem read_eq : (read : Reader Bytes DecodeError TypedVar) = (do
    let valueType ← u8
    let charset ← u32
    let bs ← takePrefixed 4
    let flags ← readFlags
    let value ← within bs (UserValue.read valueType (flags &&& 1 != 0))
    return { valueType, charset, unsigned := flags &&& 1 != 0, value }) := by
  simp only [read, readFlags, ite_bind, bind_assoc, pure_bind]

/-- The bytes of a value behind its type, character set and length. -/
def layout (valueType : UInt8) (charset : UInt32) (bs : Bytes) : Bytes :=
  valueType :: Bytes.ofNatLE 4 charset.toNat ++ (Bytes.ofNatLE 4 bs.length ++ bs)

/-- What is read depends on the type, the bytes of the value and the flags. -/
theorem read_layout_eq_ok_iff (hbs : bs.length < 2 ^ 32) {v : TypedVar} :
    (read : Reader Bytes DecodeError TypedVar) (layout valueType charset bs ++ rest) = .ok v t ↔
      ∃ value u, UserValue.read valueType (marksUnsigned rest.head?) bs = .ok value u ∧
        v = { valueType, charset, unsigned := marksUnsigned rest.head?, value } ∧
          t = rest.tail := by
  have htype : (u8 : Reader Bytes DecodeError UInt8) (layout valueType charset bs ++ rest) =
      .ok valueType (Bytes.ofNatLE 4 charset.toNat ++ (Bytes.ofNatLE 4 bs.length ++ bs) ++ rest) :=
    u8_eq_ok_iff.mpr rfl
  have hcharset : (u32 : Reader Bytes DecodeError UInt32) (Bytes.ofNatLE 4 charset.toNat ++
      (Bytes.ofNatLE 4 bs.length ++ bs) ++ rest) =
        .ok charset (Bytes.ofNatLE 4 bs.length ++ bs ++ rest) :=
    u32_eq_ok_iff.mpr (List.append_assoc ..)
  have hbytes : (takePrefixed 4 : Reader Bytes DecodeError Bytes)
      (Bytes.ofNatLE 4 bs.length ++ bs ++ rest) = .ok bs rest :=
    (takePrefixed_eq_ok_iff (by decide)).mpr ⟨hbs, rfl⟩
  rw [read_eq, bind_of_ok htype, bind_of_ok hcharset, bind_of_ok hbytes,
    bind_of_ok (readFlags_eq rest), getD_and_one_bne]
  simp only [bind_eq_ok_iff, within_eq_ok_iff, pure_eq_ok_iff]
  refine ⟨?_, ?_⟩
  · rintro ⟨value, _, ⟨⟨u, hread⟩, rfl⟩, rfl, rfl⟩
    exact ⟨value, u, hread, rfl, rfl⟩
  · rintro ⟨value, u, hread, rfl, rfl⟩
    exact ⟨value, _, ⟨⟨u, hread⟩, rfl⟩, rfl, rfl⟩

end TypedVar

namespace UserVar

/-- The bytes of a name. -/
def encodeName (name : String) : Bytes :=
  Bytes.ofNatLE 4 (Utf8.encode name).length ++ Utf8.encode name

variable {name : String}

/-- The name is read, and then whether there is a value. -/
theorem read_encodeName (hname : (Utf8.encode name).length < 2 ^ 32) (isNull : UInt8)
    (rest : Bytes) :
    (read : Reader Bytes DecodeError UserVar) (encodeName name ++ isNull :: rest) =
      (if isNull != 0 then return { name, value := none }
        else return { name, value := some (← TypedVar.read) } : Reader Bytes _ _) rest := by
  have hprefix : (takePrefixed 4 : Reader Bytes DecodeError Bytes)
      (encodeName name ++ isNull :: rest) = .ok (Utf8.encode name) (isNull :: rest) :=
    (takePrefixed_eq_ok_iff (by decide)).mpr ⟨hname, rfl⟩
  have htext : (strictText (Utf8.encode name) : Reader Bytes DecodeError String)
      (isNull :: rest) = .ok name (isNull :: rest) := strictText_eq_ok_iff.mpr ⟨rfl, rfl⟩
  rw [read, bind_of_ok hprefix, bind_of_ok htext, bind_of_ok (u8_eq_ok_iff.mpr rfl)]

theorem read_null (hname : (Utf8.encode name).length < 2 ^ 32) {isNull : UInt8}
    (hnull : isNull ≠ 0) : (read : Reader Bytes DecodeError UserVar) (encodeName name ++ [isNull]) =
      .ok { name, value := none } [] := by
  rw [read_encodeName hname, if_pos (bne_iff_ne.mpr hnull)]
  rfl

theorem read_value_eq_ok_iff (hname : (Utf8.encode name).length < 2 ^ 32) {bs t : Bytes}
    {var : UserVar} :
    (read : Reader Bytes DecodeError UserVar) (encodeName name ++ 0 :: bs) = .ok var t ↔
      ∃ v, (TypedVar.read : Reader Bytes DecodeError TypedVar) bs = .ok v t ∧
        var = { name, value := some v } := by
  rw [read_encodeName hname, if_neg (by decide)]
  simp only [bind_eq_ok_iff, pure_eq_ok_iff]
  refine ⟨?_, ?_⟩
  · rintro ⟨v, _, hread, rfl, rfl⟩
    exact ⟨v, hread, rfl⟩
  · rintro ⟨v, hread, rfl⟩
    exact ⟨v, t, hread, rfl, rfl⟩

/-- The bytes of a variable that is not NULL, in front of any bytes. -/
def body (name : String) (valueType : UInt8) (charset : UInt32) (bs rest : Bytes) : Bytes :=
  encodeName name ++ 0 :: (TypedVar.layout valueType charset bs ++ rest)

/-- **Any bytes.** What is read depends on the type, the bytes of the value and the flags. -/
theorem read_body_eq_ok_iff (hname : (Utf8.encode name).length < 2 ^ 32) {valueType : UInt8}
    {charset : UInt32} {bs rest t : Bytes} (hbs : bs.length < 2 ^ 32) {var : UserVar} :
    (read : Reader Bytes DecodeError UserVar) (body name valueType charset bs rest) = .ok var t ↔
      ∃ value u,
        UserValue.read valueType (TypedVar.marksUnsigned rest.head?) bs = .ok value u ∧
          var = { name, value := some { valueType, charset, value,
                                        unsigned := TypedVar.marksUnsigned rest.head? } } ∧
          t = rest.tail := by
  rw [body, read_value_eq_ok_iff hname]
  simp only [TypedVar.read_layout_eq_ok_iff hbs]
  refine ⟨?_, ?_⟩
  · rintro ⟨_, ⟨value, u, hread, rfl, rfl⟩, rfl⟩
    exact ⟨value, u, hread, rfl, rfl⟩
  · rintro ⟨value, u, hread, rfl, rfl⟩
    exact ⟨_, ⟨value, u, hread, rfl, rfl⟩, rfl⟩

/-- A written value is read from the body of a variable, to its end. -/
theorem read_body_written (hname : (Utf8.encode name).length < 2 ^ 32) (charset : UInt32)
    {v : WrittenValue} {flags : Option UInt8} (hfits : v.Fits) (hlen : v.encode.length < 2 ^ 32)
    (hflags : v.Allows flags) :
    (read : Reader Bytes DecodeError UserVar)
        (body name v.valueType charset v.encode flags.toList) =
      .ok { name, value := some { valueType := v.valueType, charset, value := v.meaning,
                                  unsigned := TypedVar.marksUnsigned flags } } [] := by
  have hhead : flags.toList.head? = flags := by cases flags <;> rfl
  have htail : flags.toList.tail = [] := by cases flags <;> rfl
  refine (read_body_eq_ok_iff hname hlen).mpr ⟨v.meaning, [], ?_, ?_, htail.symm⟩
  · rw [hhead]
    exact WrittenValue.read_encode hfits hflags
  · rw [hhead]

/-- The same eight bytes are a number of either kind, as the flags say. -/
theorem read_body_integer (hname : (Utf8.encode name).length < 2 ^ 32) (charset : UInt32)
    (n : UInt64) (flags : Option UInt8) :
    (read : Reader Bytes DecodeError UserVar)
        (body name 2 charset (Bytes.ofNatLE 8 n.toNat) flags.toList) =
      .ok { name, value := some { valueType := 2, charset,
                                  value := if TypedVar.marksUnsigned flags then .uint n
                                    else .int n.toInt64,
                                  unsigned := TypedVar.marksUnsigned flags } } [] := by
  have hlen : (Bytes.ofNatLE 8 n.toNat).length < 2 ^ 32 := by
    rw [Bytes.length_ofNatLE]
    decide
  cases hmark : TypedVar.marksUnsigned flags with
  | true =>
    have hread := read_body_written hname charset (v := .uint n) True.intro hlen hmark
    rw [hmark] at hread
    exact hread
  | false =>
    have hbytes : (WrittenValue.int n.toInt64).encode = Bytes.ofNatLE 8 n.toNat := by
      rw [WrittenValue.encode, UInt64.toUInt64_toInt64]
    rw [← hbytes] at hlen ⊢
    have hread := read_body_written hname charset (v := .int n.toInt64) True.intro hlen hmark
    rw [hmark] at hread
    exact hread

/-! ## The main result -/

/-- **User variables.** A variable is read from what is written, with nothing left: NULL from any
byte but zero behind the name, and else the value with its type, its character set and the one flag
that is named, if a byte of flags is there. Strings that are UTF-8 and the numbers of decimals are
as they were written. A value is unsigned exactly if its type is that of integers and the lowest bit
of the byte behind it is set; the same bytes are else the number in two's complement. -/
theorem read_written (hname : (Utf8.encode name).length < 2 ^ 32) (charset : UInt32) :
    (∀ isNull : UInt8, isNull ≠ 0 → (read : Reader Bytes DecodeError UserVar)
      (encodeName name ++ [isNull]) = .ok { name, value := none } []) ∧
    (∀ (v : WrittenValue) (flags : Option UInt8), v.Fits → v.encode.length < 2 ^ 32 →
      v.Allows flags → ∃ typed : TypedVar,
        (read : Reader Bytes DecodeError UserVar)
            (body name v.valueType charset v.encode flags.toList) =
          .ok { name, value := some typed } [] ∧
        typed.valueType = v.valueType ∧ typed.charset = charset ∧
        typed.flags = flags.getD 0 &&& 1 ∧ typed.value = v.meaning) ∧
    (∀ text, (WrittenValue.string (Utf8.encode text)).meaning = .string text) ∧
    (∀ precision scale negative integer fraction,
      (WrittenValue.decimal precision scale negative integer fraction).Fits → ∃ d : Decimal,
        (WrittenValue.decimal precision scale negative integer fraction).meaning = .decimal d ∧
        d.toScaled = ⟨if negative then -(integer * 10 ^ scale.toNat + fraction : Nat)
          else (integer * 10 ^ scale.toNat + fraction : Nat), scale.toNat⟩) ∧
    (∀ (valueType : UInt8) (bs rest t : Bytes) (var : UserVar), bs.length < 2 ^ 32 →
      (read : Reader Bytes DecodeError UserVar) (body name valueType charset bs rest) =
          .ok var t →
        ((∃ typed n, var.value = some typed ∧ typed.value = .uint n) ↔
          valueType = 2 ∧ TypedVar.marksUnsigned rest.head? = true)) ∧
    ∀ bs : Bytes, bs.length = 8 → ∃ n : UInt64, bs = Bytes.ofNatLE 8 n.toNat ∧
      (n.toInt64.toInt = if n.toNat < 2 ^ 63 then (n.toNat : Int) else n.toNat - 2 ^ 64) ∧
      ∀ flags : Option UInt8, ∃ typed : TypedVar,
        (read : Reader Bytes DecodeError UserVar) (body name 2 charset bs flags.toList) =
          .ok { name, value := some typed } [] ∧
        typed.value = if TypedVar.marksUnsigned flags then .uint n else .int n.toInt64 := by
  refine ⟨fun isNull => read_null hname, fun v flags hfits hlen hflags => ?_, fun text => ?_, ?_,
    ?_, fun bs hlen => ?_⟩
  · exact ⟨_, read_body_written hname charset hfits hlen hflags, rfl, rfl,
      (TypedVar.getD_and_one flags).symm, rfl⟩
  · exact congrArg UserValue.string (Utf8.decodeLossy_encode text)
  · rintro precision scale negative integer fraction ⟨-, hinteger, hfraction⟩
    exact ⟨_, rfl, Decimal.toScaled_cut hinteger hfraction negative⟩
  · intro valueType bs rest t var hlen hread
    obtain ⟨value, u, hvalue, rfl, rfl⟩ := (read_body_eq_ok_iff hname hlen).mp hread
    rw [← UserValue.exists_uint_iff hvalue]
    simp
  · obtain ⟨n, rest, rfl⟩ := Bytes.exists_word (Nat.le_of_eq hlen.symm)
    rw [List.length_append, Bytes.length_ofNatLE] at hlen
    obtain rfl : rest = [] := List.eq_nil_of_length_eq_zero (by omega)
    rw [List.append_nil]
    exact ⟨n, rfl, WriteStep.toInt_toInt64 n, fun flags =>
      ⟨_, read_body_integer hname charset n flags, rfl⟩⟩

/-- Eight bytes with all bits set, marked and without flags, and a decimal. -/
theorem read_written_all_bits :
    let bits : Bytes := List.replicate 8 0xff
    (Utf8.encode "n").length < 2 ^ 32 ∧
      (WrittenValue.uint 0xffffffffffffffff).Fits ∧
      (WrittenValue.uint 0xffffffffffffffff).encode = bits ∧
      (WrittenValue.uint 0xffffffffffffffff).Allows (some 3) ∧
      (∃ typed : TypedVar, (read : Reader Bytes DecodeError UserVar)
          ([1, 0, 0, 0, 0x6e, 0, 2, 33, 0, 0, 0, 8, 0, 0, 0] ++ bits ++ [3]) =
        .ok { name := "n", value := some typed } [] ∧ typed.flags = 1 ∧
          typed.value = .uint 0xffffffffffffffff) ∧
      (∃ typed : TypedVar, (read : Reader Bytes DecodeError UserVar)
          ([1, 0, 0, 0, 0x6e, 0, 2, 33, 0, 0, 0, 8, 0, 0, 0] ++ bits) =
        .ok { name := "n", value := some typed } [] ∧ typed.flags = 0 ∧
          typed.value = .int (-1)) ∧
      ∃ typed : TypedVar, (read : Reader Bytes DecodeError UserVar)
          [1, 0, 0, 0, 0x6e, 0, 4, 33, 0, 0, 0, 4, 0, 0, 0, 3, 1, 0x8c, 0x05, 6] =
        .ok { name := "n", value := some typed } [] ∧ typed.flags = 0 ∧
          typed.value = .decimal (.cut 3 1 false 12 5) := by
  intro bits
  have hname : (Utf8.encode "n").length < 2 ^ 32 := by decide +kernel
  have hvalues := (read_written hname 33).2.1
  have hmarked := hvalues (.uint 0xffffffffffffffff) (some 3) True.intro (by decide) rfl
  have hbare := hvalues (.int (-1)) none True.intro (by decide) rfl
  have hdecimal := hvalues (.decimal 3 1 false 12 5) (some 6) (by decide) (by decide) True.intro
  obtain ⟨unsigned, hread, -, -, hflags, hvalue⟩ := hmarked
  obtain ⟨signed, hread', -, -, hflags', hvalue'⟩ := hbare
  obtain ⟨decimal, hread'', -, -, hflags'', hvalue''⟩ := hdecimal
  refine ⟨hname, True.intro, by decide, rfl, ⟨unsigned, ?_, hflags, hvalue⟩,
    ⟨signed, ?_, hflags', hvalue'⟩, ⟨decimal, ?_, hflags'', hvalue''⟩⟩
  · exact hread
  · exact hread'
  · exact hread''

end UserVar

end Binlog
