import Flowstate.Rust

/-!
# Protobuf wire format, encoding side

The proto3 encoding rules : a field is its key varint followed by its payload, scalar
fields equal to their default are left out, a repeated `double` is one packed record and
is left out when empty, a repeated message is one length-delimited record per element.
Fields are written in the order of their tags.
-/

namespace Protobuf

/-- A byte list. -/
abbrev Bytes := List UInt8

/-- `encode_varint` : seven bits a byte, least significant first, at most `fuel` bytes. -/
def varintFuel : ℕ → UInt64 → Bytes
  | 0, _ => []
  | fuel + 1, value =>
    if value < 0x80 then [value.toUInt8]
    else (value.toUInt8 &&& 0x7F ||| 0x80) :: varintFuel fuel (value >>> 7)

/-- A 64-bit value takes at most ten bytes. -/
def varint (value : UInt64) : Bytes := varintFuel 10 value

example : varint 300 = [0xAC, 0x02] := by decide

/-! ## Varints without a bound -/

theorem toNat_shiftRight_seven (value : UInt64) : (value >>> 7).toNat = value.toNat / 2 ^ 7 :=
  Rust.toNat_shiftRight value (show 7 < 64 by decide)

/-- Fuel beyond what a value needs changes nothing. -/
theorem varintFuel_succ {n : ℕ} {value : UInt64} (h : value.toNat < 2 ^ (7 * (n + 1))) :
    varintFuel (n + 2) value = varintFuel (n + 1) value := by
  induction n generalizing value with
  | zero =>
    have hsmall : value < 0x80 := UInt64.lt_iff_toNat_lt.2 h
    simp only [varintFuel, if_pos hsmall]
  | succ n ih =>
    have hrest : (value >>> 7).toNat < 2 ^ (7 * (n + 1)) := by
      rw [toNat_shiftRight_seven, Nat.div_lt_iff_lt_mul (by decide), ← pow_add]
      exact h
    conv_lhs => rw [varintFuel, ih hrest]
    rfl

/-- Ten bytes are enough : `varint` is the recursion it bounds. -/
theorem varint_eq (value : UInt64) : varint value =
    if value < 0x80 then [value.toUInt8]
    else (value.toUInt8 &&& 0x7F ||| 0x80) :: varint (value >>> 7) := by
  have hrest : (value >>> 7).toNat < 2 ^ (7 * (8 + 1)) := by
    have hlt := value.toNat_lt
    rw [toNat_shiftRight_seven]
    omega
  conv_lhs => rw [varint, varintFuel, ← varintFuel_succ hrest]
  rfl

theorem varint_of_lt {value : UInt64} (h : value < 0x80) : varint value = [value.toUInt8] := by
  rw [varint_eq, if_pos h]

theorem varint_of_le {value : UInt64} (h : ¬value < 0x80) :
    varint value = (value.toUInt8 &&& 0x7F ||| 0x80) :: varint (value >>> 7) := by
  rw [varint_eq, if_neg h]

theorem varint_ne_nil (value : UInt64) : varint value ≠ [] := by
  rw [varint_eq]
  split_ifs <;> simp

/-- What holds of the one-byte values, and of a value when of its upper bits, holds of all. -/
theorem varint_induction {motive : UInt64 → Prop}
    (small : ∀ value : UInt64, value < 0x80 → motive value)
    (large : ∀ value : UInt64, ¬value < 0x80 → motive (value >>> 7) → motive value)
    (value : UInt64) : motive value := by
  induction hn : value.toNat using Nat.strong_induction_on generalizing value with
  | h n ih =>
    by_cases h : value < 0x80
    · exact small value h
    · have hle : 0x80 ≤ value.toNat := Nat.le_of_not_lt fun hlt => h (UInt64.lt_iff_toNat_lt.2 hlt)
      refine large value h (ih _ ?_ _ rfl)
      rw [toNat_shiftRight_seven]
      omega

theorem toNat_low (value : UInt64) : (value.toUInt8 &&& 0x7F).toNat = value.toNat % 2 ^ 7 := by
  have h7 : (0x7F : UInt8).toNat = 2 ^ 7 - 1 := rfl
  rw [UInt8.toNat_and, h7, Nat.and_two_pow_sub_one_eq_mod, UInt64.toNat_toUInt8]
  exact Nat.mod_mod_of_dvd _ (by decide)

theorem low_of_lt {value : UInt64} (h : value < 0x80) :
    value.toUInt8 &&& 0x7F = value.toUInt8 := by
  have hlt : value.toNat < 2 ^ 7 := UInt64.lt_iff_toNat_lt.1 h
  rw [← UInt8.toNat_inj, toNat_low, UInt64.toNat_toUInt8]
  omega

/-! ## Fields -/

/-- The wire types in use. -/
inductive WireType
  | varint
  | sixtyFourBit
  | lengthDelimited

def WireType.code : WireType → UInt64
  | .varint => 0
  | .sixtyFourBit => 1
  | .lengthDelimited => 2

def key (tag : UInt64) (wireType : WireType) : Bytes :=
  varint (tag <<< 3 ||| wireType.code)

/-- A length-delimited record. -/
def record (tag : UInt64) (payload : Bytes) : Bytes :=
  key tag .lengthDelimited ++ varint (UInt64.ofNat payload.length) ++ payload

/-- A `uint64` field, and a `uint32` field by its value. -/
def uint64Field (tag value : UInt64) : Bytes :=
  if value = 0 then [] else key tag .varint ++ varint value

/-- A packed `repeated double` field, the values by their bit patterns. -/
def packedDoubleField (tag : UInt64) (bits : List UInt64) : Bytes :=
  if bits = [] then [] else record tag (bits.flatMap Rust.toLeBytes)

/-- A repeated message field, the elements already encoded. -/
def repeatedMessageField (tag : UInt64) (messages : List Bytes) : Bytes :=
  messages.flatMap (record tag)

/-- `encode_to_vec` : a message's bytes, if a `Vec` holds them (`isize::MAX` at most). -/
def encodeToVec (bytes : Bytes) : Except Rust.Panic Bytes :=
  if bytes.length < 2 ^ 63 then .ok bytes else .error ⟨"capacity overflow"⟩

theorem encodeToVec_eq_ok {bytes vec : Bytes} :
    encodeToVec bytes = .ok vec ↔ bytes = vec ∧ bytes.length < 2 ^ 63 := by
  unfold encodeToVec
  split_ifs with h
  · rw [Except.ok.injEq]
    exact ⟨fun heq => ⟨heq, h⟩, And.left⟩
  · simp only [false_iff, not_and]
    exact fun _ => h

end Protobuf
