import Flowstate.Protobuf

/-!
# Protobuf wire format, fields a reader does not know

A newer writer may add fields to a message. Such a field is well formed (`Field`) : a key and
a payload of a wire type in use, whatever its number. Varints need not be in the shortest
form (`IsVarint`), though a writer chooses it (`isMinimal_varint`). `Padded` places any number
of fields with unused numbers before, between and after the fields of an encoding.
-/

namespace Protobuf

/-! ## Varints of any form -/

/-- The bytes of a varint, seven bits each, of which the last one alone is below 128. -/
inductive Leb128 : Bytes → ℕ → Prop
  | last {b : UInt8} (h : b < 0x80) : Leb128 [b] b.toNat
  | more {b : UInt8} {bytes : Bytes} {n : ℕ} (h : ¬b < 0x80) (hrest : Leb128 bytes n) :
    Leb128 (b :: bytes) (b.toNat % 2 ^ 7 + 2 ^ 7 * n)

/-- A varint of `value`, in ten bytes at most. -/
structure IsVarint (bytes : Bytes) (value : UInt64) : Prop where
  leb128 : Leb128 bytes value.toNat
  length_le : bytes.length ≤ 10

theorem Leb128.ne_nil {bytes : Bytes} {n : ℕ} (h : Leb128 bytes n) : bytes ≠ [] := by
  cases h <;> simp

theorem leb128_varint (value : UInt64) : Leb128 (varint value) value.toNat := by
  induction value using varint_induction with
  | small value hsmall =>
    have hlt : value.toNat < 2 ^ 7 := UInt64.lt_iff_toNat_lt.1 hsmall
    have hbyte : value.toUInt8.toNat = value.toNat := by
      rw [UInt64.toNat_toUInt8]
      omega
    rw [varint_of_lt hsmall, ← hbyte]
    refine .last (UInt8.lt_iff_toNat_lt.2 ?_)
    rw [hbyte]
    exact hlt
  | large value hlarge ih =>
    have hcontinued : ∀ x : BitVec 8, ¬UInt8.ofBitVec (x &&& 0x7F ||| 0x80) < 0x80 := by decide
    have hbits : ∀ x : BitVec 8,
        (UInt8.ofBitVec (x &&& 0x7F ||| 0x80)).toNat % 2 ^ 7 = (x &&& 0x7F).toNat := by decide
    have hlow : (value.toUInt8 &&& 0x7F ||| 0x80).toNat % 2 ^ 7 = value.toNat % 2 ^ 7 := by
      rw [← toNat_low]
      exact hbits value.toUInt8.toBitVec
    have hvalue : (value.toUInt8 &&& 0x7F ||| 0x80).toNat % 2 ^ 7 + 2 ^ 7 * (value >>> 7).toNat =
        value.toNat := by
      rw [hlow, toNat_shiftRight_seven]
      exact Nat.mod_add_div _ _
    rw [varint_of_le hlarge, ← hvalue]
    exact .more (hcontinued value.toUInt8.toBitVec) ih

theorem length_varintFuel_le (fuel : ℕ) (value : UInt64) :
    (varintFuel fuel value).length ≤ fuel := by
  induction fuel generalizing value with
  | zero => exact Nat.zero_le _
  | succ fuel ih =>
    unfold varintFuel
    split_ifs
    · exact Nat.succ_le_succ (Nat.zero_le _)
    · exact Nat.succ_le_succ (ih _)

/-- What `encode_varint` writes. -/
theorem isVarint_varint (value : UInt64) : IsVarint (varint value) value :=
  ⟨leb128_varint value, length_varintFuel_le 10 value⟩

/-! ## The shortest form -/

/-- The bytes are the shortest encoding of the value, and the only one of their length. -/
structure IsMinimal (bytes : Bytes) (n : ℕ) : Prop where
  leb128 : Leb128 bytes n
  shortest : ∀ other, Leb128 other n → bytes.length ≤ other.length
  unique : ∀ other, Leb128 other n → other.length = bytes.length → other = bytes

theorem Leb128.length_pos {bytes : Bytes} {n : ℕ} (h : Leb128 bytes n) : 0 < bytes.length :=
  List.length_pos_iff.2 h.ne_nil

/-- A byte that continues a varint is determined by its low bits. -/
theorem continued_eq {value : UInt64} {b : UInt8} (hb : ¬b < 0x80)
    (hlow : b.toNat % 2 ^ 7 = value.toNat % 2 ^ 7) : value.toUInt8 &&& 0x7F ||| 0x80 = b := by
  have hbits : ∀ x : BitVec 8, ¬UInt8.ofBitVec x < 0x80 →
      UInt8.ofBitVec (x &&& 0x7F ||| 0x80) = UInt8.ofBitVec x := by decide
  have h7 : (0x7F : UInt8).toNat = 2 ^ 7 - 1 := rfl
  have hbyte : (b &&& 0x7F).toNat = b.toNat % 2 ^ 7 := by
    rw [UInt8.toNat_and, h7, Nat.and_two_pow_sub_one_eq_mod]
  have heq : value.toUInt8 &&& 0x7F = b &&& 0x7F := by
    rw [← UInt8.toNat_inj, toNat_low, hbyte, hlow]
  rw [heq]
  exact hbits b.toBitVec hb

/-- No encoding is shorter than the one written, and no other is as short. -/
theorem Leb128.varint_le {bytes : Bytes} {n : ℕ} (h : Leb128 bytes n) {value : UInt64}
    (hn : value.toNat = n) : (varint value).length ≤ bytes.length ∧
      (bytes.length = (varint value).length → bytes = varint value) := by
  induction h generalizing value with
  | @last b hb =>
    have hsmall : value < 0x80 := by
      rw [UInt64.lt_iff_toNat_lt, hn]
      exact UInt8.lt_iff_toNat_lt.1 hb
    have hbyte : value.toUInt8 = b := by
      rw [← UInt8.toNat_inj, UInt64.toNat_toUInt8, hn]
      exact Nat.mod_eq_of_lt b.toNat_lt
    rw [varint_of_lt hsmall, hbyte]
    exact ⟨le_rfl, fun _ => rfl⟩
  | @more b bytes n hb hrest ih =>
    by_cases hsmall : value < 0x80
    · have hpos := hrest.length_pos
      rw [varint_of_lt hsmall, List.length_singleton, List.length_cons]
      exact ⟨by omega, fun h => by omega⟩
    · have hupper : (value >>> 7).toNat = n := by
        rw [toNat_shiftRight_seven, hn]
        omega
      obtain ⟨hle, heq⟩ := ih hupper
      rw [varint_of_le hsmall, continued_eq hb (by omega)]
      simp only [List.length_cons, List.cons.injEq, true_and]
      exact ⟨by omega, fun h => heq (by omega)⟩

/-- What `encode_varint` writes is minimal. -/
theorem isMinimal_varint (value : UInt64) : IsMinimal (varint value) value.toNat :=
  ⟨leb128_varint value, fun _ h => (h.varint_le rfl).1, fun _ h => (h.varint_le rfl).2⟩

/-! ## Fields of any number -/

/-- What may follow a key of the wire type. A record is shorter than 2^31. -/
inductive Payload : ℕ → Bytes → Prop
  | varint {bytes : Bytes} {value : UInt64} (h : IsVarint bytes value) : Payload 0 bytes
  | fixed64 {bytes : Bytes} (h : bytes.length = 8) : Payload 1 bytes
  | lengthDelimited {length bytes : Bytes} (h : IsVarint length (UInt64.ofNat bytes.length))
    (hlt : bytes.length < 2 ^ 31) : Payload 2 (length ++ bytes)
  | fixed32 {bytes : Bytes} (h : bytes.length = 4) : Payload 5 bytes

/-- A field of the number. -/
inductive Field (number : ℕ) : Bytes → Prop
  | mk {wireType : ℕ} {key payload : Bytes} (hpos : 0 < number) (hlt : number < 2 ^ 29)
    (hkey : IsVarint key (UInt64.ofNat (8 * number + wireType))) (h : Payload wireType payload) :
    Field number (key ++ payload)

/-- Fields whose numbers are not `used`, one after the other. -/
inductive Unknown (used : List ℕ) : Bytes → Prop
  | nil : Unknown used []
  | cons {number : ℕ} {field rest : Bytes} (hfield : Field number field)
    (hunused : number ∉ used) (hrest : Unknown used rest) : Unknown used (field ++ rest)

/-- The fields of an encoding, with unknown ones at their boundaries. -/
inductive Padded (used : List ℕ) : List Bytes → Bytes → Prop
  | nil {pad : Bytes} (hpad : Unknown used pad) : Padded used [] pad
  | cons {pad field bytes : Bytes} {fields : List Bytes} (hpad : Unknown used pad)
    (hrest : Padded used fields bytes) : Padded used (field :: fields) (pad ++ (field ++ bytes))

/-- Nothing need be added. -/
theorem Padded.flatten (used : List ℕ) (fields : List Bytes) :
    Padded used fields fields.flatten := by
  induction fields with
  | nil => exact .nil .nil
  | cons field fields ih => exact .cons .nil ih

end Protobuf
