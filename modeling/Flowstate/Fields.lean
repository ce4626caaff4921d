import Flowstate.Codec
import Flowstate.Unknown

/-!
# The codec, field by field

What the Godot writer appends for a field is the field of the wire format. What the reader
takes from it is the value : a reader that stands before a field (`Ahead`) reads it and
stands before the rest. The loop of a decoder comes past one field after the other (`Loads`),
whatever follows.
-/

open Protobuf

namespace Flowstate.Godot

/-! ## Writing -/

namespace ByteWriter

theorem unsignedShr_eq_zero (value : Int64) :
    unsignedShr value 7 = 0 ↔ value.toUInt64 < 0x80 := by
  have h : unsignedShr value 7 = 0 ↔ (unsignedShr value 7).toUInt64.toNat = 0 := by
    constructor
    · intro h
      rw [h]
      rfl
    · intro h
      exact congrArg UInt64.toInt64 (UInt64.toNat_inj.1 h : _ = (0 : UInt64))
  have h128 : (0x80 : UInt64).toNat = 128 := rfl
  rw [h, toUInt64_unsignedShr, toNat_shiftRight_seven, UInt64.lt_iff_toNat_lt]
  omega

theorem toUInt8_and (value : Int64) :
    (value &&& 0x7F).toUInt64.toUInt8 = value.toUInt64.toUInt8 &&& 0x7F :=
  UInt64.toUInt8_and _ _

/-- The varint emulated on signed integers is the unsigned one. -/
theorem bytes_writeVarint (w : ByteWriter) (value : Int64) :
    (w.writeVarint value).bytes = w.bytes ++ varint value.toUInt64 := by
  fun_induction writeVarint w value with
  | case1 w value byte rest hrest ih =>
    have hge : ¬value.toUInt64 < 0x80 := fun hlt => hrest ((unsignedShr_eq_zero value).2 hlt)
    have hbyte : (byte ||| 0x80).toUInt64.toUInt8 = value.toUInt64.toUInt8 &&& 0x7F ||| 0x80 := by
      rw [Int64.toUInt64_or, UInt64.toUInt8_or, toUInt8_and]
      rfl
    rw [ih, varint_of_le hge, ← toUInt64_unsignedShr, PackedByteArray.append, hbyte,
      List.append_assoc, List.singleton_append]
  | case2 w value byte rest hrest =>
    have hlt : value.toUInt64 < 0x80 := (unsignedShr_eq_zero value).1 (not_not.1 hrest)
    have hbyte : byte.toUInt64.toUInt8 = value.toUInt64.toUInt8 := by
      rw [toUInt8_and, low_of_lt hlt]
    rw [varint_of_lt hlt, PackedByteArray.append, hbyte]

theorem bytes_writeTag (w : ByteWriter) (fieldNumber : Int64) (wireType : WireType) :
    (w.writeTag fieldNumber wireType.code.toInt64).bytes =
      w.bytes ++ key fieldNumber.toUInt64 wireType := by
  rw [writeTag, bytes_writeVarint]
  rfl

theorem bytes_foldl_writeDouble (w : ByteWriter) (values : PackedFloat64Array) :
    (values.foldl writeDouble w).bytes = w.bytes ++ values.flatMap Rust.toLeBytes := by
  induction values generalizing w with
  | nil => simp
  | cons value values ih => rw [List.foldl_cons, ih, writeDouble, List.append_assoc,
      List.flatMap_cons]

end ByteWriter

namespace WireCodec

open ByteWriter

theorem bytes_writeScalar (w : ByteWriter) (fieldNumber value : Int64) :
    (writeScalar w fieldNumber value).bytes =
      w.bytes ++ uint64Field fieldNumber.toUInt64 value.toUInt64 := by
  have hzero : value = 0 ↔ value.toUInt64 = 0 :=
    ⟨congrArg Int64.toUInt64, congrArg UInt64.toInt64⟩
  unfold writeScalar uint64Field
  by_cases h : value = 0
  · rw [if_neg (not_not.2 h), if_pos (hzero.1 h), List.append_nil]
  · have htag := bytes_writeTag w fieldNumber .varint
    rw [if_pos h, if_neg (mt hzero.2 h), bytes_writeVarint, ← List.append_assoc, ← htag]
    rfl

theorem length_flatMap_toLeBytes (values : PackedFloat64Array) :
    (values.flatMap Rust.toLeBytes).length = values.length * 8 := by
  rw [List.length_flatMap]
  simp [PackedByteArray.length_toLeBytes]

theorem bytes_writePackedDoubles (w : ByteWriter) (fieldNumber : Int64)
    (values : PackedFloat64Array) :
    (writePackedDoubles w fieldNumber values).bytes =
      w.bytes ++ packedDoubleField fieldNumber.toUInt64 values := by
  unfold writePackedDoubles packedDoubleField
  by_cases h : values = []
  · rw [if_pos (List.length_eq_zero_iff.2 h), if_pos h, List.append_nil]
  · have hlen : (Int64.ofNat values.length * 8).toUInt64 =
        UInt64.ofNat (values.flatMap Rust.toLeBytes).length := by
      rw [length_flatMap_toLeBytes, UInt64.ofNat_mul]
      rfl
    have htag := bytes_writeTag w fieldNumber .lengthDelimited
    rw [if_neg (mt List.length_eq_zero_iff.1 h), if_neg h, bytes_foldl_writeDouble,
      bytes_writeVarint, hlen, record, ← List.append_assoc, ← List.append_assoc, ← htag]
    rfl

theorem bytes_foldl_writeEntity (w : ByteWriter) (entities : List EntitySnapshotProto) :
    (entities.foldl writeEntity w).bytes =
      w.bytes ++ repeatedMessageField 2 (entities.map encodeEntitySnapshotProto) := by
  induction entities generalizing w with
  | nil => simp [repeatedMessageField]
  | cons entity entities ih =>
    have hone : (writeEntity w entity).bytes =
        w.bytes ++ record 2 (encodeEntitySnapshotProto entity) := by
      have htag := bytes_writeTag w 2 .lengthDelimited
      rw [writeEntity, writeBytes, bytes_writeVarint, record, ← List.append_assoc,
        ← List.append_assoc]
      exact congrArg (· ++ _ ++ _) htag
    rw [List.foldl_cons, ih, hone, List.append_assoc, repeatedMessageField,
      repeatedMessageField, List.map_cons, List.flatMap_cons]

end WireCodec

/-! ## Reading -/

open Logged

@[simp] theorem value?_append {α : Type} (xs : List α) (x : α) :
    (append xs x).value? = some (xs ++ [x]) := rfl

namespace ByteReader

@[simp] theorem value?_advance (n : Int64) (r : ByteReader) :
    (r.advance n).value? = some { r with pos := r.pos + n } := rfl

/-- The reader stands before `rest`. -/
def Ahead (r : ByteReader) (rest : PackedByteArray) : Prop :=
  r.bytes.length < 2 ^ 63 ∧ ∃ read, r.bytes = read ++ rest ∧ r.pos = Int64.ofNat read.length

variable {r : ByteReader} {part rest : PackedByteArray}

theorem Ahead.new (h : rest.length < 2 ^ 63) : (ByteReader.new rest).Ahead rest :=
  ⟨h, [], rfl, rfl⟩

/-- Past `part`. -/
theorem Ahead.advance (h : r.Ahead (part ++ rest)) :
    Ahead { r with pos := r.pos + Int64.ofNat part.length } rest := by
  obtain ⟨hlen, read, hbytes, hpos⟩ := h
  refine ⟨hlen, read ++ part, ?_, ?_⟩
  · rw [List.append_assoc, hbytes]
  · rw [hpos, List.length_append, Int64.ofNat_add]

theorem Ahead.tail {b : UInt8} (h : r.Ahead (b :: rest)) :
    Ahead { r with pos := r.pos + 1 } rest := by
  rw [← List.singleton_append] at h
  exact h.advance

theorem Ahead.length_lt (h : r.Ahead rest) : rest.length < 2 ^ 63 := by
  obtain ⟨hlen, read, hbytes, -⟩ := h
  rw [hbytes, List.length_append] at hlen
  omega

theorem Ahead.get? {b : UInt8} (h : r.Ahead (b :: rest)) : r.bytes.get? r.pos = some b := by
  obtain ⟨hlen, read, hbytes, hpos⟩ := h
  rw [hbytes] at hlen ⊢
  rw [hpos, PackedByteArray.get?_append hlen]

theorem Ahead.hasMore (h : r.Ahead rest) : r.hasMore = !rest.isEmpty := by
  obtain ⟨hlen, read, hbytes, hpos⟩ := h
  have hread : read.length < 2 ^ 63 := by
    rw [hbytes, List.length_append] at hlen
    omega
  have hlt : r.pos < r.bytes.size ↔ rest ≠ [] := by
    rw [hpos, PackedByteArray.size, Int64.ofNat_lt_iff_lt hread hlen, hbytes, List.length_append,
      Nat.lt_add_right_iff_pos, List.length_pos_iff]
  rw [Bool.eq_iff_iff, ByteReader.hasMore, decide_eq_true_iff, hlt]
  simp

theorem Ahead.readBytes (h : r.Ahead (part ++ rest)) :
    ∃ r', (r.readBytes (Int64.ofNat part.length)).value? = some (part, r') ∧
      r'.Ahead rest := by
  refine ⟨_, ?_, h.advance⟩
  obtain ⟨hlen, read, hbytes, hpos⟩ := h
  rw [hbytes] at hlen
  have hslice : r.bytes.slice r.pos (r.pos + Int64.ofNat part.length) = part := by
    rw [hbytes, hpos, PackedByteArray.slice_append hlen]
  rw [ByteReader.readBytes, hslice]
  rfl

theorem Ahead.readDouble {value : UInt64} (h : r.Ahead (Rust.toLeBytes value ++ rest)) :
    ∃ r', r.readDouble.value? = some (value, r') ∧ r'.Ahead rest := by
  have hpast := h.advance
  rw [PackedByteArray.length_toLeBytes] at hpast
  refine ⟨_, ?_, hpast⟩
  obtain ⟨hlen, read, hbytes, hpos⟩ := h
  rw [hbytes] at hlen
  have hvalue : r.bytes.decodeDouble r.pos = value := by
    rw [hbytes, hpos, PackedByteArray.decodeDouble_append hlen]
  rw [ByteReader.readDouble, hvalue]
  rfl

theorem bits_low (b : UInt8) : b.toUInt64.toInt64 &&& 0x7F = (b &&& 0x7F).toUInt64.toInt64 :=
  rfl

theorem lt_iff_bits (b : UInt8) : b < 0x80 ↔ b.toUInt64.toInt64 &&& 0x80 = 0 := by
  have h : ∀ x : BitVec 8, x < 0x80 ↔ x.setWidth 64 &&& 0x80 = 0 := by decide
  rw [← Int64.toBitVec_inj]
  exact h b.toBitVec

theorem toNat_toUInt64_low (b : UInt8) : (b &&& 0x7F).toUInt64.toNat = b.toNat % 2 ^ 7 := by
  have h7 : (0x7F : UInt8).toNat = 2 ^ 7 - 1 := rfl
  rw [UInt8.toNat_toUInt64, UInt8.toNat_and, h7, Nat.and_two_pow_sub_one_eq_mod]

/-- A value of a low part and a rest is put in its place by its parts. -/
theorem low_or_rest {b : UInt8} {n s : ℕ} (hfit : b.toNat % 2 ^ 7 + 2 ^ 7 * n < 2 ^ 64)
    (hs : s + 7 < 64) :
    (b.toUInt64.toInt64 &&& 0x7F) <<< Int64.ofNat s |||
        (UInt64.ofNat n).toInt64 <<< Int64.ofNat (s + 7) =
      (UInt64.ofNat (b.toNat % 2 ^ 7 + 2 ^ 7 * n)).toInt64 <<< Int64.ofNat s := by
  obtain ⟨v, hv⟩ : ∃ v, v = UInt64.ofNat (b.toNat % 2 ^ 7 + 2 ^ 7 * n) := ⟨_, rfl⟩
  have hvnat : v.toNat = b.toNat % 2 ^ 7 + 2 ^ 7 * n := by
    rw [hv, UInt64.toNat_ofNat_of_lt' hfit]
  have hlow : (b &&& 0x7F).toUInt64 = v &&& 0x7F := by
    have h7 : (0x7F : UInt64).toNat = 2 ^ 7 - 1 := rfl
    rw [← UInt64.toNat_inj, toNat_toUInt64_low, UInt64.toNat_and, h7,
      Nat.and_two_pow_sub_one_eq_mod, hvnat]
    omega
  have hhigh : UInt64.ofNat n = v >>> 7 := by
    rw [← UInt64.toNat_inj, toNat_shiftRight_seven, hvnat,
      UInt64.toNat_ofNat_of_lt' (show n < 2 ^ 64 by omega)]
    omega
  rw [bits_low, hlow, hhigh, ← hv]
  exact Gdscript.low_or_high v hs

theorem readVarintLoop_last {b : UInt8} {fuel : ℕ} {result shift : Int64} (hb : b < 0x80)
    (h : r.Ahead (b :: rest)) :
    (readVarintLoop (fuel + 1) result shift r).value? =
      some (result ||| (b.toUInt64.toInt64 &&& 0x7F) <<< shift, { r with pos := r.pos + 1 }) := by
  rw [readVarintLoop_succ, h.get?]
  simp only [value?_bind, value?_ofOption, value?_advance, Option.bind_some,
    if_pos ((lt_iff_bits b).1 hb)]
  rfl

theorem readVarintLoop_more {b : UInt8} {fuel : ℕ} {result shift : Int64} (hb : ¬b < 0x80)
    (h : r.Ahead (b :: rest)) :
    (readVarintLoop (fuel + 1) result shift r).value? =
      (readVarintLoop fuel (result ||| (b.toUInt64.toInt64 &&& 0x7F) <<< shift) (shift + 7)
        { r with pos := r.pos + 1 }).value? := by
  rw [readVarintLoop_succ, h.get?]
  simp only [value?_bind, value?_ofOption, value?_advance, Option.bind_some,
    if_neg (mt (lt_iff_bits b).2 hb)]

/-- The loop at shift `s` adds the value, moved to its place, to what it has. -/
theorem readVarintLoop_leb128 {bytes : PackedByteArray} {n fuel s : ℕ} {result : Int64}
    (hbytes : Leb128 bytes n) (hfuel : bytes.length ≤ fuel) (hs : s + 7 * bytes.length < 71)
    (hfit : n * 2 ^ s < 2 ^ 64) (h : r.Ahead (bytes ++ rest)) :
    ∃ r', (readVarintLoop fuel result (Int64.ofNat s) r).value? =
      some (result ||| (UInt64.ofNat n).toInt64 <<< Int64.ofNat s, r') ∧ r'.Ahead rest := by
  have hn : n < 2 ^ 64 :=
    lt_of_le_of_lt (Nat.le_mul_of_pos_right n (Nat.two_pow_pos s)) hfit
  obtain ⟨fuel, rfl⟩ : ∃ k, fuel = k + 1 := Nat.exists_eq_succ_of_ne_zero (by
    have := List.length_pos_iff.2 hbytes.ne_nil
    omega)
  induction hbytes generalizing r fuel s result with
  | @last b hb =>
    have hvalue : b.toUInt64.toInt64 &&& 0x7F = (UInt64.ofNat b.toNat).toInt64 := by
      rw [bits_low]
      refine congrArg UInt64.toInt64 (UInt64.toNat_inj.1 ?_)
      rw [toNat_toUInt64_low, UInt64.toNat_ofNat_of_lt' hn]
      exact Nat.mod_eq_of_lt (UInt8.lt_iff_toNat_lt.1 hb)
    refine ⟨_, ?_, h.advance⟩
    rw [readVarintLoop_last hb h, hvalue]
    rfl
  | @more b bytes n hb hrest ih =>
    have hpos := List.length_pos_iff.2 hrest.ne_nil
    rw [List.length_cons] at hfuel hs
    obtain ⟨fuel, rfl⟩ : ∃ k, fuel = k + 1 := Nat.exists_eq_succ_of_ne_zero (by omega)
    have hfit' : n * 2 ^ (s + 7) < 2 ^ 64 := by
      refine lt_of_le_of_lt ?_ hfit
      rw [pow_add, Nat.mul_comm (2 ^ s), ← Nat.mul_assoc]
      exact Nat.mul_le_mul_right _ (by omega)
    have hshift : Int64.ofNat (s + 7) = Int64.ofNat s + 7 := Int64.ofNat_add s 7
    obtain ⟨r', hr', hahead⟩ := ih (by omega) hfit' h.tail (by omega) fuel
      (Nat.le_of_succ_le_succ hfuel)
    refine ⟨r', ?_, hahead⟩
    rw [readVarintLoop_more hb h, ← hshift, hr', Int64.or_assoc, low_or_rest hn (by omega)]

/-- A varint is read as the pattern of its value, in as many rounds as it has bytes. -/
theorem readVarint_of_length_le {bytes : PackedByteArray} {v : UInt64} {fuel : ℕ}
    (hbytes : IsVarint bytes v) (hfuel : bytes.length ≤ fuel) (h : r.Ahead (bytes ++ rest)) :
    ∃ r', (r.readVarint fuel).value? = some (v.toInt64, r') ∧ r'.Ahead rest := by
  have hten := hbytes.length_le
  have hfit : v.toNat * 2 ^ 0 < 2 ^ 64 := by
    rw [pow_zero, Nat.mul_one]
    exact v.toNat_lt
  have hloop : ∃ r', (readVarintLoop fuel 0 (Int64.ofNat 0) r).value? =
      some (0 ||| (UInt64.ofNat v.toNat).toInt64 <<< Int64.ofNat 0, r') ∧ r'.Ahead rest :=
    readVarintLoop_leb128 hbytes.leb128 hfuel (by omega) hfit h
  have hzero : (0 : Int64) ||| v.toInt64 <<< (0 : Int64) = v.toInt64 := by
    rw [Int64.zero_or]
    exact Int64.shiftLeft_zero
  obtain ⟨r', hr', hahead⟩ := hloop
  refine ⟨r', ?_, hahead⟩
  rw [UInt64.ofNat_toNat] at hr'
  rw [← hzero]
  exact hr'

/-- The same with rounds for everything that is left. -/
theorem readVarint_of_isVarint {bytes : PackedByteArray} {v : UInt64} {fuel : ℕ}
    (hbytes : IsVarint bytes v) (hfuel : (bytes ++ rest).length ≤ fuel)
    (h : r.Ahead (bytes ++ rest)) :
    ∃ r', (r.readVarint fuel).value? = some (v.toInt64, r') ∧ r'.Ahead rest := by
  rw [List.length_append] at hfuel
  exact readVarint_of_length_le hbytes (by omega) h

/-- A varint of the schema is read as the same pattern. -/
theorem readVarint_varint {v : UInt64} {fuel : ℕ} (hfuel : (varint v ++ rest).length ≤ fuel)
    (h : r.Ahead (varint v ++ rest)) :
    ∃ r', (r.readVarint fuel).value? = some (v.toInt64, r') ∧ r'.Ahead rest :=
  readVarint_of_isVarint (isVarint_varint v) hfuel h

theorem readTag_of_isVarint {bytes : PackedByteArray} {number wireType fuel : ℕ}
    (hnumber : number < 2 ^ 29) (htype : wireType < 8)
    (hbytes : IsVarint bytes (UInt64.ofNat (8 * number + wireType)))
    (hfuel : (bytes ++ rest).length ≤ fuel) (h : r.Ahead (bytes ++ rest)) :
    ∃ r', (r.readTag fuel).value? = some ((Int64.ofNat number, Int64.ofNat wireType), r') ∧
      r'.Ahead rest := by
  obtain ⟨r', hr', hahead⟩ := readVarint_of_isVarint hbytes hfuel h
  refine ⟨r', ?_, hahead⟩
  obtain ⟨hshift, hlow⟩ := Gdscript.ofNat_tag hnumber htype
  rw [readTag, value?_bind, hr', ← hshift, ← hlow]
  rfl

/-- Whatever follows a key is skipped. -/
theorem Ahead.skipField {payload : PackedByteArray} {wireType fuel : ℕ}
    (hpayload : Payload wireType payload) (hfuel : (payload ++ rest).length ≤ fuel)
    (h : r.Ahead (payload ++ rest)) :
    ∃ r', (r.skipField fuel (Int64.ofNat wireType)).value? = some r' ∧ r'.Ahead rest := by
  cases hpayload with
  | varint hbytes =>
    obtain ⟨r', hr', hahead⟩ := readVarint_of_isVarint hbytes hfuel h
    have htype : Int64.ofNat 0 = WireFormat.wireTypeVarint := rfl
    exact ⟨r', by rw [ByteReader.skipField, if_pos htype, value?_bind, hr']; rfl, hahead⟩
  | fixed64 hlen =>
    have hpast := h.advance
    rw [hlen] at hpast
    exact ⟨_, rfl, hpast⟩
  | lengthDelimited hlength hlt =>
    rw [List.append_assoc] at hfuel h
    obtain ⟨r', hr', hahead⟩ := readVarint_of_isVarint hlength hfuel h
    refine ⟨_, ?_, hahead.advance⟩
    have htype : Int64.ofNat 2 = WireFormat.wireTypeLengthDelimited := rfl
    rw [ByteReader.skipField, if_neg (by decide), if_neg (by decide), if_pos htype, value?_bind,
      hr']
    rfl
  | fixed32 hlen =>
    have hpast := h.advance
    rw [hlen] at hpast
    exact ⟨_, rfl, hpast⟩

theorem readTag_key {tag : UInt64} {wireType : WireType} {fuel : ℕ} (htag : tag < 0x10)
    (hfuel : (key tag wireType ++ rest).length ≤ fuel)
    (h : r.Ahead (key tag wireType ++ rest)) :
    ∃ r', (r.readTag fuel).value? = some ((tag.toInt64, wireType.code.toInt64), r') ∧
      r'.Ahead rest := by
  obtain ⟨r', hr', hahead⟩ := readVarint_varint hfuel h
  refine ⟨r', ?_, hahead⟩
  have hsmall : ∀ n < 16, (UInt64.ofNat n <<< 3 ||| wireType.code).toInt64 >>> 3 =
      (UInt64.ofNat n).toInt64 ∧
      (UInt64.ofNat n <<< 3 ||| wireType.code).toInt64 &&& 0x07 = wireType.code.toInt64 := by
    cases wireType <;> decide
  obtain ⟨hnumber, htype⟩ := hsmall tag.toNat (UInt64.lt_iff_toNat_lt.1 htag)
  rw [UInt64.ofNat_toNat] at hnumber htype
  rw [readTag, value?_bind, hr', ← hnumber, ← htype]
  rfl

end ByteReader

namespace WireCodec

open ByteReader

variable {M : Type} {onField : OnField M} {fuel : ℕ} {msg msg₁ msg₂ : M}
  {part part₁ part₂ rest : PackedByteArray} {r : ByteReader}

theorem readDoubles_flatMap {values result : PackedFloat64Array}
    (h : r.Ahead (values.flatMap Rust.toLeBytes ++ rest)) :
    ∃ r', (readDoubles values.length result r).value? = some (result ++ values, r') ∧
      r'.Ahead rest := by
  induction values generalizing r result with
  | nil => exact ⟨r, by rw [List.append_nil]; rfl, h⟩
  | cons value values ih =>
    rw [List.flatMap_cons, List.append_assoc] at h
    obtain ⟨r₁, hread, h₁⟩ := h.readDouble
    have hloop : ∃ r', (readDoubles values.length (result ++ [value]) r₁).value? =
        some (result ++ [value] ++ values, r') ∧ r'.Ahead rest := ih h₁
    rw [List.append_assoc, List.singleton_append] at hloop
    obtain ⟨r₂, hloop, h₂⟩ := hloop
    refine ⟨r₂, ?_, h₂⟩
    rw [List.length_cons, readDoubles, value?_bind, hread, Option.bind_some, value?_bind,
      value?_append, Option.bind_some]
    exact hloop

/-- The loop, before `part` with the message `msg`, comes past it with `msg'`. -/
def Loads (onField : OnField M) (fuel : ℕ) (msg : M) (part : PackedByteArray) (msg' : M) :
    Prop :=
  ∀ (r : ByteReader) (rest : PackedByteArray) (rounds : ℕ), r.Ahead (part ++ rest) →
    (part ++ rest).length ≤ fuel → (part ++ rest).length ≤ rounds →
    ∃ r' rounds', r'.Ahead rest ∧ rest.length ≤ rounds' ∧
      (decodeLoop onField fuel rounds msg r).value? =
        (decodeLoop onField fuel rounds' msg' r').value?

theorem Loads.nil : Loads onField fuel msg [] msg :=
  fun r _ rounds h _ hrounds => ⟨r, rounds, h, hrounds, rfl⟩

theorem Loads.append (h₁ : Loads onField fuel msg part₁ msg₁)
    (h₂ : Loads onField fuel msg₁ part₂ msg₂) :
    Loads onField fuel msg (part₁ ++ part₂) msg₂ := by
  intro r rest rounds h hfuel hrounds
  rw [List.append_assoc] at h hfuel hrounds
  obtain ⟨r₁, rounds₁, hr₁, hrounds₁, heq₁⟩ := h₁ r _ rounds h hfuel hrounds
  have hfuel₁ : (part₂ ++ rest).length ≤ fuel := by
    simp only [List.length_append] at hfuel ⊢
    omega
  obtain ⟨r₂, rounds₂, hr₂, hrounds₂, heq₂⟩ := h₂ r₁ rest rounds₁ hr₁ hfuel₁ hrounds₁
  exact ⟨r₂, rounds₂, hr₂, hrounds₂, heq₁.trans heq₂⟩

/-- One field : a tag, and a payload its branch of the decoder reads. -/
theorem Loads.tagged {bytes : PackedByteArray} {fieldNumber wireType : Int64} {msg' : M}
    (hne : bytes ≠ [])
    (htag : ∀ (r : ByteReader) (rest : PackedByteArray), r.Ahead (bytes ++ rest) →
      (bytes ++ rest).length ≤ fuel →
      ∃ r', (r.readTag fuel).value? = some ((fieldNumber, wireType), r') ∧ r'.Ahead rest)
    (hread : ∀ (r : ByteReader) (rest : PackedByteArray), r.Ahead (part ++ rest) →
      (part ++ rest).length ≤ fuel →
      ∃ r', (onField fieldNumber wireType msg r).value? = some (msg', r') ∧ r'.Ahead rest) :
    Loads onField fuel msg (bytes ++ part) msg' := by
  intro r rest rounds h hfuel hrounds
  rw [List.append_assoc] at h hfuel hrounds
  have hpos := List.length_pos_iff.2 hne
  obtain ⟨rounds, rfl⟩ : ∃ n, rounds = n + 1 := Nat.exists_eq_succ_of_ne_zero (by
    rw [List.length_append] at hrounds
    omega)
  have hmore : r.hasMore = true := by
    rw [h.hasMore]
    simp [hne]
  obtain ⟨r₁, htag₁, h₁⟩ := htag r _ h hfuel
  have hfuel₁ : (part ++ rest).length ≤ fuel := by
    simp only [List.length_append] at hfuel ⊢
    omega
  obtain ⟨r₂, hfield, h₂⟩ := hread r₁ rest h₁ hfuel₁
  refine ⟨r₂, rounds, h₂, ?_, ?_⟩
  · simp only [List.length_append] at hrounds hpos
    omega
  · rw [decodeLoop, if_pos hmore]
    simp only [value?_bind, value?_tell, htag₁, hfield, Option.bind_some]

/-- One field of the schema. -/
theorem Loads.field {tag : UInt64} {wireType : WireType} {msg' : M} (htag : tag < 0x10)
    (hread : ∀ (r : ByteReader) (rest : PackedByteArray), r.Ahead (part ++ rest) →
      (part ++ rest).length ≤ fuel →
      ∃ r', (onField tag.toInt64 wireType.code.toInt64 msg r).value? = some (msg', r') ∧
        r'.Ahead rest) :
    Loads onField fuel msg (key tag wireType ++ part) msg' :=
  .tagged (varint_ne_nil _) (fun _ _ h hfuel => readTag_key htag hfuel h) hread

/-- A loop that loads all of the bytes returns. -/
theorem Loads.decodeLoop_eq (h : Loads onField fuel msg part msg₁) (hfuel : part.length ≤ fuel)
    (hlen : part.length < 2 ^ 63) :
    (decodeLoop onField fuel fuel msg (ByteReader.new part)).value? = some msg₁ := by
  have hnew : (ByteReader.new part).Ahead (part ++ []) := by
    rw [List.append_nil]
    exact Ahead.new hlen
  have hall : (part ++ []).length ≤ fuel := by rwa [List.append_nil]
  obtain ⟨r', rounds, hr', -, heq⟩ := h _ [] fuel hnew hall hall
  have hdone : r'.hasMore = false := hr'.hasMore
  rw [heq]
  cases rounds <;> simp [decodeLoop, hdone]

theorem readScalar_varint {set : Int64 → M} {value : UInt64}
    (h : r.Ahead (varint value ++ rest)) (hfuel : (varint value ++ rest).length ≤ fuel) :
    ∃ r', (readScalar fuel set r).value? = some (set value.toInt64, r') ∧ r'.Ahead rest := by
  obtain ⟨r', hread, hr'⟩ := readVarint_varint hfuel h
  exact ⟨r', by rw [readScalar, value?_bind, hread]; rfl, hr'⟩

/-- The length of a record, read as an `int`. -/
theorem readVarint_length {fuel n : ℕ}
    (h : r.Ahead (varint (UInt64.ofNat n) ++ rest))
    (hfuel : (varint (UInt64.ofNat n) ++ rest).length ≤ fuel) :
    ∃ r', (r.readVarint fuel).value? = some (Int64.ofNat n, r') ∧ r'.Ahead rest :=
  readVarint_varint hfuel h

theorem readPackedDoubles_flatMap {values : PackedFloat64Array}
    (h : r.Ahead (varint (UInt64.ofNat (values.flatMap Rust.toLeBytes).length) ++
      values.flatMap Rust.toLeBytes ++ rest))
    (hfuel : (varint (UInt64.ofNat (values.flatMap Rust.toLeBytes).length) ++
      values.flatMap Rust.toLeBytes ++ rest).length ≤ fuel) :
    ∃ r', (readPackedDoubles fuel r).value? = some (values, r') ∧ r'.Ahead rest := by
  rw [List.append_assoc] at h hfuel
  obtain ⟨r₁, hlength, h₁⟩ := readVarint_length h hfuel
  have hread : ∃ r', (readDoubles values.length [] r₁).value? = some ([] ++ values, r') ∧
      r'.Ahead rest := readDoubles_flatMap h₁
  obtain ⟨r₂, hdoubles, h₂⟩ := hread
  refine ⟨r₂, ?_, h₂⟩
  have hlt := h₁.length_lt
  rw [List.length_append, length_flatMap_toLeBytes] at hlt
  have hcount : (Int64.ofNat (values.flatMap Rust.toLeBytes).length / 8).toInt.toNat =
      values.length := by
    have h8 : (8 : Int64) = Int64.ofNat 8 := rfl
    rw [length_flatMap_toLeBytes, h8, ← Int64.ofNat_div (by omega) (by decide),
      Nat.mul_div_cancel _ (by decide), PackedByteArray.toNat_ofNat (by omega)]
  rw [readPackedDoubles]
  simp only [value?_bind, hlength, Option.bind_some, hcount]
  exact hdoubles

/-- A scalar field, omitted when the value is the one the message has. -/
theorem Loads.scalar {tag value : UInt64} (set : Int64 → M) (htag : tag < 0x10)
    (hfield : ∀ r, onField tag.toInt64 WireType.varint.code.toInt64 (set 0) r =
      readScalar fuel set r) :
    Loads onField fuel (set 0) (uint64Field tag value) (set value.toInt64) := by
  unfold uint64Field
  split_ifs with h
  · rw [h]
    exact Loads.nil
  · refine Loads.field htag fun r rest hr hfuel => ?_
    rw [hfield]
    exact readScalar_varint hr hfuel

theorem Loads.doubles {tag : UInt64} {values : PackedFloat64Array}
    (set : PackedFloat64Array → M) (htag : tag < 0x10)
    (hfield : ∀ r, onField tag.toInt64 WireType.lengthDelimited.code.toInt64 (set []) r =
      readDoublesField fuel set r) :
    Loads onField fuel (set []) (packedDoubleField tag values) (set values) := by
  unfold packedDoubleField
  split_ifs with h
  · rw [h]
    exact Loads.nil
  · rw [record, List.append_assoc]
    refine Loads.field htag fun r rest hr hfuel => ?_
    obtain ⟨r', hread, hr'⟩ := readPackedDoubles_flatMap hr hfuel
    exact ⟨r', by rw [hfield, readDoublesField, value?_bind, hread]; rfl, hr'⟩

/-! ## Unknown fields -/

/-- The decoder has no branch for a number that is not `used`. -/
def Skips (used : List ℕ) (onField : OnField M) (fuel : ℕ) : Prop :=
  ∀ fieldNumber wireType msg r, (∀ k ∈ used, fieldNumber ≠ Int64.ofNat k) →
    onField fieldNumber wireType msg r = skip fuel wireType msg r

theorem Loads.unknown {used : List ℕ} {pad : PackedByteArray} (hskips : Skips used onField fuel)
    (hused : ∀ k ∈ used, k < 2 ^ 63) (hpad : Unknown used pad) :
    Loads onField fuel msg pad msg := by
  induction hpad with
  | nil => exact Loads.nil
  | @cons number field rest hfield hunused hrest ih =>
    refine Loads.append ?_ ih
    obtain ⟨-, hlt, hkey, hpayload⟩ := hfield
    have htype : ∀ {w : ℕ} {bytes : PackedByteArray}, Payload w bytes → w < 8 := by
      intro w bytes h
      cases h <;> decide
    refine .tagged hkey.leb128.ne_nil
      (fun r rest h hfuel => readTag_of_isVarint hlt (htype hpayload) hkey hfuel h) ?_
    intro r rest h hfuel
    obtain ⟨r', hr', hahead⟩ := h.skipField hpayload hfuel
    refine ⟨r', ?_, hahead⟩
    have hne : ∀ k ∈ used, Int64.ofNat number ≠ Int64.ofNat k := by
      intro k hk heq
      rw [Gdscript.ofNat_inj (hlt.trans (by decide)) (hused k hk)] at heq
      exact hunused (heq ▸ hk)
    rw [hskips _ _ _ _ hne, skip, value?_bind, hr']
    rfl

/-- The loop loads the fields, one after the other. -/
inductive LoadsAll (onField : OnField M) (fuel : ℕ) : M → List PackedByteArray → M → Prop
  | nil {msg : M} : LoadsAll onField fuel msg [] msg
  | cons {msg msg₁ msg₂ : M} {field : PackedByteArray} {fields : List PackedByteArray}
    (hfield : Loads onField fuel msg field msg₁) (hrest : LoadsAll onField fuel msg₁ fields msg₂) :
    LoadsAll onField fuel msg (field :: fields) msg₂

theorem LoadsAll.append {fields₁ fields₂ : List PackedByteArray}
    (h₁ : LoadsAll onField fuel msg fields₁ msg₁) (h₂ : LoadsAll onField fuel msg₁ fields₂ msg₂) :
    LoadsAll onField fuel msg (fields₁ ++ fields₂) msg₂ := by
  induction h₁ with
  | nil => exact h₂
  | cons hfield _ ih => exact .cons hfield (ih h₂)

/-- Fields a decoder loads, it loads from among unknown ones. -/
theorem LoadsAll.padded {used : List ℕ} {fields : List PackedByteArray} {bytes : PackedByteArray}
    (h : LoadsAll onField fuel msg fields msg₁) (hskips : Skips used onField fuel)
    (hused : ∀ k ∈ used, k < 2 ^ 63) (hbytes : Padded used fields bytes) :
    Loads onField fuel msg bytes msg₁ := by
  induction hbytes generalizing msg with
  | nil hpad =>
    cases h with
    | nil => exact .unknown hskips hused hpad
  | cons hpad _ ih =>
    cases h with
    | cons hfield hrest =>
      exact (Loads.unknown hskips hused hpad).append (hfield.append (ih hrest))

end WireCodec

end Flowstate.Godot
