import Flowstate.Fields

/-!
# Varints of all integers

A GDScript `int` has a sign, a varint has none. The writer takes seven bits at a time by an
arithmetic shift and a mask, which is the logical shift (`toUInt64_unsignedShr_of_le`), and so
it writes the shortest encoding of the pattern; the reader puts the pattern together again, sign
bit included (`varint_exact`).
-/

open Protobuf Logged

namespace Flowstate.Godot

theorem ByteWriter.toUInt64_unsignedShr_of_le (value : Int64) {bits : Int64} (hpos : 1 ≤ bits)
    (hlt : bits ≤ 63) : (unsignedShr value bits).toUInt64 = value.toUInt64 >>> bits.toUInt64 := by
  rw [Int64.le_iff_toInt_le] at hpos hlt
  have h1 : (1 : Int64).toInt = 1 := rfl
  have h63 : (63 : Int64).toInt = 63 := rfl
  obtain ⟨k, hk⟩ := Int.eq_ofNat_of_zero_le (show 0 ≤ bits.toInt by omega)
  obtain rfl : bits = Int64.ofNat k := by
    rw [← Int64.toInt_inj, hk, Int64.toInt_ofNat_of_lt (by omega)]
  have hbits : (Int64.ofNat k).toUInt64 = UInt64.ofNat k := rfl
  rw [← UInt64.toNat_inj, hbits, Rust.toNat_shiftRight _ (by omega)]
  change (unsignedShr value (Int64.ofNat k)).toBitVec.toNat = value.toBitVec.toNat / 2 ^ k
  rw [toBitVec_unsignedShr value (by omega) (by omega), BitVec.toNat_ushiftRight,
    Nat.shiftRight_eq_div_pow]

namespace ByteReader

theorem bytes_readVarintLoop {fuel : ℕ} {result shift value : Int64} {r r' : ByteReader}
    (h : (readVarintLoop fuel result shift r).value? = some (value, r')) :
    r'.bytes = r.bytes := by
  induction fuel generalizing result shift r with
  | zero => cases h
  | succ fuel ih =>
    rw [readVarintLoop_succ] at h
    simp only [value?_bind, value?_ofOption, value?_advance] at h
    obtain ⟨b, -, h⟩ := Option.bind_eq_some_iff.1 h
    rw [Option.bind_some] at h
    split_ifs at h
    · cases h
      rfl
    · exact (ih (r := { r with pos := r.pos + 1 }) h).trans rfl

/-- A varint in front of a suffix is read, and the reader stands where the suffix begins. -/
theorem readVarint_new {v : UInt64} {suffix : PackedByteArray} {fuel : ℕ}
    (hlen : (varint v ++ suffix).length < 2 ^ 63) (hfuel : (varint v).length ≤ fuel) :
    ((ByteReader.new (varint v ++ suffix)).readVarint fuel).value? =
      some (v.toInt64, ⟨varint v ++ suffix, Int64.ofNat (varint v).length⟩) := by
  obtain ⟨r', hr', hahead⟩ := readVarint_of_length_le (isVarint_varint v) hfuel (Ahead.new hlen)
  obtain ⟨-, read, hbytes, hpos⟩ := hahead
  have hsame : r'.bytes = varint v ++ suffix := bytes_readVarintLoop hr'
  obtain rfl : varint v = read := List.append_cancel_right (hsame.symm.trans hbytes)
  rw [hr', ← hsame, ← hpos]

end ByteReader

/-- What the writer appends for `v`, and what the reader makes of it. -/
structure ExactVarint (v : Int64) (bytes : PackedByteArray) : Prop where
  written : ∀ w : ByteWriter, (w.writeVarint v).bytes = w.bytes ++ bytes
  length_pos : 1 ≤ bytes.length
  length_le : bytes.length ≤ 10
  minimal : IsMinimal bytes v.toUInt64.toNat
  read : ∀ suffix fuel, (bytes ++ suffix).length < 2 ^ 63 → bytes.length ≤ fuel →
    ((ByteReader.new (bytes ++ suffix)).readVarint fuel).value? =
      some (v, ⟨bytes ++ suffix, Int64.ofNat bytes.length⟩)

/-- Every integer is written in its shortest form and read back, and the shift behind it is the
logical one. -/
theorem varint_exact (v : Int64) :
    (∃ bytes, ExactVarint v bytes) ∧ ∀ bits : Int64, 1 ≤ bits → bits ≤ 63 →
      (ByteWriter.unsignedShr v bits).toUInt64 = v.toUInt64 >>> bits.toUInt64 := by
  refine ⟨⟨varint v.toUInt64, ?_⟩, fun bits => ByteWriter.toUInt64_unsignedShr_of_le v⟩
  exact {
    written := fun w => w.bytes_writeVarint v
    length_pos := (leb128_varint v.toUInt64).length_pos
    length_le := (isVarint_varint v.toUInt64).length_le
    minimal := isMinimal_varint v.toUInt64
    read := fun suffix fuel hlen hfuel => ByteReader.readVarint_new hlen hfuel }

end Flowstate.Godot
