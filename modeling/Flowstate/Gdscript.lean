import Flowstate.Rust

/-!
# What GDScript code takes from its language

A typed `int` is a 64-bit two's complement integer (`Int64`), a typed `float` its binary64
pattern. A `PackedByteArray` is a byte list, and what a script error would end is an
`Option`. The documented behaviour of the built-in methods is kept where it can be
observed : a negative index counts from the end, `slice` clamps its bounds,
`decode_double` past the end gives `0.0`, and a `Dictionary` keeps the order of insertion.
-/

/-- The built-in array of bytes. -/
abbrev PackedByteArray := List UInt8

/-- The built-in array of doubles, each by its binary64 pattern. -/
abbrev PackedFloat64Array := List UInt64

/-- The built-in map, its entries in the order in which their keys were first set. -/
abbrev Dictionary (K V : Type) := List (K × V)

/-- `d[key] = value`. -/
def Dictionary.set {K V : Type} [DecidableEq K] (key : K) (value : V) :
    Dictionary K V → Dictionary K V
  | [] => [(key, value)]
  | (k, v) :: d => if k = key then (key, value) :: d else (k, v) :: Dictionary.set key value d

/-- `d.get(key)`. -/
def Dictionary.get {K V : Type} [DecidableEq K] (key : K) : Dictionary K V → Option V
  | [] => none
  | (k, v) :: d => if k = key then some v else Dictionary.get key d

open Rust

/-! ## Shifts of an `int` -/

namespace Gdscript

theorem toNat_shift {s : ℕ} (hs : s < 64) : ((Int64.ofNat s).toBitVec.smod 64).toNat = s := by
  have hmod : ∀ s < 64, (BitVec.ofNat 64 s).smod 64 = BitVec.ofNat 64 s := by decide
  rw [Int64.toBitVec_ofNat', hmod s hs, BitVec.toNat_ofNat, Nat.mod_eq_of_lt (by omega)]

theorem toBitVec_shiftLeft (x : Int64) {s : ℕ} (hs : s < 64) :
    (x <<< Int64.ofNat s).toBitVec = x.toBitVec <<< s := by
  rw [Int64.toBitVec_shiftLeft, BitVec.shiftLeft_eq', toNat_shift hs]

theorem toBitVec_shiftRight (x : Int64) {s : ℕ} (hs : s < 64) :
    (x >>> Int64.ofNat s).toBitVec = x.toBitVec.sshiftRight s := by
  rw [Int64.toBitVec_shiftRight, BitVec.sshiftRight_eq', toNat_shift hs]

/-- The low seven bits and the rest, each put in its place, are the number. -/
theorem low_or_high (v : UInt64) {s : ℕ} (hs : s + 7 < 64) :
    (v &&& 0x7F).toInt64 <<< Int64.ofNat s ||| (v >>> 7).toInt64 <<< Int64.ofNat (s + 7) =
      v.toInt64 <<< Int64.ofNat s := by
  have hmask : ∀ i < 64, (0x7F#64).getLsbD i = decide (i < 7) := by decide
  rw [← Int64.toBitVec_inj, Int64.toBitVec_or, toBitVec_shiftLeft _ (by omega),
    toBitVec_shiftLeft _ hs, toBitVec_shiftLeft _ (by omega)]
  apply BitVec.eq_of_getLsbD_eq
  intro i hi
  have hlow : (v &&& 0x7F).toInt64.toBitVec.getLsbD (i - s) =
      (v.toBitVec.getLsbD (i - s) && decide (i - s < 7)) := by
    rw [← hmask _ (by omega)]
    simp
  have hhigh : (v >>> 7).toInt64.toBitVec.getLsbD (i - (s + 7)) =
      v.toBitVec.getLsbD (7 + (i - (s + 7))) := by
    simp
  have hall : v.toInt64.toBitVec.getLsbD (i - s) = v.toBitVec.getLsbD (i - s) := rfl
  simp only [BitVec.getLsbD_or, BitVec.getLsbD_shiftLeft, hi, decide_true, Bool.true_and, hlow,
    hhigh, hall]
  -- bit `i` is below both parts, in the low one or in the high one
  by_cases hbelow : i < s
  · simp [hbelow, show i < s + 7 by omega]
  · by_cases h7 : i < s + 7
    · simp [hbelow, h7, show i - s < 7 by omega]
    · simp [hbelow, h7, show ¬i - s < 7 by omega, show 7 + (i - (s + 7)) = i - s by omega]

/-! ## An `int` by its unsigned value -/

theorem ofNat_inj {m n : ℕ} (hm : m < 2 ^ 63) (hn : n < 2 ^ 63) :
    Int64.ofNat m = Int64.ofNat n ↔ m = n := by
  refine ⟨fun h => ?_, congrArg Int64.ofNat⟩
  have htoInt := congrArg Int64.toInt h
  rw [Int64.toInt_ofNat_of_lt hm, Int64.toInt_ofNat_of_lt hn] at htoInt
  exact Int.ofNat_inj.1 htoInt

/-- A tag is its field number and, in the low three bits, its wire type. -/
theorem ofNat_tag {number wireType : ℕ} (hn : number < 2 ^ 29) (hw : wireType < 8) :
    Int64.ofNat (8 * number + wireType) >>> 3 = Int64.ofNat number ∧
      Int64.ofNat (8 * number + wireType) &&& 0x07 = Int64.ofNat wireType := by
  have hlt : 8 * number + wireType < 2 ^ 63 := by omega
  have hthree : ((3 : Int64).toBitVec.smod 64) = 3#64 := by decide
  constructor
  · rw [← Int64.toBitVec_inj, Int64.toBitVec_shiftRight, hthree]
    have hmsb : (Int64.ofNat (8 * number + wireType)).toBitVec.msb = false := by
      rw [Int64.toBitVec_ofNat', BitVec.msb_eq_false_iff_two_mul_lt, BitVec.toNat_ofNat,
        Nat.mod_eq_of_lt (by omega)]
      omega
    rw [BitVec.sshiftRight_eq', BitVec.sshiftRight_eq_of_msb_false hmsb, ← BitVec.toNat_inj]
    simp only [BitVec.toNat_ushiftRight, Int64.toBitVec_ofNat', BitVec.toNat_ofNat]
    rw [Nat.shiftRight_eq_div_pow, Nat.mod_eq_of_lt (by omega), Nat.mod_eq_of_lt (by omega)]
    show _ / 2 ^ 3 = _
    omega
  · rw [← Int64.toBitVec_inj, Int64.toBitVec_and, ← BitVec.toNat_inj]
    simp only [BitVec.toNat_and, Int64.toBitVec_ofNat', BitVec.toNat_ofNat]
    have h7 : ((7 : Int64).toBitVec).toNat = 2 ^ 3 - 1 := rfl
    rw [h7, Nat.and_two_pow_sub_one_eq_mod]
    omega

/-- The sign is the highest bit. -/
theorem toInt_eq_ite (x : Int64) : x.toInt =
    if x.toUInt64.toNat < 2 ^ 63 then (x.toUInt64.toNat : ℤ)
    else x.toUInt64.toNat - (2 ^ 64 : ℕ) := by
  have h : x.toInt = x.toBitVec.toInt := rfl
  have hn : x.toBitVec.toNat = x.toUInt64.toNat := rfl
  rw [h, BitVec.toInt_eq_toNat_cond, hn]
  split_ifs <;> first | rfl | omega

theorem ofNat_toNat (x : Int64) : Int64.ofNat x.toUInt64.toNat = x := by
  rw [← Int64.toBitVec_inj, Int64.toBitVec_ofNat']
  exact (BitVec.ofNat_toNat 64 x.toBitVec).trans (BitVec.setWidth_eq _)

theorem toNat_toUInt64_ofNat {n : ℕ} (h : n < 2 ^ 63) : (Int64.ofNat n).toUInt64.toNat = n := by
  rw [Int64.toUInt64_ofNat', UInt64.toNat_ofNat_of_lt']
  exact h.trans (by decide)

/-- Adding takes a position back just when the sum, unsigned, passes the largest `int`. -/
theorem le_add_iff {n : ℕ} (hn : n < 2 ^ 63) (x : Int64) :
    Int64.ofNat n ≤ Int64.ofNat n + x ↔ n + x.toUInt64.toNat < 2 ^ 63 := by
  have hx := x.toUInt64.toNat_lt
  have hadd : (Int64.ofNat n + x).toUInt64.toNat = (n + x.toUInt64.toNat) % 2 ^ 64 := by
    have h : (Int64.ofNat n + x).toUInt64.toNat =
        ((Int64.ofNat n).toUInt64.toNat + x.toUInt64.toNat) % 2 ^ 64 := rfl
    rw [h, toNat_toUInt64_ofNat hn]
  rw [Int64.le_iff_toInt_le, Int64.toInt_ofNat_of_lt hn, toInt_eq_ite, hadd]
  by_cases h : n + x.toUInt64.toNat < 2 ^ 64
  · rw [Nat.mod_eq_of_lt h]
    split_ifs <;> omega
  · have hmod : (n + x.toUInt64.toNat) % 2 ^ 64 = n + x.toUInt64.toNat - 2 ^ 64 := by
      rw [Nat.mod_eq_sub_mod (by omega), Nat.mod_eq_of_lt (by omega)]
    rw [hmod]
    split_ifs <;> omega

end Gdscript

namespace PackedByteArray

def size (bytes : PackedByteArray) : Int64 := Int64.ofNat bytes.length

/-- `bytes[index]`. -/
def get? (bytes : PackedByteArray) (index : Int64) : Option UInt8 :=
  let index := if index < 0 then index + bytes.size else index
  if index < 0 then none else bytes[index.toInt.toNat]?

/-- A bound of `slice`, as a position in the array. -/
def sliceBound (bytes : PackedByteArray) (bound : Int64) : ℕ :=
  let clamped := if bound < -bytes.size then -bytes.size
    else if bytes.size < bound then bytes.size else bound
  (if clamped < 0 then clamped + bytes.size else clamped).toInt.toNat

/-- `bytes.slice(first, last)`, without the byte at `last`. -/
def slice (bytes : PackedByteArray) (first last : Int64) : PackedByteArray :=
  (bytes.take (bytes.sliceBound last)).drop (bytes.sliceBound first)

/-- `bytes.append(value)` : the low byte of `value`. -/
def append (bytes : PackedByteArray) (value : Int64) : PackedByteArray :=
  bytes ++ [value.toUInt64.toUInt8]

/-- The number whose bytes are `bytes`, least significant first. -/
def ofLeBytes : PackedByteArray → UInt64
  | [] => 0
  | b :: bytes => b.toUInt64 + 256 * ofLeBytes bytes

/-- `bytes.decode_double(offset)`. -/
def decodeDouble (bytes : PackedByteArray) (offset : Int64) : UInt64 :=
  if offset < 0 ∨ bytes.size - 8 < offset then 0
  else ofLeBytes ((bytes.drop offset.toInt.toNat).take 8)

/-! ## Little-endian doubles -/

/-- The `k` low bytes of `n`, least significant first. -/
def leBytes : ℕ → UInt64 → PackedByteArray
  | 0, _ => []
  | k + 1, n => n.toUInt8 :: leBytes k (n >>> 8)

theorem shiftRight_succ (n : UInt64) {k : ℕ} (hk : k < 7) :
    n >>> UInt64.ofNat (8 * (k + 1)) = n >>> 8 >>> UInt64.ofNat (8 * k) := by
  have h8 : (n >>> 8).toNat = n.toNat / 2 ^ 8 := toNat_shiftRight n (show 8 < 64 by decide)
  rw [← UInt64.toNat_inj, toNat_shiftRight _ (by omega), toNat_shiftRight _ (by omega), h8,
    Nat.div_div_eq_div_mul, ← pow_add, Nat.mul_succ, Nat.add_comm]

theorem leBytes_eq_map (n : UInt64) {k : ℕ} (hk : k ≤ 8) :
    leBytes k n = (List.range k).map fun i => (n >>> UInt64.ofNat (8 * i)).toUInt8 := by
  induction k generalizing n with
  | zero => rfl
  | succ k ih =>
    have hstep : ∀ i ∈ List.range k, (n >>> 8 >>> UInt64.ofNat (8 * i)).toUInt8 =
        (n >>> UInt64.ofNat (8 * (i + 1))).toUInt8 := by
      intro i hi
      rw [shiftRight_succ n (by have := List.mem_range.1 hi; omega)]
    have hzero : n >>> UInt64.ofNat (8 * 0) = n := by simp
    rw [List.range_succ_eq_map, List.map_cons, List.map_map, leBytes, ih (n >>> 8) (by omega),
      List.map_congr_left hstep, hzero]
    rfl

theorem ofLeBytes_leBytes {k : ℕ} {n : UInt64} (h : n.toNat < 2 ^ (8 * k)) :
    ofLeBytes (leBytes k n) = n := by
  induction k generalizing n with
  | zero =>
    have hn : n.toNat = 0 := by simpa using h
    exact (UInt64.toNat_inj.1 hn).symm
  | succ k ih =>
    have h8 : (n >>> 8).toNat = n.toNat / 2 ^ 8 := toNat_shiftRight n (show 8 < 64 by decide)
    have hrest : (n >>> 8).toNat < 2 ^ (8 * k) := by
      rw [h8, Nat.div_lt_iff_lt_mul (by decide), ← pow_add]
      exact h
    have hn := n.toNat_lt
    rw [leBytes, ofLeBytes, ih hrest, ← UInt64.toNat_inj]
    simp only [UInt64.toNat_add, UInt64.toNat_mul, h8, UInt8.toNat_toUInt64, UInt64.toNat_toUInt8,
      UInt64.reduceToNat]
    omega

/-- A double read back from its eight bytes is the double. -/
theorem ofLeBytes_toLeBytes (n : UInt64) : ofLeBytes (toLeBytes n) = n := by
  have h : toLeBytes n = leBytes 8 n := (leBytes_eq_map n le_rfl).symm
  rw [h, ofLeBytes_leBytes n.toNat_lt]

theorem length_toLeBytes (n : UInt64) : (toLeBytes n).length = 8 := by
  simp [toLeBytes]

/-! ## Access at a position -/

variable {n : ℕ} {bytes read part rest : PackedByteArray}

theorem toNat_ofNat (h : n < 2 ^ 63) : (Int64.ofNat n).toInt.toNat = n := by
  rw [Int64.toInt_ofNat_of_lt h, Int.toNat_natCast]

theorem not_ofNat_lt_zero (h : n < 2 ^ 63) : ¬Int64.ofNat n < 0 := by
  rw [Int64.lt_iff_toInt_lt, Int64.toInt_ofNat_of_lt h]
  simp

/-- The byte after `read`. -/
theorem get?_append {b : UInt8} (h : (read ++ b :: rest).length < 2 ^ 63) :
    get? (read ++ b :: rest) (Int64.ofNat read.length) = some b := by
  have hread : read.length < 2 ^ 63 := by
    rw [List.length_append] at h
    omega
  simp only [get?, if_neg (not_ofNat_lt_zero hread), toNat_ofNat hread]
  simp

theorem sliceBound_ofNat (hn : n < 2 ^ 63) (h : bytes.length < 2 ^ 63) :
    bytes.sliceBound (Int64.ofNat n) = min n bytes.length := by
  have hlow : ¬Int64.ofNat n < -bytes.size := by
    rw [Int64.lt_iff_toInt_lt, size, Int64.toInt_neg_ofNat_of_le h.le,
      Int64.toInt_ofNat_of_lt hn]
    omega
  have hhigh : bytes.size < Int64.ofNat n ↔ bytes.length < n := Int64.ofNat_lt_iff_lt h hn
  simp only [sliceBound, if_neg hlow, hhigh]
  split_ifs with hlt hneg hneg
  · exact absurd hneg (not_ofNat_lt_zero h)
  · rw [size, toNat_ofNat h, min_eq_right hlt.le]
  · exact absurd hneg (not_ofNat_lt_zero hn)
  · rw [toNat_ofNat hn, min_eq_left (not_lt.1 hlt)]

/-- The bytes between two positions, as far as there are any. -/
theorem slice_ofNat {k : ℕ} (hlast : n + k < 2 ^ 63) (h : bytes.length < 2 ^ 63) :
    bytes.slice (Int64.ofNat n) (Int64.ofNat (n + k)) = (bytes.drop n).take k := by
  rw [slice, sliceBound_ofNat (by omega) h, sliceBound_ofNat hlast h, List.drop_take,
    ← List.drop_eq_drop_min, List.take_eq_take_iff, List.length_drop]
  omega

/-- The part after `read`. -/
theorem slice_append (h : (read ++ (part ++ rest)).length < 2 ^ 63) :
    slice (read ++ (part ++ rest)) (Int64.ofNat read.length)
      (Int64.ofNat read.length + Int64.ofNat part.length) = part := by
  rw [← Int64.ofNat_add, slice_ofNat (by simp only [List.length_append] at h; omega) h]
  simp

/-- The double after `read`. -/
theorem decodeDouble_append {value : UInt64}
    (h : (read ++ (toLeBytes value ++ rest)).length < 2 ^ 63) :
    decodeDouble (read ++ (toLeBytes value ++ rest)) (Int64.ofNat read.length) = value := by
  have hlen : (read ++ (toLeBytes value ++ rest)).length = read.length + rest.length + 8 := by
    simp only [List.length_append, length_toLeBytes]
    omega
  have hread : read.length < 2 ^ 63 := by omega
  have hlast : ¬size (read ++ (toLeBytes value ++ rest)) - 8 < Int64.ofNat read.length := by
    have h8 : (8 : Int64) = Int64.ofNat 8 := rfl
    rw [size, hlen, h8, ← Int64.ofNat_sub _ _ (by omega),
      Int64.ofNat_lt_iff_lt (by omega) hread]
    omega
  rw [decodeDouble, if_neg (not_or.2 ⟨not_ofNat_lt_zero hread, hlast⟩), toNat_ofNat hread,
    List.drop_left, List.take_left' (length_toLeBytes value), ofLeBytes_toLeBytes]

end PackedByteArray
