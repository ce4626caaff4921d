import Mathlib.Algebra.Order.Field.Basic
import Mathlib.Data.Rat.Cast.Order
import Mathlib.Data.Nat.Sqrt
import Mathlib.Tactic.FieldSimp
import Mathlib.Tactic.Linarith
import Mathlib.Tactic.Positivity

/-!
# The `f64` operations

Definitions over `f64` take the type `F` and its operations as a parameter (`F64`), so a
theorem about them holds for every choice of the operations. Lean's own `Float`, which is
IEEE-754 binary64, is one instance. Exact arithmetic over an ordered field with a square
root is another (`F64.ofField`), and over `ℚ` it evaluates.

Laws are named where a result needs more than fixed functions. Binary64 and exact arithmetic
both have `LawfulZero`, what a zero summand changes, signed zeros included, and `LawfulRange`,
what keeps a number finite (`Flowstate.FloatLaws` proves them of `Float`). `LawfulClamp` is what
exact arithmetic guarantees of a vector divided by its magnitude.
-/

/-- The `f64` operations a program uses. `lit n` is the literal `n.0`, and `f64::from n`. -/
class F64 (F : Type) extends Add F, Mul F, Div F where
  lit : ℕ → F
  sqrt : F → F
  eq : F → F → Bool
  le : F → F → Bool
  lt : F → F → Bool
  isNan : F → Bool
  isInfinite : F → Bool
  toBits : F → UInt64

namespace F64

instance : F64 Float where
  lit := Float.ofNat
  sqrt := Float.sqrt
  eq a b := a == b
  le a b := a ≤ b
  lt a b := a < b
  isNan := Float.isNaN
  isInfinite := Float.isInf
  toBits := Float.toBits

/-- A double by its binary64 pattern, the payload of a NaN included. -/
structure Binary64 where
  bits : UInt64
deriving DecidableEq

/-- The number a pattern stands for. -/
def Binary64.float (x : Binary64) : Float := Float.ofBits x.bits

/-- The operations are those of `Float`, on the numbers the patterns stand for. -/
instance : F64 Binary64 where
  add a b := ⟨(a.float + b.float).toBits⟩
  mul a b := ⟨(a.float * b.float).toBits⟩
  div a b := ⟨(a.float / b.float).toBits⟩
  lit n := ⟨(Float.ofNat n).toBits⟩
  sqrt a := ⟨a.float.sqrt.toBits⟩
  eq a b := a.float == b.float
  le a b := a.float ≤ b.float
  lt a b := a.float < b.float
  isNan a := a.float.isNaN
  isInfinite a := a.float.isInf
  toBits := Binary64.bits

/-- `-0.0` : equal to zero as a number, and not the literal `0.0`. -/
def NegZero {F : Type} [F64 F] (x : F) : Prop := eq x (lit 0) = true ∧ x ≠ lit 0

/-- A number, neither infinite nor a NaN. -/
def Finite {F : Type} [F64 F] (x : F) : Prop := isNan x = false ∧ isInfinite x = false

/-- A number whose square is at most `16.0`. -/
def Small {F : Type} [F64 F] (x : F) : Prop := le (x * x) (lit 16) = true

/-- What holds of zeros : a zero times the length `1.0 / n` of a tick is a zero, a zero summand
changes no finite number but `-0.0`, a sum is `-0.0` only if both summands are, the zero vector
has magnitude at most one, and the zero direction has speed zero. -/
class LawfulZero (F : Type) [F64 F] : Prop where
  eq_mul_dt : ∀ (v : F) (n : ℕ), 0 < n → n < 2 ^ 32 → eq v (lit 0) = true →
    eq (v * (lit 1 / lit n)) (lit 0) = true
  add_eq_self : ∀ x z : F, Finite x → ¬NegZero x → eq z (lit 0) = true → x + z = x
  not_negZero_add : ∀ x y : F, ¬NegZero x → ¬NegZero (x + y)
  zero_le_one : le (lit 0 * lit 0 + lit 0 * lit 0) (lit 1 * lit 1 : F) = true
  eq_zero_mul : eq (lit 0 * lit 5 : F) (lit 0) = true

/-- What keeps numbers finite : a finite number divided by the magnitude of a vector longer than
one, and a finite number moved for a tick at the speed of a small vector. The components of a
finite vector are small once its magnitude is clamped to one. -/
class LawfulRange (F : Type) [F64 F] : Prop where
  finite_zero : Finite (lit 0 : F)
  finite_div_sqrt : ∀ x s : F, Finite x → lt (lit 1) s = true → Finite (x / sqrt s)
  small_of_le : ∀ x y : F, Finite x → Finite y →
    le (x * x + y * y) (lit 1 * lit 1) = true → Small x ∧ Small y
  small_scaled : ∀ x y : F, Finite x → Finite y →
    le (x * x + y * y) (lit 1 * lit 1) = false →
      Small (x * (lit 1 / sqrt (x * x + y * y))) ∧ Small (y * (lit 1 / sqrt (x * x + y * y)))
  finite_move : ∀ (x v : F) (n : ℕ), 0 < n → n < 2 ^ 32 → Finite x → Small v →
    Finite (x + v * lit 5 * (lit 1 / lit n))

/-- What exact arithmetic guarantees of the clamp : a vector longer than one, divided by its
magnitude, is not longer than one. -/
class LawfulClamp (F : Type) [F64 F] : Prop where
  not_lt_normalized : ∀ x y : F, lt (lit 1) (x * x + y * y) = true →
    lt (lit 1) (x / sqrt (x * x + y * y) * (x / sqrt (x * x + y * y)) +
      y / sqrt (x * x + y * y) * (y / sqrt (x * x + y * y))) = false

/-! ## Exact arithmetic -/

/-- Exact arithmetic over an ordered field, with a square root and an encoding. -/
@[reducible] def ofField (K : Type) [Field K] [LinearOrder K] (sqrt : K → K)
    (toBits : K → UInt64) : F64 K where
  lit n := n
  sqrt := sqrt
  eq a b := decide (a = b)
  le a b := decide (a ≤ b)
  lt a b := decide (a < b)
  isNan _ := false
  isInfinite _ := false
  toBits := toBits

section ofField

variable (K : Type) [Field K] [LinearOrder K] [IsStrictOrderedRing K] (sqrt : K → K)
  (toBits : K → UInt64)

theorem lawfulZero_ofField : @LawfulZero K (ofField K sqrt toBits) :=
  letI := ofField K sqrt toBits
  { eq_mul_dt := by
      intro v n _ _ hv
      simp only [lit, eq, decide_eq_true_eq, Nat.cast_zero] at hv ⊢
      rw [hv, zero_mul]
    add_eq_self := by
      intro x z _ _ hz
      simp only [lit, eq, decide_eq_true_eq, Nat.cast_zero] at hz
      rw [hz, add_zero]
    not_negZero_add := by
      rintro x y - ⟨h, hne⟩
      exact hne (by simpa [lit, eq] using h)
    zero_le_one := by simp [lit, le]
    eq_zero_mul := by simp [lit, eq] }

/-- Exact numbers are finite, and a square root whose square is at least its argument keeps
clamped vectors small. -/
theorem lawfulRange_ofField (hsqrt : ∀ q, 0 < q → q ≤ sqrt q * sqrt q) :
    @LawfulRange K (ofField K sqrt toBits) :=
  letI := ofField K sqrt toBits
  { finite_zero := ⟨rfl, rfl⟩
    finite_div_sqrt := fun _ _ _ _ => ⟨rfl, rfl⟩
    small_of_le := by
      intro x y _ _ h
      simp only [Small, lit, le, decide_eq_true_eq, Nat.cast_one, Nat.cast_ofNat] at h ⊢
      constructor <;> nlinarith [mul_self_nonneg x, mul_self_nonneg y]
    small_scaled := by
      intro x y _ _ h
      simp only [Small, lit, le, decide_eq_true_eq, decide_eq_false_iff_not, not_le, Nat.cast_one,
        Nat.cast_ofNat, mul_one] at h ⊢
      set q := x * x + y * y with hq
      have hpos : 0 < q := lt_trans zero_lt_one h
      have hs := hsqrt q hpos
      have hss : 0 < sqrt q * sqrt q := lt_of_lt_of_le hpos hs
      have hscale : ∀ z, z * z ≤ q → z * (1 / sqrt q) * (z * (1 / sqrt q)) ≤ 16 := by
        intro z hz
        have heq : z * (1 / sqrt q) * (z * (1 / sqrt q)) = z * z / (sqrt q * sqrt q) := by
          rw [mul_one_div, div_mul_div_comm]
        rw [heq]
        exact (div_le_one_of_le₀ (hz.trans hs) hss.le).trans (by norm_num)
      exact ⟨hscale x (le_add_of_nonneg_right (mul_self_nonneg y)),
        hscale y (le_add_of_nonneg_left (mul_self_nonneg x))⟩
    finite_move := fun _ _ _ _ _ _ _ => ⟨rfl, rfl⟩ }

/-- A square root whose square is at least its argument makes the clamp lawful. -/
theorem lawfulClamp_ofField (hsqrt : ∀ q, 0 < q → q ≤ sqrt q * sqrt q) :
    @LawfulClamp K (ofField K sqrt toBits) :=
  letI := ofField K sqrt toBits
  { not_lt_normalized := by
      intro x y h
      simp only [lit, lt, decide_eq_true_eq, decide_eq_false_iff_not, not_lt, Nat.cast_one] at h ⊢
      set q := x * x + y * y with hq
      have hpos : 0 < q := lt_trans zero_lt_one h
      have hs := hsqrt q hpos
      have hss : 0 < sqrt q * sqrt q := lt_of_lt_of_le hpos hs
      have hdiv : x / sqrt q * (x / sqrt q) + y / sqrt q * (y / sqrt q) =
          q / (sqrt q * sqrt q) := by
        rw [div_mul_div_comm, div_mul_div_comm, ← add_div]
      change x / sqrt q * (x / sqrt q) + y / sqrt q * (y / sqrt q) ≤ 1
      rw [hdiv, div_le_one hss]
      exact hs }

end ofField

/-! ## Rationals -/

/-- The square root of a rational, rounded up to its denominator. -/
def ratSqrt (q : ℚ) : ℚ :=
  let n := q.num.toNat * q.den
  if n.sqrt * n.sqrt = n then n.sqrt / q.den else (n.sqrt + 1 : ℕ) / q.den

/-- The binary64 pattern of a rational, its mantissa cut after 52 bits. -/
def ratBits (q : ℚ) : UInt64 :=
  if q = 0 then 0
  else
    let n := q.num.natAbs
    let e₀ : ℤ := n.log2 - q.den.log2
    let scaled := fun e : ℤ => (n * 2 ^ (52 - e).toNat) / (q.den * 2 ^ (e - 52).toNat)
    let e := if scaled e₀ < 2 ^ 52 then e₀ - 1 else e₀
    let sign := if q < 0 then 2 ^ 63 else 0
    UInt64.ofNat (sign + (e + 1023).toNat * 2 ^ 52 + (scaled e - 2 ^ 52))

instance : F64 ℚ := ofField ℚ ratSqrt ratBits

instance : LawfulZero ℚ := lawfulZero_ofField ℚ ratSqrt ratBits

theorem le_ratSqrt_sq (q : ℚ) (hq : 0 < q) : q ≤ ratSqrt q * ratSqrt q := by
  have hd : (0 : ℚ) < q.den := by exact_mod_cast q.den_pos
  have hnum : ((q.num.toNat : ℕ) : ℚ) = q.num := by
    exact_mod_cast Int.toNat_of_nonneg (Rat.num_nonneg.2 hq.le)
  have hqn : q * (q.den * q.den) = ((q.num.toNat * q.den : ℕ) : ℚ) := by
    rw [Nat.cast_mul, hnum, ← mul_assoc, Rat.mul_den_eq_num]
  unfold ratSqrt
  set n := q.num.toNat * q.den
  have key : ∀ s : ℕ, n ≤ s * s → q ≤ (s : ℚ) / q.den * (s / q.den) := by
    intro s hs
    rw [div_mul_div_comm, le_div_iff₀ (mul_pos hd hd), hqn]
    exact_mod_cast hs
  dsimp only
  split_ifs with h
  · exact key _ h.ge
  · exact key _ (Nat.sqrt_lt.1 (Nat.lt_succ_self _)).le

instance : LawfulRange ℚ := lawfulRange_ofField ℚ ratSqrt ratBits le_ratSqrt_sq

instance : LawfulClamp ℚ := lawfulClamp_ofField ℚ ratSqrt ratBits le_ratSqrt_sq

example : toBits (5 / 2 : ℚ) = 0x4004000000000000 := by decide +kernel

/-! ## Patterns -/

/-- Arithmetic on binary64 patterns, rounding included. -/
structure Arithmetic where
  add : UInt64 → UInt64 → UInt64
  mul : UInt64 → UInt64 → UInt64
  div : UInt64 → UInt64 → UInt64
  sqrt : UInt64 → UInt64

/-- A double by its binary64 pattern. What the pattern itself decides is decided on it, the
arithmetic is `ar`. -/
structure Pattern (ar : Arithmetic) where
  bits : UInt64
deriving DecidableEq

namespace Pattern

variable {ar : Arithmetic}

/-- The pattern without its sign bit. -/
def magnitude (x : Pattern ar) : UInt64 := x.bits &&& 0x7fffffffffffffff

/-- All exponent bits are set, and a bit of the fraction is. -/
def isNan (x : Pattern ar) : Bool := 0x7ff0000000000000 < x.magnitude

/-- Zero of either sign. -/
def isZero (x : Pattern ar) : Bool := x.bits = 0 ∨ x.bits = 0x8000000000000000

/-- The place of a number among the numbers, both zeros at zero. -/
def rank (x : Pattern ar) : ℤ :=
  if x.bits = x.magnitude then x.magnitude.toNat else -x.magnitude.toNat

/-- The literals are the integers below `2 ^ 53`, which patterns hold exactly. -/
instance : F64 (Pattern ar) where
  add a b := ⟨ar.add a.bits b.bits⟩
  mul a b := ⟨ar.mul a.bits b.bits⟩
  div a b := ⟨ar.div a.bits b.bits⟩
  lit n := ⟨ratBits n⟩
  sqrt a := ⟨ar.sqrt a.bits⟩
  eq a b := !a.isNan && !b.isNan && a.rank == b.rank
  le a b := !a.isNan && !b.isNan && a.rank ≤ b.rank
  lt a b := !a.isNan && !b.isNan && a.rank < b.rank
  isNan := isNan
  isInfinite a := a.magnitude = 0x7ff0000000000000
  toBits := bits

theorem toNat_magnitude (x : Pattern ar) : x.magnitude.toNat = x.bits.toNat % 2 ^ 63 := by
  have hmask : (0x7fffffffffffffff : UInt64).toNat = 2 ^ 63 - 1 := rfl
  rw [magnitude, UInt64.toNat_and, hmask, Nat.and_two_pow_sub_one_eq_mod]

/-- The zeros are what compares equal to the literal zero. -/
theorem eq_lit_zero (x : Pattern ar) : F64.eq x (F64.lit 0) = x.isZero := by
  have hlit : (F64.lit 0 : Pattern ar) = ⟨0⟩ := by
    change (⟨ratBits (0 : ℕ)⟩ : Pattern ar) = ⟨0⟩
    rw [Nat.cast_zero, ratBits, if_pos rfl]
  have hbits := x.bits.toNat_lt
  have hmag := x.toNat_magnitude
  have hsign : (0x8000000000000000 : UInt64).toNat = 2 ^ 63 := rfl
  have hzero : (0 : UInt64).toNat = 0 := rfl
  have hinf : (0x7ff0000000000000 : UInt64).toNat = 2 ^ 63 - 2 ^ 52 := rfl
  have hrank : x.rank = 0 ↔ x.magnitude.toNat = 0 := by
    unfold rank
    split_ifs <;> simp
  rw [hlit, Bool.eq_iff_iff]
  change (!x.isNan && !isNan (⟨0⟩ : Pattern ar) && x.rank == rank (⟨0⟩ : Pattern ar)) = true ↔ _
  have hrank₀ : rank (⟨0⟩ : Pattern ar) = 0 := by simp [rank, magnitude]
  simp only [isNan, isZero, Bool.and_eq_true, Bool.not_eq_true', decide_eq_false_iff_not,
    beq_iff_eq, hrank₀, hrank, decide_eq_true_eq, UInt64.lt_iff_toNat_lt, ← UInt64.toNat_inj,
    hinf, hsign, hzero, hmag]
  have hnan : ¬2 ^ 63 - 2 ^ 52 < (magnitude (⟨0⟩ : Pattern ar)).toNat := by
    simp [magnitude]
  constructor
  · rintro ⟨-, h⟩
    omega
  · intro h
    exact ⟨⟨by omega, hnan⟩, by omega⟩

/-- A zero is no NaN. -/
theorem isNan_of_isZero {x : Pattern ar} (h : x.isZero = true) : x.isNan = false := by
  simp only [isZero, decide_eq_true_eq] at h
  unfold isNan magnitude
  rcases h with h | h <;> rw [h] <;> decide

end Pattern

end F64
