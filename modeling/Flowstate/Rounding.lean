import Flowstate.Packing

/-!
# Rounding to binary64

The operations of Lean's `Float` compute exactly and round to nearest, ties to even.

* `Describes` : what the residual bits of a mantissa say of the number they are left of. Dropping
  a bit keeps it true (`Describes.shiftRightOne`).
* `Nearest` : a multiple of the unit of binary64 that is nearest to a number.
* `Rounded` : a number, rounded. So are the product, the quotient and the sum of two finite
  numbers (`rounded_mul`, `rounded_div`, `rounded_add`), and the root of one (`rounded_sqrt`).
-/

open Float.Model Float.Model.UnpackedFloat

namespace Rounding

/-! ## Residual bits -/

/-- Where `x` lies if `m` approximates it with a given accuracy. -/
def Describes (m : ℕ) (x : ℚ) : Accuracy → Prop
  | .exact => x = m
  | .inexact .lt => (m : ℚ) < x ∧ x < m + 1 / 2
  | .inexact .eq => x = m + 1 / 2
  | .inexact .gt => (m : ℚ) + 1 / 2 < x ∧ x < m + 1

theorem Describes.le {m : ℕ} {x : ℚ} {a : Accuracy} (h : Describes m x a) : (m : ℚ) ≤ x := by
  rcases a with _ | o
  · exact h.ge
  · cases o <;> simp only [Describes] at h <;> linarith

theorem Describes.lt {m : ℕ} {x : ℚ} {a : Accuracy} (h : Describes m x a) : x < m + 1 := by
  rcases a with _ | o
  · simp only [Describes] at h
    linarith
  · cases o <;> simp only [Describes] at h <;> linarith

/-- Nothing is lost of where `x` lies by dropping a bit. -/
theorem Describes.shiftRightOne {em : ExtendedMantissa} {x : ℚ}
    (h : Describes em.mantissa x em.accuracy) :
    Describes em.shiftRightOne.mantissa (x / 2) em.shiftRightOne.accuracy := by
  obtain ⟨m, r, s⟩ := em
  have hm : (m : ℚ) = 2 * (m / 2 : ℕ) + (m % 2 : ℕ) := by exact_mod_cast (Nat.div_add_mod m 2).symm
  rcases Nat.mod_two_eq_zero_or_one m with hmod | hmod <;> cases r <;> cases s <;>
    simp [Describes, ExtendedMantissa.accuracy, ExtendedMantissa.shiftRightOne, hmod] at h hm ⊢ <;>
    (try constructor) <;> linarith

theorem Describes.shiftRight {em : ExtendedMantissa} {x : ℚ}
    (h : Describes em.mantissa x em.accuracy) (n : ℕ) :
    Describes (em >>> n).mantissa (x / 2 ^ n) (em >>> n).accuracy := by
  change Describes (n.repeat ExtendedMantissa.shiftRightOne em).mantissa _
    (n.repeat ExtendedMantissa.shiftRightOne em).accuracy
  induction n with
  | zero => simpa [Nat.repeat] using h
  | succ n ih =>
    rw [pow_succ, ← div_div]
    exact ih.shiftRightOne

theorem accuracy_of (m : ℕ) (a : Accuracy) :
    (ExtendedMantissa.ofMantissaAndAccuracy m a).mantissa = m ∧
      (ExtendedMantissa.ofMantissaAndAccuracy m a).accuracy = a := by
  rcases a with _ | o
  · exact ⟨rfl, rfl⟩
  · cases o <;> exact ⟨rfl, rfl⟩

/-- Rounding to nearest is below an integer half a unit above, ... -/
theorem Describes.round_le {m k : ℕ} {x : ℚ} {a : Accuracy} (h : Describes m x a)
    (hx : x < k + 1 / 2) : a.roundToNearestEven m ≤ k := by
  have hmk : (m : ℚ) < k + 1 / 2 := h.le.trans_lt hx
  have hle : m ≤ k := by
    by_contra hlt
    have : (k : ℚ) + 1 ≤ m := by exact_mod_cast Nat.not_le.1 hlt
    linarith
  have hmid : (m : ℚ) + 1 / 2 ≤ x → m < k := by
    intro hm
    have : (m : ℚ) < k := by linarith
    exact_mod_cast this
  rcases a with _ | o
  · exact hle
  · cases o with
    | lt => exact hle
    | eq =>
      have := hmid h.ge
      simp only [Accuracy.roundToNearestEven]
      omega
    | gt => exact hmid h.1.le

theorem Describes.le_round {m k : ℕ} {x : ℚ} {a : Accuracy} (h : Describes m x a)
    (hx : (k : ℚ) ≤ x) : k ≤ a.roundToNearestEven m := by
  have hlt : (k : ℚ) < m + 1 := hx.trans_lt h.lt
  have hle : k ≤ m := Nat.lt_succ_iff.1 (by exact_mod_cast hlt)
  rcases a with _ | o
  · exact hle
  · cases o with
    | lt => exact hle
    | eq => exact hle.trans (Nat.le_add_right ..)
    | gt => exact hle.trans (Nat.le_succ _)

/-! ## Rounding -/

theorem targetExponent_binary64 (x : ℤ) :
    Format.binary64.targetExponent x = max (x - 53) (-1074) := by
  have hbits : (Format.binary64.mantissaBits : ℤ) = 53 := rfl
  have hmin : Format.binary64.minExponent = -1074 := by decide
  rw [Format.targetExponent, hbits, hmin]

/-- The exponent binary64 has for a number `m * 2 ^ e`. -/
def unitExponent (m : ℕ) (e : ℤ) : ℤ := Format.binary64.targetExponent (totalExponent m e)

theorem unitExponent_eq (m : ℕ) (e : ℤ) : unitExponent m e = max (m.log2 + e - 52) (-1074) := by
  rw [unitExponent, targetExponent_binary64, totalExponent]
  omega

/-- `r * 2 ^ t` is a multiple of `2 ^ t` nearest to `v`, and `2 ^ t` is the unit of binary64 at
`v`. -/
structure Nearest (v : ℚ) (t : ℤ) (r : ℕ) : Prop where
  min_le : -1074 ≤ t
  unit : t = -1074 ∨ (2 : ℚ) ^ (t + 52) ≤ v
  lt : v < 2 ^ (t + 53)
  round_le : ∀ k : ℕ, v < (k + 1 / 2) * 2 ^ t → r ≤ k
  le_round : ∀ k : ℕ, k * 2 ^ t ≤ v → k ≤ r

/-- `u` is `v`, rounded, with the sign `s`. -/
def Rounded (v : ℚ) (s : Sign) (u : UnpackedFloat) : Prop :=
  ∃ t r, Nearest v t r ∧ (r = 0 ∧ u = .zero s ∨
    ∃ m e, ∃ h : 0 < m, u = .finite s m e h ∧ Canonical m e ∧ (m : ℚ) * 2 ^ e = r * 2 ^ t)

theorem Nearest.le_two_pow {v : ℚ} {t : ℤ} {r : ℕ} (h : Nearest v t r) : r ≤ 2 ^ 53 := by
  refine h.round_le _ (h.lt.trans_le ?_)
  rw [zpow_add₀ two_ne_zero, mul_comm]
  have := unit_pos t
  push_cast
  norm_num
  nlinarith

theorem log2_bounds {m : ℕ} (hm : 0 < m) :
    (2 : ℚ) ^ (m.log2 : ℤ) ≤ m ∧ (m : ℚ) + 1 ≤ 2 ^ ((m.log2 : ℤ) + 1) := by
  have hle := Nat.log2_self_le hm.ne'
  have hlt : m + 1 ≤ 2 ^ (m.log2 + 1) := Nat.lt_log2_self
  constructor
  · rw [zpow_natCast]
    exact_mod_cast hle
  · rw [← Nat.cast_succ, ← Nat.cast_succ, zpow_natCast]
    exact_mod_cast hlt

/-- The unit of a number whose leading digits are an integer with an accuracy. -/
theorem nearest_shift {m : ℕ} {e : ℤ} {x : ℚ} {a : Accuracy} (h : Describes m x a)
    (he : e ≤ unitExponent m e) :
    Nearest (x * 2 ^ e) (unitExponent m e)
      (ExtendedMantissa.ofMantissaAndAccuracy m a >>>
        (unitExponent m e - e).toNat).roundedMantissa := by
  obtain ⟨hmantissa, haccuracy⟩ := accuracy_of m a
  set t := unitExponent m e with ht
  rw [unitExponent_eq] at ht
  have hdescribes : Describes (ExtendedMantissa.ofMantissaAndAccuracy m a).mantissa x
      (ExtendedMantissa.ofMantissaAndAccuracy m a).accuracy := by
    rw [hmantissa, haccuracy]
    exact h
  have hshift := hdescribes.shiftRight (t - e).toNat
  have hscale : x * 2 ^ e = x / 2 ^ (t - e).toNat * 2 ^ t := by
    have hcast : ((t - e).toNat : ℤ) = t - e := Int.toNat_of_nonneg (by omega)
    rw [← zpow_natCast, hcast, zpow_sub₀ two_ne_zero]
    field_simp
  have hpos := unit_pos t
  have hpose := unit_pos e
  refine ⟨by omega, ?_, ?_, fun k hk => ?_, fun k hk => ?_⟩
  · rcases Nat.eq_zero_or_pos m with rfl | hm
    · exact .inl (by simp at ht; omega)
    · by_cases hmin : t = -1074
      · exact .inl hmin
      · right
        have heq : t + 52 = m.log2 + e := by omega
        rw [heq, zpow_add₀ two_ne_zero]
        exact mul_le_mul_of_nonneg_right ((log2_bounds hm).1.trans h.le) hpose.le
  · have hle : (2 : ℚ) ^ ((m.log2 : ℤ) + 1) * 2 ^ e ≤ 2 ^ (t + 53) := by
      rw [← zpow_add₀ two_ne_zero]
      exact zpow_le_zpow_right₀ one_le_two (by omega)
    have hm : (m : ℚ) + 1 ≤ 2 ^ ((m.log2 : ℤ) + 1) := by
      rcases Nat.eq_zero_or_pos m with rfl | hm
      · norm_num
      · exact (log2_bounds hm).2
    exact (mul_lt_mul_of_pos_right (h.lt.trans_le hm) hpose).trans_le hle
  · rw [hscale] at hk
    exact hshift.round_le (lt_of_mul_lt_mul_right hk hpos.le)
  · rw [hscale] at hk
    exact hshift.le_round (le_of_mul_le_mul_right hk hpos)

/-- A number by the mantissa and the exponent that the shifts leave. -/
def ofShifted (s : Sign) (p : ExtendedMantissa × ℤ) : UnpackedFloat :=
  if h : p.1.mantissa = 0 then .zero s else .finite s p.1.mantissa p.2 (Nat.pos_of_ne_zero h)

theorem roundWithAccuracy_eq (s : Sign) (m : ℕ) (e : ℤ) (a : Accuracy) :
    roundWithAccuracy Format.binary64 s m e a = ofShifted s (shiftToTargetExponent Format.binary64
      (shiftToTargetExponent Format.binary64 m e a).1.roundedMantissa
      (shiftToTargetExponent Format.binary64 m e a).2 .exact) := rfl

theorem shiftToTargetExponent_eq {m : ℕ} {e : ℤ} (he : e ≤ unitExponent m e) (a : Accuracy) :
    shiftToTargetExponent Format.binary64 m e a =
      (ExtendedMantissa.ofMantissaAndAccuracy m a >>> (unitExponent m e - e).toNat,
        unitExponent m e) :=
  Prod.ext rfl (show e + ((unitExponent m e - e).toNat : ℤ) = unitExponent m e by omega)

theorem shiftToTargetExponent_of_le {m : ℕ} {e : ℤ} (he : unitExponent m e ≤ e) :
    shiftToTargetExponent Format.binary64 m e .exact = (⟨m, false, false⟩, e) := by
  have hzero : (unitExponent m e - e).toNat = 0 := by omega
  have heq : shiftToTargetExponent Format.binary64 m e .exact =
      (ExtendedMantissa.ofMantissaAndAccuracy m .exact >>> (unitExponent m e - e).toNat,
        e + ((unitExponent m e - e).toNat : ℤ)) := rfl
  rw [heq, hzero, Nat.cast_zero, add_zero]
  rfl

theorem rounded_roundWithAccuracy {m : ℕ} {e : ℤ} {x : ℚ} {a : Accuracy} (s : Sign)
    (h : Describes m x a) (he : e ≤ unitExponent m e) :
    Rounded (x * 2 ^ e) s (roundWithAccuracy Format.binary64 s m e a) := by
  have hnear := nearest_shift h he
  rw [roundWithAccuracy_eq, shiftToTargetExponent_eq he]
  set t := unitExponent m e
  set r := (ExtendedMantissa.ofMantissaAndAccuracy m a >>> (t - e).toNat).roundedMantissa
  have hmin := hnear.min_le
  refine ⟨t, r, hnear, ?_⟩
  dsimp only
  rcases hnear.le_two_pow.lt_or_eq with hlt | heq
  · have hlog : r = 0 ∨ r.log2 < 53 :=
      (Nat.eq_zero_or_pos r).imp_right fun hpos => (Nat.log2_lt hpos.ne').2 hlt
    have hstay : unitExponent r t ≤ t := by
      rw [unitExponent_eq]
      rcases hlog with hr | hlog
      · simp [hr]
        omega
      · omega
    rw [shiftToTargetExponent_of_le hstay]
    by_cases hr : r = 0
    · exact .inl ⟨hr, dif_pos hr⟩
    · refine .inr ⟨r, t, Nat.pos_of_ne_zero hr, dif_neg hr, ⟨hlt, hmin, ?_⟩, rfl⟩
      refine hnear.unit.symm.imp_left fun hunit => hnear.le_round _ ?_
      rw [zpow_add₀ two_ne_zero, mul_comm] at hunit
      exact_mod_cast hunit
  -- The mantissa has carried, so half of it has one digit less.
  · have hcarry : unitExponent r t = t + 1 := by
      rw [unitExponent_eq, heq, Nat.log2_two_pow]
      omega
    have hhalf : (ExtendedMantissa.ofMantissaAndAccuracy r .exact >>> 1).mantissa = 2 ^ 52 := by
      change r / 2 = 2 ^ 52
      rw [heq]
      norm_num
    rw [shiftToTargetExponent_eq (by omega), hcarry, add_sub_cancel_left]
    refine .inr ⟨2 ^ 52, t + 1, by norm_num, ?_, ⟨by norm_num, by omega, .inl le_rfl⟩, ?_⟩
    · simp only [ofShifted, Int.toNat_one, hhalf]
      rfl
    · rw [heq, zpow_add_one₀ two_ne_zero]
      push_cast
      ring

/-! ## The operations -/

theorem rounded_mul {m₁ m₂ : ℕ} {e₁ e₂ : ℤ} (s : Sign) (h₁ : Canonical m₁ e₁)
    (h₂ : Canonical m₂ e₂) (hm₁ : 0 < m₁) (hm₂ : 0 < m₂) :
    Rounded (m₁ * 2 ^ e₁ * (m₂ * 2 ^ e₂)) s
      (roundWithAccuracy Format.binary64 s (m₁ * m₂) (e₁ + e₂) .exact) := by
  have hscale : (m₁ : ℚ) * 2 ^ e₁ * (m₂ * 2 ^ e₂) = (m₁ * m₂ : ℕ) * 2 ^ (e₁ + e₂) := by
    rw [zpow_add₀ two_ne_zero]
    push_cast
    ring
  rw [hscale]
  refine rounded_roundWithAccuracy s rfl ?_
  rw [unitExponent_eq]
  have hlog : 2 ^ 52 ≤ m₁ * m₂ → 52 ≤ (m₁ * m₂).log2 :=
    (Nat.le_log2 (Nat.mul_pos hm₁ hm₂).ne').2
  have hn₁ : 2 ^ 52 ≤ m₁ → 2 ^ 52 ≤ m₁ * m₂ := fun h => h.trans (Nat.le_mul_of_pos_right _ hm₂)
  have hn₂ : 2 ^ 52 ≤ m₂ → 2 ^ 52 ≤ m₁ * m₂ := fun h => h.trans (Nat.le_mul_of_pos_left _ hm₁)
  rcases h₁.normal with h | h
  · have := hlog (hn₁ h)
    omega
  · rcases h₂.normal with h' | h'
    · have := hlog (hn₂ h')
      omega
    · omega

theorem log2_shiftLeft {m : ℕ} (h : 0 < m) (k : ℕ) : (m <<< k).log2 = m.log2 + k := by
  have hle := Nat.log2_self_le h.ne'
  have hlt : m < 2 ^ (m.log2 + 1) := Nat.lt_log2_self
  have hpos := Nat.two_pow_pos k
  rw [Nat.shiftLeft_eq, Nat.log2_eq_iff (Nat.mul_pos h hpos).ne']
  rw [add_right_comm, pow_add, pow_add]
  exact ⟨Nat.mul_le_mul_right _ hle, Nat.mul_lt_mul_of_pos_right hlt hpos⟩

theorem rounded_round {m : ℕ} (e : ℤ) (s : Sign) (h : 0 < m) :
    Rounded (m * 2 ^ e) s (UnpackedFloat.round Format.binary64 s m e) := by
  set k := (e - unitExponent m e).toNat with hk
  have hround : UnpackedFloat.round Format.binary64 s m e =
      roundWithAccuracy Format.binary64 s (m <<< k) (e - k) .exact := rfl
  have hscale : (m : ℚ) * 2 ^ e = (m <<< k : ℕ) * 2 ^ (e - k) := by
    rw [Nat.shiftLeft_eq, zpow_sub₀ two_ne_zero, zpow_natCast]
    push_cast
    field_simp
  rw [hround, hscale]
  refine rounded_roundWithAccuracy s rfl ?_
  rw [unitExponent_eq] at hk ⊢
  rw [log2_shiftLeft h]
  omega

/-- The rest of a division says where the quotient lies. -/
theorem describes_div (n : ℕ) {d : ℕ} (hd : 0 < d) :
    Describes (n / d) (n / d : ℚ) (accuracyOfFraction (n % d) d) := by
  have hd' : (0 : ℚ) < d := by exact_mod_cast hd
  have hsplit : (n : ℚ) / d = (n / d : ℕ) + ((n % d : ℕ) : ℚ) / d := by
    have h : (n : ℚ) = d * (n / d : ℕ) + (n % d : ℕ) := by exact_mod_cast (Nat.div_add_mod n d).symm
    rw [div_eq_iff hd'.ne', add_mul, div_mul_cancel₀ _ hd'.ne', mul_comm]
    exact h
  have hlt : ((n % d : ℕ) : ℚ) / d < 1 := by
    rw [div_lt_one hd']
    exact_mod_cast Nat.mod_lt n hd
  rw [accuracyOfFraction, hsplit]
  split_ifs with hzero
  · simp [Describes, hzero]
  · have hpos : 0 < ((n % d : ℕ) : ℚ) / d :=
      div_pos (by exact_mod_cast Nat.pos_of_ne_zero hzero) hd'
    rcases hcmp : compare (2 * (n % d)) d with _ | _ | _
    · have h : (2 * (n % d : ℕ) : ℚ) < d := by exact_mod_cast Nat.compare_eq_lt.1 hcmp
      have hhalf : ((n % d : ℕ) : ℚ) / d < 1 / 2 := by
        rw [div_lt_iff₀ hd']
        linarith
      exact ⟨by linarith, by linarith⟩
    · have h : (2 * (n % d : ℕ) : ℚ) = d := by exact_mod_cast Nat.compare_eq_eq.1 hcmp
      have hhalf : ((n % d : ℕ) : ℚ) / d = 1 / 2 := by
        rw [div_eq_iff hd'.ne']
        linarith
      exact congrArg _ hhalf
    · have h : (d : ℚ) < 2 * (n % d : ℕ) := by exact_mod_cast Nat.compare_eq_gt.1 hcmp
      have hhalf : 1 / 2 < ((n % d : ℕ) : ℚ) / d := by
        rw [lt_div_iff₀ hd']
        linarith
      exact ⟨by linarith, by linarith⟩

theorem rounded_div {m₁ m₂ : ℕ} {e₁ e₂ : ℤ} (s : Sign) (hm₁ : 0 < m₁) (hm₂ : 0 < m₂) :
    Rounded (m₁ * 2 ^ e₁ / (m₂ * 2 ^ e₂)) s
      (roundWithAccuracy Format.binary64 s (divCore Format.binary64 m₁ e₁ m₂ e₂).1
        (divCore Format.binary64 m₁ e₁ m₂ e₂).2.1 (divCore Format.binary64 m₁ e₁ m₂ e₂).2.2) := by
  set t := min (e₁ - e₂)
    (Format.binary64.targetExponent (totalExponent m₁ e₁ - totalExponent m₂ e₂)) with ht
  have htarget : Format.binary64.targetExponent (totalExponent m₁ e₁ - totalExponent m₂ e₂) =
      max (m₁.log2 + e₁ - m₂.log2 - e₂ - 53) (-1074) := by
    rw [targetExponent_binary64, totalExponent, totalExponent]
    omega
  rw [htarget] at ht
  set k := (e₁ - e₂ - t).toNat with hk
  have hcore : divCore Format.binary64 m₁ e₁ m₂ e₂ =
    ((m₁ <<< k) / m₂, t, accuracyOfFraction ((m₁ <<< k) % m₂) m₂) := rfl
  have hscale : (m₁ : ℚ) * 2 ^ e₁ / (m₂ * 2 ^ e₂) = ((m₁ <<< k : ℕ) / m₂ : ℚ) * 2 ^ t := by
    have hcast : (k : ℤ) = e₁ - e₂ - t := Int.toNat_of_nonneg (by omega)
    rw [Nat.shiftLeft_eq]
    push_cast
    rw [← zpow_natCast, hcast, zpow_sub₀ two_ne_zero, zpow_sub₀ two_ne_zero]
    field_simp
  rw [hcore, hscale]
  refine rounded_roundWithAccuracy s (describes_div _ hm₂) ?_
  dsimp only
  rw [unitExponent_eq]
  by_cases hmin : t ≤ -1074
  · omega
  -- The quotient has 53 digits.
  · have hdigits : 2 ^ 52 ≤ (m₁ <<< k) / m₂ := by
      have hm₁' := Nat.log2_self_le hm₁.ne'
      have hm₂' : m₂ < 2 ^ (m₂.log2 + 1) := Nat.lt_log2_self
      rw [Nat.le_div_iff_mul_le hm₂, Nat.shiftLeft_eq]
      calc 2 ^ 52 * m₂ ≤ 2 ^ 52 * 2 ^ (m₂.log2 + 1) := Nat.mul_le_mul_left _ hm₂'.le
        _ = 2 ^ (52 + (m₂.log2 + 1)) := (pow_add ..).symm
        _ ≤ 2 ^ (m₁.log2 + k) := Nat.pow_le_pow_right two_pos (by omega)
        _ = 2 ^ m₁.log2 * 2 ^ k := pow_add ..
        _ ≤ m₁ * 2 ^ k := Nat.mul_le_mul_right _ hm₁'
    have hlog := (Nat.le_log2 (by omega)).2 hdigits
    omega

theorem exists_describes_sqrt (n : ℕ) :
    ∃ x, Describes n.sqrt x (if n - n.sqrt * n.sqrt = 0 then .exact
      else .inexact (if n - n.sqrt * n.sqrt ≤ n.sqrt then .lt else .gt)) := by
  split_ifs
  · exact ⟨n.sqrt, rfl⟩
  · exact ⟨n.sqrt + 1 / 4, by constructor <;> linarith⟩
  · exact ⟨n.sqrt + 3 / 4, by constructor <;> linarith⟩

/-- The root of a finite number is a rounding of something above each power of two whose square
is below the number. -/
theorem rounded_sqrt {m : ℕ} (e : ℤ) (hm : 0 < m) :
    ∃ v, Rounded v .positive (roundWithAccuracy Format.binary64 .positive
        (sqrtCore Format.binary64 m e).1 (sqrtCore Format.binary64 m e).2.1
        (sqrtCore Format.binary64 m e).2.2) ∧
      ∀ j : ℤ, (2 : ℚ) ^ j * 2 ^ j ≤ m * 2 ^ e → 2 ^ j ≤ v := by
  set t := min (e.ediv 2) (Format.binary64.targetExponent ((totalExponent m e + 1).ediv 2)) with ht
  have htarget : Format.binary64.targetExponent ((totalExponent m e + 1).ediv 2) =
      max ((m.log2 + e + 2) / 2 - 53) (-1074) := by
    rw [targetExponent_binary64, totalExponent]
    change max ((_ : ℤ) / 2 - 53) _ = _
    omega
  have hediv : e.ediv 2 = e / 2 := rfl
  rw [htarget, hediv] at ht
  set k := (e - 2 * t).toNat with hk
  set n := m <<< k with hn
  have hcast : (k : ℤ) = e - 2 * t := Int.toNat_of_nonneg (by omega)
  have hlow : 2 ^ (m.log2 + k) ≤ n := by
    rw [hn, Nat.shiftLeft_eq, pow_add]
    exact Nat.mul_le_mul_right _ (Nat.log2_self_le hm.ne')
  have hroot : 1 ≤ n.sqrt := Nat.le_sqrt.2 (le_trans (Nat.one_le_two_pow) hlow)
  obtain ⟨x, hx⟩ := exists_describes_sqrt n
  have hcore : sqrtCore Format.binary64 m e = (n.sqrt, t, if n - n.sqrt * n.sqrt = 0 then .exact
      else .inexact (if n - n.sqrt * n.sqrt ≤ n.sqrt then .lt else .gt)) := rfl
  rw [hcore]
  refine ⟨_, rounded_roundWithAccuracy .positive hx ?_, fun j hj => ?_⟩
  · dsimp only
    rw [unitExponent_eq]
    by_cases hmin : t ≤ -1074
    · omega
    -- The root has 53 digits.
    · have hdigits : 2 ^ 52 ≤ n.sqrt := by
        rw [Nat.le_sqrt]
        calc 2 ^ 52 * 2 ^ 52 ≤ 2 ^ (m.log2 + k) := by
              rw [← pow_add]
              exact Nat.pow_le_pow_right two_pos (by omega)
          _ ≤ n := hlow
      have hlog := (Nat.le_log2 (by omega)).2 hdigits
      omega
  · have hpos := unit_pos t
    refine le_trans ?_ (mul_le_mul_of_nonneg_right hx.le hpos.le)
    by_cases hjt : t ≤ j
    · have hcastj : ((j - t).toNat : ℤ) = j - t := Int.toNat_of_nonneg (by omega)
      have hsplit : (2 : ℚ) ^ j = (2 ^ (j - t).toNat : ℕ) * 2 ^ t := by
        push_cast
        rw [← zpow_natCast, hcastj, ← zpow_add₀ two_ne_zero, sub_add_cancel]
      have hsquare : (m : ℚ) * 2 ^ e = (n : ℕ) * (2 ^ t * 2 ^ t) := by
        rw [hn, Nat.shiftLeft_eq]
        push_cast
        rw [← zpow_natCast, hcast, ← zpow_add₀ two_ne_zero, mul_assoc, ← zpow_add₀ two_ne_zero]
        congr 2
        ring
      rw [hsplit] at hj ⊢
      rw [hsquare, mul_mul_mul_comm] at hj
      have hle : 2 ^ (j - t).toNat ≤ n.sqrt := by
        rw [Nat.le_sqrt]
        exact_mod_cast le_of_mul_le_mul_right hj (mul_pos hpos hpos)
      exact mul_le_mul_of_nonneg_right (by exact_mod_cast hle) hpos.le
    · have hle : (2 : ℚ) ^ j ≤ 2 ^ t := zpow_le_zpow_right₀ one_le_two (by omega)
      have hone : (1 : ℚ) ≤ n.sqrt := by exact_mod_cast hroot
      exact hle.trans (le_mul_of_one_le_left hpos.le hone)

/-- A number by its sign and its size. -/
def signed : Sign → ℚ → ℚ
  | .positive, q => q
  | .negative, q => -q

/-- The sum of two finite numbers is the exact one, rounded, and `0.0` if that is zero. -/
theorem rounded_add {v : ℚ} {m₁ m₂ : ℕ} {e₁ e₂ : ℤ} {s₁ s₂ : Sign} (hm₁ : 0 < m₁) (hm₂ : 0 < m₂)
    (hv : v = signed s₁ (m₁ * 2 ^ e₁) + signed s₂ (m₂ * 2 ^ e₂)) :
    v = 0 ∧ UnpackedFloat.add Format.binary64 (.finite s₁ m₁ e₁ hm₁) (.finite s₂ m₂ e₂ hm₂) =
        .zero .positive ∨
      2 ^ min e₁ e₂ ≤ |v| ∧ Rounded |v| (if v < 0 then .negative else .positive)
        (UnpackedFloat.add Format.binary64 (.finite s₁ m₁ e₁ hm₁) (.finite s₂ m₂ e₂ hm₂)) := by
  set e := min e₁ e₂ with he
  have halign : ∀ (s : Sign) (m : ℕ) (e' : ℤ), e ≤ e' →
      signed s (m * 2 ^ e') = (s.apply ((m <<< (e' - e).toNat : ℕ) : ℤ) : ℚ) * 2 ^ e := by
    intro s m e' hle
    have hcast : ((e' - e).toNat : ℤ) = e' - e := Int.toNat_of_nonneg (by omega)
    have hscale : (m : ℚ) * 2 ^ e' = (m <<< (e' - e).toNat : ℕ) * 2 ^ e := by
      rw [Nat.shiftLeft_eq]
      push_cast
      rw [← zpow_natCast, hcast, mul_assoc, ← zpow_add₀ two_ne_zero, sub_add_cancel]
    cases s with
    | positive => exact hscale
    | negative =>
      simp only [signed, Sign.apply, Int.cast_neg, Int.cast_natCast, neg_mul]
      rw [hscale]
  set z := s₁.apply ((m₁ <<< (e₁ - e).toNat : ℕ) : ℤ) + s₂.apply ((m₂ <<< (e₂ - e).toNat : ℕ) : ℤ)
    with hz
  have hadd : UnpackedFloat.add Format.binary64 (.finite s₁ m₁ e₁ hm₁) (.finite s₂ m₂ e₂ hm₂) =
    UnpackedFloat.normalize Format.binary64 z e .positive := rfl
  have hpos := unit_pos e
  have hunit : ∀ k : ℕ, 0 < k → (2 : ℚ) ^ e ≤ k * 2 ^ e := fun k hk =>
    le_mul_of_one_le_left hpos.le (by exact_mod_cast hk)
  have hvz : v = z * 2 ^ e := by
    rw [hv, halign s₁ m₁ e₁ (min_le_left ..), halign s₂ m₂ e₂ (min_le_right ..), ← add_mul, hz]
    push_cast
    rfl
  rw [hadd, hvz]
  rcases lt_trichotomy z 0 with hneg | hzero | hposz
  · right
    have hneg' : (z : ℚ) * 2 ^ e < 0 := mul_neg_of_neg_of_pos (by exact_mod_cast hneg) hpos
    have hround := rounded_round (m := (-z).toNat) e .negative (by omega)
    have habs : |(z : ℚ) * 2 ^ e| = ((-z).toNat : ℕ) * 2 ^ e := by
      have hcast : (((-z).toNat : ℕ) : ℚ) = -z := by
        exact_mod_cast Int.toNat_of_nonneg (show 0 ≤ -z by omega)
      rw [abs_of_neg hneg', hcast, neg_mul]
    have hnormal : UnpackedFloat.normalize Format.binary64 z e .positive =
        UnpackedFloat.round Format.binary64 .negative (-z).toNat e := by
      rw [UnpackedFloat.normalize, compare_lt_iff_lt.2 hneg]
    rw [if_pos hneg', habs, hnormal]
    exact ⟨hunit _ (by omega), hround⟩
  · left
    rw [hzero]
    exact ⟨by simp, rfl⟩
  · right
    have hpos' : 0 < (z : ℚ) * 2 ^ e := mul_pos (by exact_mod_cast hposz) hpos
    have hround := rounded_round (m := z.toNat) e .positive (by omega)
    have habs : |(z : ℚ) * 2 ^ e| = (z.toNat : ℕ) * 2 ^ e := by
      have hcast : ((z.toNat : ℕ) : ℚ) = z := by
        exact_mod_cast Int.toNat_of_nonneg hposz.le
      rw [abs_of_pos hpos', hcast]
    have hnormal : UnpackedFloat.normalize Format.binary64 z e .positive =
        UnpackedFloat.round Format.binary64 .positive z.toNat e := by
      rw [UnpackedFloat.normalize, compare_gt_iff_gt.2 hposz]
    rw [if_neg hpos'.not_gt, habs, hnormal]
    exact ⟨hunit _ (by omega), hround⟩

end Rounding
