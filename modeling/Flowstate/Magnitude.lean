import Flowstate.Rounding

/-!
# Bounds that survive rounding

Rounding is monotone and keeps what binary64 holds (`Nearest.le_of_le`, `Nearest.le_of_ge`). So a
bound that binary64 holds is passed on by an operation, whatever is rounded on the way :
`AtMost y` bounds a finite number from above, `AtLeast y` a number or an infinity from below.

* Products, quotients, roots : `mul_atMost`, `mul_atLeast`, `div_atMost`, `sqrt_atLeast`.
* Sums of numbers without a minus sign : `add_of_nonNeg`.
* A small summand leaves a number finite, as large as it may be : `add_isFinite`.
* Comparison : `le_of_atMost`, `atMost_of_le`, `atLeast_of_lt`.
-/

open Float.Model Float.Model.UnpackedFloat

namespace Rounding

/-! ## What binary64 holds -/

/-- A number that binary64 holds, if it is not too large. -/
def Held (y : ℚ) : Prop := ∃ (k : ℕ) (j : ℤ), k ≤ 2 ^ 53 ∧ -1074 ≤ j ∧ y = k * 2 ^ j

theorem held_two_zpow {j : ℤ} (hj : -1074 ≤ j) : Held (2 ^ j) :=
  ⟨1, j, by norm_num, hj, by rw [Nat.cast_one, one_mul]⟩

/-- By any unit, what binary64 holds is a multiple or has few digits. -/
theorem Held.multiple_or_le {y : ℚ} (h : Held y) (t : ℤ) :
    (∃ k : ℕ, y = k * 2 ^ t) ∨ t ≠ -1074 ∧ y ≤ 2 ^ (t + 52) := by
  obtain ⟨k, j, hk, hj, rfl⟩ := h
  by_cases hjt : t ≤ j
  · refine .inl ⟨k * 2 ^ (j - t).toNat, ?_⟩
    have hcast : ((j - t).toNat : ℤ) = j - t := Int.toNat_of_nonneg (by omega)
    push_cast
    rw [← zpow_natCast, hcast, mul_assoc, ← zpow_add₀ two_ne_zero, sub_add_cancel]
  · refine .inr ⟨by omega, ?_⟩
    have hk' : (k : ℚ) ≤ 2 ^ (53 : ℤ) := by exact_mod_cast hk
    calc (k : ℚ) * 2 ^ j ≤ 2 ^ (53 : ℤ) * 2 ^ j :=
          mul_le_mul_of_nonneg_right hk' (unit_pos j).le
      _ = 2 ^ (53 + j) := (zpow_add₀ two_ne_zero _ _).symm
      _ ≤ 2 ^ (t + 52) := zpow_le_zpow_right₀ one_le_two (by omega)

/-- Rounding is monotone : what binary64 holds above `v` is above the nearest number. -/
theorem Nearest.le_of_le {v y : ℚ} {t : ℤ} {r : ℕ} (h : Nearest v t r) (hy : Held y)
    (hv : v ≤ y) : r * 2 ^ t ≤ y := by
  have hpos := unit_pos t
  have hround : ∀ k : ℕ, v ≤ k * 2 ^ t → (r : ℚ) * 2 ^ t ≤ k * 2 ^ t := by
    intro k hk
    refine mul_le_mul_of_nonneg_right ?_ hpos.le
    exact_mod_cast h.round_le k (hk.trans_lt (mul_lt_mul_of_pos_right (by linarith) hpos))
  rcases hy.multiple_or_le t with ⟨k, rfl⟩ | ⟨ht, hle⟩
  · exact hround k hv
  · have hunit := h.unit.resolve_left ht
    rw [two_zpow_add_52] at hunit hle
    exact (hround _ (hv.trans hle)).trans (hunit.trans hv)

theorem Nearest.le_of_ge {v y : ℚ} {t : ℤ} {r : ℕ} (h : Nearest v t r) (hy : Held y)
    (hv : y ≤ v) : y ≤ r * 2 ^ t := by
  have hround : ∀ k : ℕ, k * 2 ^ t ≤ v → (k : ℚ) * 2 ^ t ≤ r * 2 ^ t := by
    intro k hk
    refine mul_le_mul_of_nonneg_right ?_ (unit_pos t).le
    exact_mod_cast h.le_round k hk
  rcases hy.multiple_or_le t with ⟨k, rfl⟩ | ⟨ht, hle⟩
  · exact hround k hv
  · have hunit := h.unit.resolve_left ht
    rw [two_zpow_add_52] at hunit hle
    exact hle.trans (hround _ hunit)

/-- A finite number is at most `y` in size. -/
def AtMost (y : ℚ) : UnpackedFloat → Prop
  | .zero _ => True
  | .finite _ m e _ => (m : ℚ) * 2 ^ e ≤ y
  | _ => False

/-- A number is at least `y` in size. -/
def AtLeast (y : ℚ) : UnpackedFloat → Prop
  | .infinity _ => True
  | .finite _ m e _ => y ≤ (m : ℚ) * 2 ^ e
  | _ => False

/-- A number without a minus sign, or a zero. -/
def NonNeg : UnpackedFloat → Prop
  | .infinity s => s = .positive
  | .finite s _ _ _ => s = .positive
  | .zero _ => True
  | .notANumber => False

namespace Rounded

variable {v y : ℚ} {s : Sign} {u : UnpackedFloat}

theorem atMost (h : Rounded v s u) (hy : Held y) (hv : v ≤ y) (hlt : y < 2 ^ (1024 : ℤ)) :
    AtMost y (settle u) := by
  obtain ⟨t, r, hnear, ⟨-, rfl⟩ | ⟨m, e, hm, rfl, hc, heq⟩⟩ := h
  · rw [settle_zero]
    trivial
  · have hle : (m : ℚ) * 2 ^ e ≤ y := heq ▸ hnear.le_of_le hy hv
    rw [settle_finite s hm hc, if_neg (not_lt.2 (hc.le_of_lt (hle.trans_lt hlt)))]
    exact hle

theorem atLeast (h : Rounded v s u) (hy : Held y) (hpos : 0 < y) (hv : y ≤ v) :
    AtLeast y (settle u) := by
  obtain ⟨t, r, hnear, ⟨rfl, rfl⟩ | ⟨m, e, hm, rfl, hc, heq⟩⟩ := h
  · have hle := hnear.le_of_ge hy hv
    rw [Nat.cast_zero, zero_mul] at hle
    exact absurd hle (not_le.2 hpos)
  · have hle : y ≤ (m : ℚ) * 2 ^ e := heq ▸ hnear.le_of_ge hy hv
    rw [settle_finite s hm hc]
    split_ifs
    · trivial
    · exact hle

theorem nonNeg (h : Rounded v .positive u) : NonNeg (settle u) := by
  obtain ⟨t, r, -, ⟨-, rfl⟩ | ⟨m, e, hm, rfl, hc, -⟩⟩ := h
  · rw [settle_zero]
    trivial
  · rw [settle_finite _ hm hc]
    split_ifs <;> rfl

end Rounded

/-! ## Products, quotients, roots and sums -/

theorem mul_atMost {a b y : ℚ} {u w : UnpackedFloat} (hu : Settled u) (hw : Settled w)
    (h₁ : AtMost a u) (h₂ : AtMost b w) (hy : Held y) (hab : a * b ≤ y)
    (hlt : y < 2 ^ (1024 : ℤ)) : AtMost y (settle (UnpackedFloat.mul Format.binary64 u w)) := by
  cases u with
  | infinity | notANumber => exact h₁.elim
  | zero s₁ =>
    cases w with
    | infinity | notANumber => exact h₂.elim
    | zero s₂ | finite s₂ =>
      change AtMost y (settle (.zero (s₁ * s₂)))
      rw [settle_zero]
      trivial
  | finite s₁ m₁ e₁ hm₁ =>
    cases w with
    | infinity | notANumber => exact h₂.elim
    | zero s₂ =>
      change AtMost y (settle (.zero (s₁ * s₂)))
      rw [settle_zero]
      trivial
    | finite s₂ m₂ e₂ hm₂ =>
      have hpos₂ : (0 : ℚ) ≤ m₂ * 2 ^ e₂ := mul_nonneg (Nat.cast_nonneg _) (unit_pos e₂).le
      have hpos₁ : (0 : ℚ) ≤ m₁ * 2 ^ e₁ := mul_nonneg (Nat.cast_nonneg _) (unit_pos e₁).le
      exact (rounded_mul (s₁ * s₂) hu.1 hw.1 hm₁ hm₂).atMost hy
        ((mul_le_mul h₁ h₂ hpos₂ (hpos₁.trans h₁)).trans hab) hlt

theorem mul_atLeast {a b y : ℚ} {u w : UnpackedFloat} (hu : Settled u) (hw : Settled w)
    (h₁ : AtLeast a u) (h₂ : AtLeast b w) (ha : 0 ≤ a) (hb : 0 ≤ b) (hy : Held y) (hpos : 0 < y)
    (hab : y ≤ a * b) : AtLeast y (settle (UnpackedFloat.mul Format.binary64 u w)) := by
  have hinf : ∀ s, AtLeast y (settle (.infinity s)) := fun s => by
    rw [settle_infinity]
    trivial
  cases u with
  | zero | notANumber => exact h₁.elim
  | infinity s₁ =>
    cases w with
    | zero | notANumber => exact h₂.elim
    | infinity s₂ | finite s₂ => exact hinf (s₁ * s₂)
  | finite s₁ m₁ e₁ hm₁ =>
    cases w with
    | zero | notANumber => exact h₂.elim
    | infinity s₂ => exact hinf (s₁ * s₂)
    | finite s₂ m₂ e₂ hm₂ =>
      exact (rounded_mul (s₁ * s₂) hu.1 hw.1 hm₁ hm₂).atLeast hy hpos
        (hab.trans (mul_le_mul h₁ h₂ hb (ha.trans h₁)))

theorem div_atMost {a b y : ℚ} {u w : UnpackedFloat} (h₁ : AtMost a u) (h₂ : AtLeast b w)
    (hb : 0 < b) (hy : Held y) (hab : a / b ≤ y) (hlt : y < 2 ^ (1024 : ℤ)) :
    AtMost y (settle (UnpackedFloat.div Format.binary64 u w)) := by
  have hzero : ∀ s, AtMost y (settle (.zero s)) := fun s => by
    rw [settle_zero]
    trivial
  cases u with
  | infinity | notANumber => exact h₁.elim
  | zero s₁ =>
    cases w with
    | zero | notANumber => exact h₂.elim
    | infinity s₂ | finite s₂ => exact hzero (s₁ / s₂)
  | finite s₁ m₁ e₁ hm₁ =>
    cases w with
    | zero | notANumber => exact h₂.elim
    | infinity s₂ => exact hzero (s₁ / s₂)
    | finite s₂ m₂ e₂ hm₂ =>
      have hpos₁ : (0 : ℚ) ≤ m₁ * 2 ^ e₁ := mul_nonneg (Nat.cast_nonneg _) (unit_pos e₁).le
      exact (rounded_div (s₁ / s₂) hm₁ hm₂).atMost hy
        ((div_le_div₀ (hpos₁.trans h₁) h₁ hb h₂).trans hab) hlt

theorem sqrt_atLeast {j : ℤ} {u : UnpackedFloat} (hu : NonNeg u)
    (h : AtLeast (2 ^ j * 2 ^ j) u) (hj : -1074 ≤ j) :
    AtLeast (2 ^ j) (settle (UnpackedFloat.sqrt Format.binary64 u)) := by
  cases u with
  | zero | notANumber => exact h.elim
  | infinity s =>
    obtain rfl : s = .positive := hu
    trivial
  | finite s m e hm =>
    obtain rfl : s = .positive := hu
    obtain ⟨v, hv, hle⟩ := rounded_sqrt e hm
    exact hv.atLeast (held_two_zpow hj) (unit_pos j) (hle j h)

theorem mul_self_nonNeg {u : UnpackedFloat} (hu : Settled u) (h : u ≠ .notANumber) :
    NonNeg (settle (UnpackedFloat.mul Format.binary64 u u)) := by
  have hs : ∀ s : Sign, s * s = .positive := fun s => by cases s <;> rfl
  cases u with
  | notANumber => exact absurd rfl h
  | infinity s =>
    change NonNeg (settle (.infinity (s * s)))
    rw [settle_infinity]
    exact hs s
  | zero s =>
    change NonNeg (settle (.zero (s * s)))
    rw [settle_zero]
    trivial
  | finite s m e hm =>
    have hround := rounded_mul (s * s) hu.1 hu.1 hm hm
    rw [hs] at hround
    change NonNeg (settle (roundWithAccuracy Format.binary64 (s * s) _ _ .exact))
    rw [hs]
    exact hround.nonNeg

/-- A sum of numbers without a minus sign has none, and is no less than either. -/
theorem add_of_nonNeg {u w : UnpackedFloat} (hu : Settled u) (hw : Settled w) (h₁ : NonNeg u)
    (h₂ : NonNeg w) : NonNeg (settle (UnpackedFloat.add Format.binary64 u w)) ∧
      ∀ y, Held y → 0 < y → AtLeast y u ∨ AtLeast y w →
        AtLeast y (settle (UnpackedFloat.add Format.binary64 u w)) := by
  have hinf : NonNeg (settle (.infinity .positive)) ∧
      ∀ y, Held y → 0 < y → AtLeast y u ∨ AtLeast y w →
        AtLeast y (settle (.infinity .positive)) := by
    rw [settle_infinity]
    exact ⟨rfl, fun _ _ _ _ => trivial⟩
  cases u with
  | notANumber => exact h₁.elim
  | infinity s =>
    obtain rfl : s = .positive := h₁
    cases w with
    | notANumber => exact h₂.elim
    | infinity s' =>
      obtain rfl : s' = .positive := h₂
      exact hinf
    | zero | finite => exact hinf
  | zero s =>
    cases w with
    | notANumber => exact h₂.elim
    | infinity s' =>
      obtain rfl : s' = .positive := h₂
      exact hinf
    | zero s' =>
      refine ⟨?_, fun _ _ _ h => h.elim False.elim False.elim⟩
      cases s <;> cases s' <;> trivial
    | finite s' m' e' hm' =>
      change NonNeg (settle (.finite s' m' e' hm')) ∧ _
      have hadd : UnpackedFloat.add Format.binary64 (.zero s) (.finite s' m' e' hm') =
        .finite s' m' e' hm' := rfl
      rw [hadd, settle_eq hw]
      exact ⟨h₂, fun _ _ _ h => h.resolve_left False.elim⟩
  | finite s m e hm =>
    cases w with
    | notANumber => exact h₂.elim
    | infinity s' =>
      obtain rfl : s' = .positive := h₂
      exact hinf
    | zero s' =>
      have hadd : UnpackedFloat.add Format.binary64 (.finite s m e hm) (.zero s') =
        .finite s m e hm := rfl
      rw [hadd, settle_eq hu]
      exact ⟨h₁, fun _ _ _ h => h.resolve_right False.elim⟩
    | finite s' m' e' hm' =>
      obtain rfl : s = .positive := h₁
      obtain rfl : s' = .positive := h₂
      have hpos : (0 : ℚ) < m * 2 ^ e := mul_pos (by exact_mod_cast hm) (unit_pos e)
      have hpos' : (0 : ℚ) < m' * 2 ^ e' := mul_pos (by exact_mod_cast hm') (unit_pos e')
      have hsum := add_pos hpos hpos'
      have hsigned : (m : ℚ) * 2 ^ e + m' * 2 ^ e' =
        signed .positive (m * 2 ^ e) + signed .positive (m' * 2 ^ e') := rfl
      rcases rounded_add hm hm' hsigned with ⟨hzero, -⟩ | ⟨-, hround⟩
      · exact absurd hzero hsum.ne'
      · change Rounded |(m : ℚ) * 2 ^ e + m' * 2 ^ e'| (if (m : ℚ) * 2 ^ e + m' * 2 ^ e' < 0 then
          .negative else .positive) _ at hround
        rw [if_neg hsum.not_gt, abs_of_pos hsum] at hround
        refine ⟨hround.nonNeg, fun y hy hypos h => hround.atLeast hy hypos ?_⟩
        rcases h with h | h
        · exact (show y ≤ m * 2 ^ e from h).trans (le_add_of_nonneg_right hpos'.le)
        · exact (show y ≤ m' * 2 ^ e' from h).trans (le_add_of_nonneg_left hpos.le)

/-- What lies below the middle between the greatest finite number and `2 ^ 1024` is rounded to
a finite number. -/
theorem Rounded.isFinite {v : ℚ} {s : Sign} {u : UnpackedFloat} (h : Rounded v s u)
    (hv : v < ((2 ^ 53 - 1 : ℕ) + 1 / 2) * 2 ^ (971 : ℤ)) : (settle u).isFinite = true := by
  obtain ⟨t, r, hnear, ⟨-, rfl⟩ | ⟨m, e, hm, rfl, hc, heq⟩⟩ := h
  · rw [settle_zero]
    rfl
  · have hfit : (r : ℚ) * 2 ^ t < 2 ^ (1024 : ℤ) := by
      have htop : (2 : ℚ) ^ (1024 : ℤ) = (2 ^ 53 : ℕ) * 2 ^ (971 : ℤ) := by
        have hsum : (1024 : ℤ) = 53 + 971 := rfl
        rw [hsum, zpow_add₀ two_ne_zero]
        norm_num
      have htpos := unit_pos t
      have hvlt : v < 2 ^ (1024 : ℤ) := by
        rw [htop]
        refine hv.trans (mul_lt_mul_of_pos_right ?_ (unit_pos 971))
        norm_num
      have ht : t ≤ 971 := by
        rcases hnear.unit with ht | ht
        · omega
        · have := (zpow_lt_zpow_iff_right₀ (one_lt_two : (1 : ℚ) < 2)).1 (ht.trans_lt hvlt)
          omega
      rw [htop]
      rcases ht.eq_or_lt with rfl | ht
      · have hr : r < 2 ^ 53 := by
          have := hnear.round_le _ hv
          omega
        exact mul_lt_mul_of_pos_right (by exact_mod_cast hr) htpos
      · have hr : (r : ℚ) ≤ (2 ^ 53 : ℕ) := by exact_mod_cast hnear.le_two_pow
        exact mul_lt_mul_of_le_of_lt_of_nonneg_of_pos hr
          (zpow_lt_zpow_right₀ one_lt_two ht) htpos.le (by norm_num)
    rw [settle_finite s hm hc, if_neg (not_lt.2 (hc.le_of_lt (heq ▸ hfit)))]
    rfl

/-- Adding what is small against the greatest finite number leaves a number finite. -/
theorem add_isFinite {u w : UnpackedFloat} (hu : Settled u) (hw : Settled w)
    (h₁ : u.isFinite = true) (h₂ : AtMost (2 ^ (6 : ℤ)) w) :
    (settle (UnpackedFloat.add Format.binary64 u w)).isFinite = true := by
  have hzero : ∀ s, (settle (.zero s)).isFinite = true := fun s => by
    rw [settle_zero]
    rfl
  cases u with
  | notANumber | infinity => cases h₁
  | zero s =>
    cases w with
    | notANumber | infinity => exact h₂.elim
    | zero s' => cases s <;> cases s' <;> rfl
    | finite s' m' e' hm' =>
      have hadd : UnpackedFloat.add Format.binary64 (.zero s) (.finite s' m' e' hm') =
        .finite s' m' e' hm' := rfl
      rw [hadd, settle_eq hw]
      rfl
  | finite s m e hm =>
    cases w with
    | notANumber | infinity => exact h₂.elim
    | zero s' =>
      have hadd : UnpackedFloat.add Format.binary64 (.finite s m e hm) (.zero s') =
        .finite s m e hm := rfl
      rw [hadd, settle_eq hu]
      rfl
    | finite s' m' e' hm' =>
      obtain ⟨v, hv⟩ : ∃ v, v = signed s (m * 2 ^ e) + signed s' (m' * 2 ^ e') := ⟨_, rfl⟩
      rcases rounded_add hm hm' hv with ⟨-, hadd⟩ | ⟨-, hround⟩
      · rw [hadd]
        exact hzero _
      · refine hround.isFinite ?_
        have habs : ∀ (s : Sign) (q : ℚ), 0 ≤ q → |signed s q| = q := by
          rintro (_ | _) q hq
          · exact (abs_neg q).trans (abs_of_nonneg hq)
          · exact abs_of_nonneg hq
        have hle : |v| ≤ m * 2 ^ e + m' * 2 ^ e' := by
          rw [hv]
          refine (abs_add_le _ _).trans_eq ?_
          rw [habs _ _ (mul_nonneg (Nat.cast_nonneg _) (unit_pos e).le),
            habs _ _ (mul_nonneg (Nat.cast_nonneg _) (unit_pos e').le)]
        have hsmall : (2 : ℚ) ^ (6 : ℤ) < 1 / 2 * 2 ^ (971 : ℤ) := by
          have hhalf : (1 / 2 : ℚ) * 2 ^ (971 : ℤ) = 2 ^ (970 : ℤ) := by
            have hsum : (971 : ℤ) = 970 + 1 := rfl
            rw [hsum, zpow_add_one₀ two_ne_zero]
            ring
          rw [hhalf]
          exact zpow_lt_zpow_right₀ one_lt_two (by norm_num)
        rw [add_mul]
        exact hle.trans_lt (add_lt_add_of_le_of_lt (hu.1.le_max hu.2) (h₂.trans_lt hsmall))

/-! ## Comparison -/

theorem le_of_atMost {y : ℚ} {u w : UnpackedFloat} (hu : Settled u) (hw : Settled w)
    (h₁ : AtMost y u) (h₂ : AtLeast y w) (hpos : NonNeg w) : u.le w = true := by
  cases w with
  | zero | notANumber => exact h₂.elim
  | infinity s =>
    obtain rfl : s = .positive := hpos
    cases u with
    | infinity | notANumber => exact h₁.elim
    | zero | finite => rfl
  | finite s m e hm =>
    obtain rfl : s = .positive := hpos
    cases u with
    | infinity | notANumber => exact h₁.elim
    | zero => rfl
    | finite s' m' e' hm' =>
      cases s' with
      | negative => rfl
      | positive =>
        change Option.any (·.isLE) (some ((compare e' e).then (compare m' m))) = true
        rw [hu.1.compare_eq hw.1, Option.any_some, Ordering.isLE_iff_ne_gt, compare_gt_iff_gt]
        exact not_lt.2 (show (m' : ℚ) * 2 ^ e' ≤ m * 2 ^ e from le_trans h₁ h₂)

theorem atMost_of_le {y : ℚ} {u w : UnpackedFloat} (hu : Settled u) (hw : Settled w)
    (hpos : NonNeg u) (h : u.le w = true) (hy : AtMost y w) : AtMost y u := by
  cases u with
  | notANumber => exact hpos
  | zero => trivial
  | infinity s =>
    obtain rfl : s = .positive := hpos
    cases w with
    | infinity | notANumber => exact hy.elim
    | zero | finite => cases h
  | finite s m e hm =>
    obtain rfl : s = .positive := hpos
    cases w with
    | infinity | notANumber => exact hy.elim
    | zero => cases h
    | finite s' m' e' hm' =>
      cases s' with
      | negative => cases h
      | positive =>
        change Option.any (·.isLE) (some ((compare e e').then (compare m m'))) = true at h
        rw [hu.1.compare_eq hw.1, Option.any_some, Ordering.isLE_iff_ne_gt, compare_gt_iff_gt,
          not_lt] at h
        exact h.trans hy

theorem atLeast_of_lt {y : ℚ} {u w : UnpackedFloat} (hu : Settled u) (hw : Settled w)
    (hpos : NonNeg u) (hy : AtLeast y u) (h : u.lt w = true) : NonNeg w ∧ AtLeast y w := by
  cases u with
  | zero | notANumber => exact hy.elim
  | infinity s =>
    obtain rfl : s = .positive := hpos
    cases w with
    | infinity s' => cases s' <;> cases h
    | zero | finite | notANumber => cases h
  | finite s m e hm =>
    obtain rfl : s = .positive := hpos
    cases w with
    | infinity s' =>
      cases s' with
      | positive => exact ⟨rfl, trivial⟩
      | negative => cases h
    | zero | notANumber => cases h
    | finite s' m' e' hm' =>
      cases s' with
      | negative => cases h
      | positive =>
        have hlt : (compare e e').then (compare m m') = .lt := by
          change (some ((compare e e').then (compare m m')) == some .lt) = true at h
          simpa using h
        rw [hu.1.compare_eq hw.1, compare_lt_iff_lt] at hlt
        exact ⟨rfl, le_trans (show y ≤ m * 2 ^ e from hy) hlt.le⟩

theorem atMost_or_atLeast {u : UnpackedFloat} (h : u ≠ .notANumber) (y : ℚ) :
    AtMost y u ∨ AtLeast y u := by
  cases u with
  | notANumber => exact absurd rfl h
  | zero => exact .inl trivial
  | infinity => exact .inr trivial
  | finite s m e hm => exact le_total _ _

theorem not_atLeast_of_atMost {y y' : ℚ} {u : UnpackedFloat} (h : AtMost y u) (hlt : y < y') :
    ¬AtLeast y' u := by
  intro h'
  cases u with
  | notANumber | infinity => exact h
  | zero => exact h'
  | finite s m e hm => exact absurd (le_trans (show y' ≤ m * 2 ^ e from h') h) (not_le.2 hlt)

end Rounding
