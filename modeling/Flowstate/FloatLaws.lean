import Flowstate.F64
import Flowstate.Magnitude

/-!
# `Float` is lawful

Binary64 has the laws `LawfulZero` and `LawfulRange`. A sum with a zero summand is not even
rounded. What keeps numbers finite is a matter of powers of two : a vector with a component of
size between `2 ^ j` and `2 ^ (j + 1)` has magnitude at least `2 ^ j`, so the scaled component
is at most two, roundings included (`atMost_scaled`).
-/

open Float.Model Float.Model.UnpackedFloat Rounding

namespace F64

/-- The number a double stands for. -/
def unpacked (x : Float) : UnpackedFloat := x.toModel.unpack

theorem settled_unpacked (x : Float) : Settled (unpacked x) := settled_unpack _

theorem unpacked_add (x y : Float) : unpacked (x + y) =
    settle (UnpackedFloat.add Format.binary64 (unpacked x) (unpacked y)) := rfl

theorem unpacked_mul (x y : Float) : unpacked (x * y) =
    settle (UnpackedFloat.mul Format.binary64 (unpacked x) (unpacked y)) := rfl

theorem unpacked_div (x y : Float) : unpacked (x / y) =
    settle (UnpackedFloat.div Format.binary64 (unpacked x) (unpacked y)) := rfl

theorem eq_of_unpacked_eq {x y : Float} (h : unpacked x = unpacked y) : x = y := by
  obtain ⟨⟨x, hx⟩⟩ := x
  obtain ⟨⟨y, hy⟩⟩ := y
  have hbits : x.toBitVec = y.toBitVec := by
    rw [← pack_unpack hx, ← pack_unpack hy]
    exact congrArg (UnpackedFloat.pack Format.binary64) h
  obtain rfl : x = y := UInt64.toBitVec_inj.1 hbits
  rfl

theorem le_eq (x y : Float) : le x y = (unpacked x).le (unpacked y) := by
  change decide (decide (x.toModel ≤ y.toModel) = true) = _
  rw [Bool.decide_eq_true, Bool.eq_iff_iff, decide_eq_true_iff]
  rfl

theorem lt_eq (x y : Float) : lt x y = (unpacked x).lt (unpacked y) := by
  change decide (decide (x.toModel < y.toModel) = true) = _
  rw [Bool.decide_eq_true, Bool.eq_iff_iff, decide_eq_true_iff]
  rfl

theorem finite_iff {x : Float} : Finite x ↔ (unpacked x).isFinite = true := by
  change (unpacked x).isNaN = false ∧ (unpacked x).isInf = false ↔ _
  cases unpacked x <;> simp [UnpackedFloat.isNaN, UnpackedFloat.isInf, UnpackedFloat.isFinite]

theorem unpacked_zero : unpacked (lit 0) = .zero .positive := rfl

theorem eq_zero_iff {x : Float} : eq x (lit 0) = true ↔ ∃ s, unpacked x = .zero s := by
  change (unpacked x).beq (unpacked (lit 0)) = true ↔ _
  rw [unpacked_zero]
  rcases unpacked x with (_ | _) | _ | s | ⟨_ | _, m, e, hm⟩ <;>
    simp [UnpackedFloat.beq, UnpackedFloat.compare]

theorem negZero_iff {x : Float} : NegZero x ↔ unpacked x = .zero .negative := by
  rw [NegZero, eq_zero_iff]
  constructor
  · rintro ⟨⟨s, hs⟩, hne⟩
    cases s with
    | negative => exact hs
    | positive => exact absurd (eq_of_unpacked_eq (hs.trans unpacked_zero.symm)) hne
  · intro h
    refine ⟨⟨_, h⟩, ?_⟩
    rintro rfl
    cases h

/-! ## Literals -/

theorem unpacked_one :
    unpacked (lit 1) = .finite .positive (2 ^ 52) (-52) (Nat.two_pow_pos 52) := rfl

theorem unpacked_five : unpacked (lit 5) =
    .finite .positive (5 * 2 ^ 50) (-50) (Nat.mul_pos (Nat.succ_pos 4) (Nat.two_pow_pos 50)) := rfl

theorem unpacked_sixteen :
    unpacked (lit 16) = .finite .positive (2 ^ 52) (-48) (Nat.two_pow_pos 52) := rfl

theorem atMost_one : AtMost 1 (unpacked (lit 1)) := by
  rw [unpacked_one, AtMost]
  norm_num

theorem atLeast_one : AtLeast 1 (unpacked (lit 1)) := by
  rw [unpacked_one, AtLeast]
  norm_num

theorem held_one : Held 1 := ⟨1, 0, by norm_num, by norm_num, by norm_num⟩

/-- The literal of a `u32` that is not zero is at least one. -/
theorem atLeast_lit {n : ℕ} (hpos : 0 < n) (hlt : n < 2 ^ 32) :
    AtLeast 1 (unpacked (lit n : Float)) := by
  have hlit : (lit n : Float) = n.toUInt64.toFloat * lit 1 := by
    change Float.ofNat n = _
    unfold Float.ofNat
    change Float.ofScientific n false 0 = _
    rw [Float.ofScientific, dif_pos ⟨by omega, by omega⟩]
    rfl
  have hnat : n.toUInt64.toNat = n := UInt64.toNat_ofNat_of_lt' (hlt.trans (by decide))
  have hround : unpacked n.toUInt64.toFloat =
      settle (UnpackedFloat.round Format.binary64 .positive n 0) := by
    have hofInt : unpacked n.toUInt64.toFloat =
        settle (UnpackedFloat.normalize Format.binary64 (n.toUInt64.toNat : ℤ) 0 .positive) := rfl
    rw [hofInt, hnat, UnpackedFloat.normalize, compare_gt_iff_gt.2 (by exact_mod_cast hpos)]
    rfl
  have hle : AtLeast 1 (unpacked n.toUInt64.toFloat) := by
    rw [hround]
    refine (rounded_round 0 .positive hpos).atLeast held_one one_pos ?_
    rw [zpow_zero, mul_one]
    exact_mod_cast hpos
  rw [hlit, unpacked_mul]
  exact mul_atLeast (settled_unpacked _) (settled_unpacked _) hle atLeast_one zero_le_one
    zero_le_one held_one one_pos (by norm_num)

/-- A tick takes at most one second. -/
theorem atMost_dt {n : ℕ} (hpos : 0 < n) (hlt : n < 2 ^ 32) :
    AtMost 1 (unpacked (lit 1 / lit n : Float)) := by
  rw [unpacked_div]
  exact div_atMost atMost_one (atLeast_lit hpos hlt) one_pos held_one (by norm_num)
    (one_lt_zpow₀ one_lt_two (by norm_num))

/-! ## Zeros -/

theorem not_zero_of_atLeast {u : UnpackedFloat} {y : ℚ} (h : AtLeast y u) (s : Sign) :
    u ≠ .zero s := by
  rintro rfl
  exact h

/-- A sum is `-0.0` only if both summands are. -/
theorem zero_negative_of_add {u w : UnpackedFloat} (hu : Settled u) (hw : Settled w)
    (h : settle (UnpackedFloat.add Format.binary64 u w) = .zero .negative) :
    u = .zero .negative := by
  have hnan : settle .notANumber ≠ .zero .negative := nofun
  have hinf : ∀ s, settle (.infinity s) ≠ .zero .negative := fun s => by
    rw [settle_infinity]
    nofun
  cases u with
  | notANumber => exact absurd h hnan
  | infinity s =>
    cases w with
    | notANumber => exact absurd h hnan
    | infinity s' =>
      cases s <;> cases s' <;> first | exact absurd h hnan | exact absurd h (hinf _)
    | zero | finite => exact absurd h (hinf s)
  | zero s =>
    cases w with
    | notANumber => exact absurd h hnan
    | infinity s' => exact absurd h (hinf s')
    | zero s' => cases s <;> cases s' <;> first | rfl | cases h
    | finite s' m' e' hm' =>
      change settle (.finite s' m' e' hm') = _ at h
      rw [settle_eq hw] at h
      cases h
  | finite s m e hm =>
    cases w with
    | notANumber => exact absurd h hnan
    | infinity s' => exact absurd h (hinf s')
    | zero s' =>
      change settle (.finite s m e hm) = _ at h
      rw [settle_eq hu] at h
      cases h
    | finite s' m' e' hm' =>
      rcases rounded_add hm hm' rfl with ⟨-, hadd⟩ | ⟨hunit, hround⟩
      · rw [hadd, settle_zero] at h
        cases h
      · have hmin := hu.1.min_le
        have hmin' := hw.1.min_le
        exact absurd h (not_zero_of_atLeast (hround.atLeast (held_two_zpow (by omega))
          (unit_pos _) hunit) _)

instance : LawfulZero Float where
  eq_mul_dt := by
    intro v n hpos hlt hv
    obtain ⟨s, hs⟩ := eq_zero_iff.1 hv
    have hdt := atMost_dt hpos hlt
    rw [eq_zero_iff, unpacked_mul, hs]
    rcases hu : unpacked (lit 1 / lit n) with _ | _ | s' | ⟨s', m, e, hm⟩
    · rw [hu] at hdt
      exact hdt.elim
    · rw [hu] at hdt
      exact hdt.elim
    · exact ⟨s * s', settle_zero _⟩
    · exact ⟨s * s', settle_zero _⟩
  add_eq_self := by
    intro x z hx hne hz
    obtain ⟨s, hs⟩ := eq_zero_iff.1 hz
    have hsettled := settled_unpacked x
    rw [finite_iff] at hx
    rw [negZero_iff] at hne
    apply eq_of_unpacked_eq
    rw [unpacked_add, hs]
    rcases hu : unpacked x with _ | _ | s' | ⟨s', m, e, hm⟩
    · rw [hu] at hx
      cases hx
    · rw [hu] at hx
      cases hx
    · cases s' with
      | negative => exact absurd hu hne
      | positive => cases s <;> rfl
    · rw [hu] at hsettled
      exact settle_eq hsettled
  not_negZero_add := by
    intro x y hx h
    rw [negZero_iff] at hx h
    exact hx (zero_negative_of_add (settled_unpacked x) (settled_unpacked y) h)
  zero_le_one := by decide +kernel
  eq_zero_mul := by decide +kernel

/-! ## Small vectors -/

theorem atLeast_sixteen : AtLeast 16 (unpacked (lit 16)) := by
  rw [unpacked_sixteen, AtLeast]
  norm_num

theorem atMost_sixteen : AtMost 16 (unpacked (lit 16)) := by
  rw [unpacked_sixteen, AtMost]
  norm_num

theorem ne_notANumber_of_finite {x : Float} (h : Finite x) : unpacked x ≠ .notANumber := by
  rw [finite_iff] at h
  intro hx
  rw [hx] at h
  cases h

theorem two_zpow_lt {j : ℤ} (h : j < 1024) : (2 : ℚ) ^ j < 2 ^ (1024 : ℤ) :=
  zpow_lt_zpow_right₀ one_lt_two h

theorem held_sixteen : Held 16 := ⟨16, 0, by norm_num, by norm_num, by norm_num⟩

theorem sixteen_lt : (16 : ℚ) < 2 ^ (1024 : ℤ) := by
  have h : (16 : ℚ) = 2 ^ (4 : ℤ) := by norm_num
  rw [h]
  exact two_zpow_lt (by norm_num)

theorem small_iff {x : Float} :
    Small x ↔ (unpacked (x * x)).le (unpacked (lit 16)) = true := by
  rw [Small, le_eq]

theorem small_of_atMost {x : Float} (h : AtMost (2 ^ (1 : ℤ)) (unpacked x)) : Small x := by
  rw [small_iff]
  have hsq : AtMost 16 (unpacked (x * x)) :=
    mul_atMost (settled_unpacked x) (settled_unpacked x) h h
      held_sixteen (by norm_num) sixteen_lt
  exact le_of_atMost (settled_unpacked _) (settled_unpacked _) hsq atLeast_sixteen rfl

theorem atMost_of_small {x : Float} (h : Small x) : AtMost (2 ^ (3 : ℤ)) (unpacked x) := by
  rw [small_iff] at h
  have hne : unpacked x ≠ .notANumber := by
    intro hx
    rw [unpacked_mul, hx] at h
    cases h
  have hsq : AtMost 16 (unpacked (x * x)) :=
    atMost_of_le (settled_unpacked _) (settled_unpacked _)
      (mul_self_nonNeg (settled_unpacked x) hne) h atMost_sixteen
  refine (atMost_or_atLeast hne _).resolve_right fun hlarge => ?_
  have hlarge' : AtLeast (2 ^ (6 : ℤ)) (unpacked (x * x)) :=
    mul_atLeast (settled_unpacked x) (settled_unpacked x) hlarge hlarge (unit_pos _).le
      (unit_pos _).le (held_two_zpow (by norm_num)) (unit_pos _) (by norm_num)
  exact not_atLeast_of_atMost hsq (by norm_num) hlarge'

/-- A finite number lies between a power of two and the next. -/
theorem exists_binade {x : Float} (h : Finite x) (hone : AtLeast 1 (unpacked x)) :
    ∃ j : ℤ, 0 ≤ j ∧ j < 1024 ∧ AtLeast (2 ^ j) (unpacked x) ∧
      AtMost (2 ^ (j + 1)) (unpacked x) := by
  have hsettled := settled_unpacked x
  rw [finite_iff] at h
  rcases hu : unpacked x with _ | _ | _ | ⟨s, m, e, hm⟩ <;> rw [hu] at h hone hsettled
  · cases h
  · cases h
  · exact hone.elim
  · obtain ⟨hlow, hhigh⟩ := log2_bounds hm
    have hpos := unit_pos e
    have hlow' : (2 : ℚ) ^ ((m.log2 : ℤ) + e) ≤ m * 2 ^ e := by
      rw [zpow_add₀ two_ne_zero]
      exact mul_le_mul_of_nonneg_right hlow hpos.le
    have hhigh' : (m : ℚ) * 2 ^ e < 2 ^ ((m.log2 : ℤ) + e + 1) := by
      rw [add_right_comm, zpow_add₀ two_ne_zero]
      exact mul_lt_mul_of_pos_right (by linarith) hpos
    have hlog := (Nat.log2_lt hm.ne').2 hsettled.1.lt
    have hfit := hsettled.2
    refine ⟨m.log2 + e, ?_, by omega, hlow', hhigh'.le⟩
    have hlt := (zpow_lt_zpow_iff_right₀ (one_lt_two : (1 : ℚ) < 2)).1
      ((zpow_zero (2 : ℚ)).trans_le hone |>.trans_lt hhigh')
    omega

/-- The sum of two squares is no less than either. -/
theorem add_squares {x y : Float} (hx : Finite x) (hy : Finite y) :
    NonNeg (unpacked (x * x + y * y)) ∧ ∀ b, Held b → 0 < b →
      AtLeast b (unpacked (x * x)) ∨ AtLeast b (unpacked (y * y)) →
        AtLeast b (unpacked (x * x + y * y)) :=
  add_of_nonNeg (settled_unpacked _) (settled_unpacked _)
    (mul_self_nonNeg (settled_unpacked x) (ne_notANumber_of_finite hx))
    (mul_self_nonNeg (settled_unpacked y) (ne_notANumber_of_finite hy))

/-- A component divided by a magnitude above one and above its own square is at most two. -/
theorem atMost_scaled {z q : Float} (hz : Finite z) (hq : NonNeg (unpacked q))
    (hone : AtLeast 1 (unpacked q))
    (hsq : ∀ b, Held b → 0 < b → AtLeast b (unpacked (z * z)) → AtLeast b (unpacked q)) :
    AtMost (2 ^ (1 : ℤ)) (unpacked (z * (lit 1 / sqrt q))) := by
  -- The scale is at most `2 ^ -j` once `q` is at least `2 ^ (j + j)`.
  have hscale : ∀ j : ℤ, 0 ≤ j → j < 1024 → AtLeast (2 ^ j * 2 ^ j) (unpacked q) →
      AtMost (2 ^ (-j)) (unpacked (lit 1 / sqrt q)) := by
    intro j hj hj' h
    rw [unpacked_div]
    refine div_atMost atMost_one (sqrt_atLeast hq h (by omega)) (unit_pos j)
      (held_two_zpow (by omega)) ?_ (two_zpow_lt (by omega))
    rw [one_div, zpow_neg]
  have hheld : Held (2 ^ (1 : ℤ)) := held_two_zpow (by norm_num)
  rw [unpacked_mul]
  rcases atMost_or_atLeast (ne_notANumber_of_finite hz) 1 with hsmall | hlarge
  · refine mul_atMost (settled_unpacked z) (settled_unpacked _) hsmall
      (hscale 0 le_rfl (by norm_num) ?_) hheld (by norm_num) (two_zpow_lt (by norm_num))
    rw [zpow_zero, mul_one]
    exact hone
  · obtain ⟨j, hj, hj', hlow, hhigh⟩ := exists_binade hz hlarge
    refine mul_atMost (settled_unpacked z) (settled_unpacked _) hhigh (hscale j hj hj' ?_) hheld
      ?_ (two_zpow_lt (by norm_num))
    · have hpow : (2 : ℚ) ^ j * 2 ^ j = 2 ^ (j + j) := (zpow_add₀ two_ne_zero _ _).symm
      have hheld' : Held (2 ^ j * 2 ^ j) := by
        rw [hpow]
        exact held_two_zpow (by omega)
      have hpos : (0 : ℚ) < 2 ^ j * 2 ^ j := mul_pos (unit_pos j) (unit_pos j)
      refine hsq _ hheld' hpos ?_
      exact mul_atLeast (settled_unpacked z) (settled_unpacked z) hlow hlow (unit_pos j).le
        (unit_pos j).le hheld' hpos le_rfl
    · rw [← zpow_add₀ two_ne_zero]
      exact (congrArg _ (by omega)).le

theorem finite_of_atMost {x : Float} {y : ℚ} (h : AtMost y (unpacked x)) : Finite x := by
  rw [finite_iff]
  cases hu : unpacked x <;> rw [hu] at h
  · exact h.elim
  · exact h.elim
  · rfl
  · rfl

/-- A finite number divided by one of size at least one. -/
theorem finite_div {x y : Float} (hx : Finite x) (hy : AtLeast 1 (unpacked y)) :
    Finite (x / y) := by
  have hsettled := settled_unpacked x
  have hmax : AtMost ((2 ^ 53 - 1 : ℕ) * 2 ^ (971 : ℤ)) (unpacked x) := by
    rw [finite_iff] at hx
    cases hu : unpacked x <;> rw [hu] at hx hsettled
    · cases hx
    · cases hx
    · trivial
    · exact hsettled.1.le_max hsettled.2
  have hlt : ((2 ^ 53 - 1 : ℕ) : ℚ) * 2 ^ (971 : ℤ) < 2 ^ (1024 : ℤ) := by
    have htop : (2 : ℚ) ^ (1024 : ℤ) = 2 ^ (53 : ℤ) * 2 ^ (971 : ℤ) :=
      zpow_add₀ two_ne_zero 53 971
    rw [htop]
    exact mul_lt_mul_of_pos_right (by norm_num) (unit_pos 971)
  refine finite_of_atMost (y := (2 ^ 53 - 1 : ℕ) * 2 ^ (971 : ℤ)) ?_
  rw [unpacked_div]
  exact div_atMost hmax hy one_pos ⟨2 ^ 53 - 1, 971, by norm_num, by norm_num, rfl⟩
    (div_one _).le hlt

instance : LawfulRange Float where
  finite_zero := ⟨rfl, rfl⟩
  finite_div_sqrt := by
    intro x s hx hs
    rw [lt_eq] at hs
    obtain ⟨hpos, hone⟩ := atLeast_of_lt (settled_unpacked (lit 1)) (settled_unpacked s) rfl
      atLeast_one hs
    have hone' : AtLeast (2 ^ (0 : ℤ) * 2 ^ (0 : ℤ)) (unpacked s) := by simpa using hone
    exact finite_div hx (sqrt_atLeast hpos hone' (by norm_num))
  small_of_le := by
    intro x y hx hy h
    obtain ⟨hpos, hge⟩ := add_squares hx hy
    rw [le_eq] at h
    have hone : AtMost 1 (unpacked (x * x + y * y)) :=
      atMost_of_le (settled_unpacked _) (settled_unpacked _) hpos h atMost_one
    have hsmall : ∀ z, Finite z → (AtLeast 16 (unpacked (z * z)) →
        AtLeast 16 (unpacked (x * x + y * y))) → Small z := by
      intro z hz hsq
      have hnonNeg := mul_self_nonNeg (settled_unpacked z) (ne_notANumber_of_finite hz)
      have hne : unpacked (z * z) ≠ .notANumber := fun hnan => by
        rw [unpacked_mul] at hnan
        rw [hnan] at hnonNeg
        exact hnonNeg
      have hle := (atMost_or_atLeast hne 16).resolve_right fun hlarge =>
        not_atLeast_of_atMost hone (by norm_num) (hsq hlarge)
      rw [small_iff]
      exact le_of_atMost (settled_unpacked _) (settled_unpacked _) hle atLeast_sixteen rfl
    exact ⟨hsmall x hx fun h => hge 16 held_sixteen (by norm_num) (.inl h),
      hsmall y hy fun h => hge 16 held_sixteen (by norm_num) (.inr h)⟩
  small_scaled := by
    intro x y hx hy h
    obtain ⟨hpos, hge⟩ := add_squares hx hy
    rw [le_eq] at h
    have hne : unpacked (x * x + y * y) ≠ .notANumber := fun hnan => by
      rw [hnan] at hpos
      exact hpos
    have hone : AtLeast 1 (unpacked (x * x + y * y)) := by
      refine (atMost_or_atLeast hne 1).resolve_left fun hle => ?_
      have hle' : (unpacked (x * x + y * y)).le (unpacked (lit 1 * lit 1)) = true :=
        le_of_atMost (settled_unpacked _) (settled_unpacked _) hle atLeast_one rfl
      rw [h] at hle'
      cases hle'
    exact ⟨small_of_atMost (atMost_scaled hx hpos hone fun b hb hb' h => hge b hb hb' (.inl h)),
      small_of_atMost (atMost_scaled hy hpos hone fun b hb hb' h => hge b hb hb' (.inr h))⟩
  finite_move := by
    intro x v n hpos hlt hx hv
    have hspeed : AtMost (2 ^ (3 : ℤ)) (unpacked (lit 5)) := by
      rw [unpacked_five, AtMost]
      norm_num
    have hvelocity : AtMost (2 ^ (6 : ℤ)) (unpacked (v * lit 5)) :=
      mul_atMost (settled_unpacked v) (settled_unpacked _) (atMost_of_small hv) hspeed
        (held_two_zpow (by norm_num)) (by norm_num) (two_zpow_lt (by norm_num))
    have hmove : AtMost (2 ^ (6 : ℤ)) (unpacked (v * lit 5 * (lit 1 / lit n))) :=
      mul_atMost (settled_unpacked _) (settled_unpacked _) hvelocity (atMost_dt hpos hlt)
        (held_two_zpow (by norm_num)) (by norm_num) (two_zpow_lt (by norm_num))
    rw [finite_iff] at hx ⊢
    exact add_isFinite (settled_unpacked x) (settled_unpacked _) hx hmove

end F64
