import Mathlib

/-!
# The patterns of binary64

Lean's `Float` has a logical model : a pattern is unpacked into a sign, a mantissa and an
exponent, an operation computes there, and its result is packed again.

* `Canonical` : the mantissas and exponents binary64 holds. They are ordered by their exponents,
  then by their mantissas, as their values are (`Canonical.compare_eq`).
* `settle` : a number, packed and unpacked. A canonical one comes back unless it is too large,
  and is infinite then (`settle_finite`).
* `pack_unpack` : unpacking, then packing, gives the pattern back.
-/

open Float.Model Float.Model.UnpackedFloat

namespace Rounding

/-! ## Canonical numbers -/

theorem unit_pos (t : ℤ) : (0 : ℚ) < 2 ^ t := zpow_pos two_pos t

/-- What binary64 holds as `m * 2 ^ e`, in no other way. -/
structure Canonical (m : ℕ) (e : ℤ) : Prop where
  lt : m < 2 ^ 53
  min_le : -1074 ≤ e
  normal : 2 ^ 52 ≤ m ∨ e = -1074

theorem two_zpow_add_52 (t : ℤ) : (2 : ℚ) ^ (t + 52) = (2 ^ 52 : ℕ) * 2 ^ t := by
  rw [zpow_add₀ two_ne_zero, mul_comm]
  norm_num

/-- A canonical number below `2 ^ 1024` fits. -/
theorem Canonical.le_of_lt {m : ℕ} {e : ℤ} (h : Canonical m e)
    (hlt : (m : ℚ) * 2 ^ e < 2 ^ (1024 : ℤ)) : e ≤ 971 := by
  by_contra hover
  have hm := h.normal.resolve_right (by omega)
  refine absurd hlt (not_lt.2 ?_)
  calc (2 : ℚ) ^ (1024 : ℤ) ≤ 2 ^ (e + 52) := zpow_le_zpow_right₀ one_le_two (by omega)
    _ = (2 ^ 52 : ℕ) * 2 ^ e := two_zpow_add_52 e
    _ ≤ m * 2 ^ e := mul_le_mul_of_nonneg_right (by exact_mod_cast hm) (unit_pos e).le

theorem Canonical.le_max {m : ℕ} {e : ℤ} (h : Canonical m e) (he : e ≤ 971) :
    (m : ℚ) * 2 ^ e ≤ (2 ^ 53 - 1 : ℕ) * 2 ^ (971 : ℤ) := by
  have hm : m ≤ 2 ^ 53 - 1 := Nat.le_sub_one_of_lt h.lt
  exact mul_le_mul (by exact_mod_cast hm) (zpow_le_zpow_right₀ one_le_two he)
    (unit_pos e).le (Nat.cast_nonneg _)

theorem Canonical.lt_of_lt {m₁ m₂ : ℕ} {e₁ e₂ : ℤ} (h₁ : Canonical m₁ e₁) (h₂ : Canonical m₂ e₂)
    (h : e₁ < e₂) : (m₁ : ℚ) * 2 ^ e₁ < m₂ * 2 ^ e₂ := by
  have hmin := h₁.min_le
  have hm₁ : (m₁ : ℚ) < 2 ^ (53 : ℤ) := by exact_mod_cast h₁.lt
  have hm₂ := h₂.normal.resolve_right (by omega)
  calc (m₁ : ℚ) * 2 ^ e₁ < 2 ^ (53 : ℤ) * 2 ^ e₁ :=
        mul_lt_mul_of_pos_right hm₁ (unit_pos e₁)
    _ = 2 ^ (53 + e₁) := (zpow_add₀ two_ne_zero _ _).symm
    _ ≤ 2 ^ (e₂ + 52) := zpow_le_zpow_right₀ one_le_two (by omega)
    _ = (2 ^ 52 : ℕ) * 2 ^ e₂ := two_zpow_add_52 e₂
    _ ≤ m₂ * 2 ^ e₂ := mul_le_mul_of_nonneg_right (by exact_mod_cast hm₂) (unit_pos e₂).le

/-- Canonical numbers are ordered by their exponents, then by their mantissas. -/
theorem Canonical.compare_eq {m₁ m₂ : ℕ} {e₁ e₂ : ℤ} (h₁ : Canonical m₁ e₁)
    (h₂ : Canonical m₂ e₂) :
    (compare e₁ e₂).then (compare m₁ m₂) = compare ((m₁ : ℚ) * 2 ^ e₁) (m₂ * 2 ^ e₂) := by
  rcases lt_trichotomy e₁ e₂ with h | rfl | h
  · rw [compare_lt_iff_lt.2 h, compare_lt_iff_lt.2 (h₁.lt_of_lt h₂ h)]
    rfl
  · have hpos := unit_pos e₁
    rw [compare_eq_iff_eq.2 rfl]
    change compare m₁ m₂ = _
    have hmul : ∀ {a b : ℕ}, a < b → (a : ℚ) * 2 ^ e₁ < b * 2 ^ e₁ := fun h =>
      mul_lt_mul_of_pos_right (by exact_mod_cast h) hpos
    rcases lt_trichotomy m₁ m₂ with h | rfl | h
    · rw [compare_lt_iff_lt.2 h, compare_lt_iff_lt.2 (hmul h)]
    · rw [compare_eq_iff_eq.2 rfl, compare_eq_iff_eq.2 rfl]
    · rw [compare_gt_iff_gt.2 h, compare_gt_iff_gt.2 (hmul h)]
  · rw [compare_gt_iff_gt.2 h, compare_gt_iff_gt.2 (h₂.lt_of_lt h₁ h)]
    rfl

/-! ## Patterns -/

theorem toNat_unpackMantissa (b : BitVec 64) :
    (@unpackMantissa Format.binary64 b).toNat = b.toNat % 2 ^ 52 := by
  simp [unpackMantissa]

theorem toNat_unpackExponent (b : BitVec 64) :
    (@unpackExponent Format.binary64 b).toNat = b.toNat / 2 ^ 52 % 2 ^ 11 := by
  simp [unpackExponent, Nat.shiftRight_eq_div_pow]

theorem toNat_unpackSign (b : BitVec 64) :
    (@unpackSign Format.binary64 b).toNat = b.toNat / 2 ^ 63 % 2 := by
  simp [unpackSign, Nat.shiftRight_eq_div_pow]

theorem toNat_packComponents (s : Sign) (e : BitVec 11) (m : BitVec 52) :
    (packComponents Format.binary64 s e m).toNat =
      s.toBitVec.toNat * 2 ^ 63 + e.toNat * 2 ^ 52 + m.toNat := by
  have he := e.isLt
  have hm := m.isLt
  have h : (packComponents Format.binary64 s e m).toNat =
      (s.toBitVec.toNat <<< 11 ||| e.toNat) <<< 52 ||| m.toNat := by
    simp only [packComponents, BitVec.toNat_append]
  rw [h, ← Nat.shiftLeft_add_eq_or_of_lt hm, ← Nat.shiftLeft_add_eq_or_of_lt he]
  simp only [Nat.shiftLeft_eq]
  omega

theorem unpackSign_packComponents (s : Sign) (e : BitVec 11) (m : BitVec 52) :
    unpackSign (packComponents Format.binary64 s e m) = s.toBitVec := by
  apply BitVec.eq_of_toNat_eq
  have hs := s.toBitVec.isLt
  have he := e.isLt
  have hm := m.isLt
  rw [toNat_unpackSign, toNat_packComponents]
  omega

theorem ofBitVec_toBitVec (s : Sign) : Sign.ofBitVec s.toBitVec = s := by cases s <;> rfl

theorem toBitVec_ofBitVec (b : BitVec 1) : (Sign.ofBitVec b).toBitVec = b := by
  have hb : b = 0#1 ∨ b = 1#1 := by
    have hlt := b.isLt
    rcases Nat.eq_zero_or_pos b.toNat with h | h
    · exact .inl (BitVec.eq_of_toNat_eq h)
    · exact .inr (BitVec.eq_of_toNat_eq (show b.toNat = 1 by omega))
  rcases hb with rfl | rfl <;> rfl

theorem toNat_cons_one (m : BitVec 52) : (1#1 ++ m).toNat = 2 ^ 52 + m.toNat := by
  rw [BitVec.toNat_append, ← Nat.shiftLeft_add_eq_or_of_lt m.isLt]
  rfl

/-- The number of a sign, an exponent and a mantissa. -/
theorem unpack_packComponents (s : Sign) (e : BitVec 11) (m : BitVec 52) :
    UnpackedFloat.unpack Format.binary64 (packComponents Format.binary64 s e m) =
      if e = -1#11 then if m = 0#52 then .infinity s else .notANumber
      else if e = 0#11 then
        if h : m = 0#52 then .zero s
        else .finite s m.toNat (-1074) (Nat.pos_of_ne_zero fun h' => h (BitVec.toNat_inj.1 h'))
      else .finite s (2 ^ 52 + m.toNat) (e.toNat - 1075) (by omega) := by
  have hsign : Sign.ofBitVec (unpackSign (packComponents Format.binary64 s e m)) = s := by
    rw [unpackSign_packComponents, ofBitVec_toBitVec]
  have hbias : (Format.binary64.exponentBias : ℤ) + Format.binary64.mantissaBitsWithoutImplicit =
    1075 := rfl
  rw [UnpackedFloat.unpack]
  simp only [unpackExponent_packComponents, unpackMantissa_packComponents, hsign, hbias,
    toNat_cons_one]
  split_ifs with h1 h2 h3 h4
  · rfl
  · rfl
  · rfl
  · simp [h3]
  · rfl

/-- A pattern is the sign, the exponent and the mantissa it is unpacked into. -/
theorem packComponents_unpack (b : BitVec 64) :
    packComponents Format.binary64 (Sign.ofBitVec (@unpackSign Format.binary64 b))
      (@unpackExponent Format.binary64 b)
      (@unpackMantissa Format.binary64 b) = b := by
  apply BitVec.eq_of_toNat_eq
  have hb := b.isLt
  rw [toNat_packComponents, toBitVec_ofBitVec, toNat_unpackSign, toNat_unpackExponent,
    toNat_unpackMantissa]
  omega

/-- A number as it comes back from a pattern. -/
def settle (u : UnpackedFloat) : UnpackedFloat :=
  UnpackedFloat.unpack Format.binary64 (UnpackedFloat.pack Format.binary64 u)

theorem settle_zero (s : Sign) : settle (.zero s) = .zero s := by cases s <;> rfl

theorem settle_infinity (s : Sign) : settle (.infinity s) = .infinity s := by cases s <;> rfl

/-- The pattern of a canonical number. -/
theorem pack_finite {m : ℕ} {e : ℤ} (s : Sign) (h : 0 < m) (hc : Canonical m e) :
    UnpackedFloat.pack Format.binary64 (.finite s m e h) =
      if 971 < e then packedInfinity Format.binary64 s
      else packComponents Format.binary64 s
        (BitVec.ofNat 11 (if 2 ^ 52 ≤ m then (e + 1075).toNat else 0)) (BitVec.ofNat 52 m) := by
  have hmin := hc.min_le
  have hlog : m.log2 + 1 = Format.binary64.mantissaBits ↔ 2 ^ 52 ≤ m := by
    have hbits : Format.binary64.mantissaBits = 52 + 1 := rfl
    have hlt := (Nat.log2_lt h.ne').2 hc.lt
    have hle := Nat.le_log2 h.ne' (k := 52)
    rw [hbits]
    omega
  have hbias : (e + Format.binary64.exponentBias +
      Format.binary64.mantissaBitsWithoutImplicit).toNat = (e + 1075).toNat := by
    have hexp : (Format.binary64.exponentBias : ℤ) = 1023 := rfl
    rw [hexp]
    congr 1
    change e + 1023 + 52 = _
    omega
  have hover : 2 ^ Format.binary64.exponentBits ≤ (e + 1075).toNat + 1 ↔ 971 < e := by
    change 2 ^ 11 ≤ _ ↔ _
    omega
  simp only [UnpackedFloat.pack, hbias, hlog, hover]
  split_ifs <;> rfl

theorem settle_finite {m : ℕ} {e : ℤ} (s : Sign) (h : 0 < m) (hc : Canonical m e) :
    settle (.finite s m e h) = if 971 < e then .infinity s else .finite s m e h := by
  have hlt := hc.lt
  have hmin := hc.min_le
  rw [settle, pack_finite s h hc]
  split_ifs with hover hm
  · exact settle_infinity s
  · have hexp : (BitVec.ofNat 11 (e + 1075).toNat).toNat = (e + 1075).toNat := by
      rw [BitVec.toNat_ofNat, Nat.mod_eq_of_lt (by omega)]
    have hmant : (BitVec.ofNat 52 m).toNat = m - 2 ^ 52 := by
      rw [BitVec.toNat_ofNat]
      omega
    have hne : ∀ v : BitVec 11, v.toNat = 2047 ∨ v.toNat = 0 →
        BitVec.ofNat 11 (e + 1075).toNat ≠ v := by
      rintro v hv rfl
      rw [hexp] at hv
      omega
    rw [unpack_packComponents, if_neg (hne _ (.inl rfl)), if_neg (hne _ (.inr rfl))]
    congr 1 <;> omega
  · obtain rfl : e = -1074 := hc.normal.resolve_left hm
    have hmant : (BitVec.ofNat 52 m).toNat = m := by
      rw [BitVec.toNat_ofNat]
      omega
    have hne : BitVec.ofNat 52 m ≠ 0#52 := by
      intro hzero
      rw [hzero] at hmant
      exact h.ne hmant
    rw [unpack_packComponents, if_neg (by decide), if_pos rfl, dif_neg hne]
    congr 1

/-- What a pattern can be unpacked into. -/
def Settled : UnpackedFloat → Prop
  | .finite _ m e _ => Canonical m e ∧ e ≤ 971
  | _ => True

theorem settled_unpack (b : BitVec 64) : Settled (UnpackedFloat.unpack Format.binary64 b) := by
  rw [← packComponents_unpack b, unpack_packComponents]
  set e := @unpackExponent Format.binary64 b
  set m := @unpackMantissa Format.binary64 b
  have hm : m.toNat < 2 ^ 52 := m.isLt
  have he : e.toNat < 2 ^ 11 := e.isLt
  split_ifs with h1 h2 h3 h4
  · trivial
  · trivial
  · trivial
  · exact ⟨⟨by omega, le_rfl, .inr rfl⟩, by norm_num⟩
  · have htop : e.toNat ≠ 2047 := fun h => h1 (BitVec.eq_of_toNat_eq h)
    have hzero : e.toNat ≠ 0 := fun h => h3 (BitVec.eq_of_toNat_eq h)
    exact ⟨⟨by omega, by omega, .inl (by omega)⟩, by omega⟩

/-- Unpacking, then packing, gives a pattern back, if it is no other NaN than the canonical one. -/
theorem pack_unpack {b : BitVec 64} (h : Format.binary64.Valid b) :
    UnpackedFloat.pack Format.binary64 (UnpackedFloat.unpack Format.binary64 b) = b := by
  have hb := packComponents_unpack b
  set s := Sign.ofBitVec (@unpackSign Format.binary64 b)
  set e := @unpackExponent Format.binary64 b
  set m := @unpackMantissa Format.binary64 b
  have hcanonical := settled_unpack b
  conv_rhs => rw [← hb]
  rw [← hb, unpack_packComponents] at hcanonical ⊢
  have hm : m.toNat < 2 ^ 52 := m.isLt
  have he : e.toNat < 2 ^ 11 := e.isLt
  split_ifs at hcanonical ⊢ with h1 h2 h3 h4
  · rw [h1, h2]
    rfl
  · exact (h.eq_packedNaN h1 h2).symm.trans hb.symm
  · rw [h3, h4]
    rfl
  · have hpos : 0 < m.toNat := Nat.pos_of_ne_zero fun h' => h4 (BitVec.toNat_inj.1 h')
    rw [pack_finite s hpos hcanonical.1, if_neg (by norm_num), if_neg (by omega), h3]
    congr 1
    exact BitVec.eq_of_toNat_eq (by rw [BitVec.toNat_ofNat]; omega)
  · have htop : e.toNat ≠ 2047 := fun h => h1 (BitVec.eq_of_toNat_eq h)
    rw [pack_finite s (by omega) hcanonical.1, if_neg (by omega), if_pos (by omega)]
    congr 1
    · exact BitVec.eq_of_toNat_eq (by rw [BitVec.toNat_ofNat]; omega)
    · exact BitVec.eq_of_toNat_eq (by rw [BitVec.toNat_ofNat]; omega)

theorem settle_eq {u : UnpackedFloat} (h : Settled u) : settle u = u := by
  cases u with
  | infinity s => exact settle_infinity s
  | notANumber => rfl
  | zero s => exact settle_zero s
  | finite s m e hm => rw [settle_finite s hm h.1, if_neg (not_lt.2 h.2)]

end Rounding
