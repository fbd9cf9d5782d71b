import Mathlib
import Seamark.Decimal.Spelling
import Seamark.Proofs.Double.Nearest

/-!
# Decimals read as doubles

A decimal is read as the double that is nearest to the number it denotes (`toFloat_eq_rounded`),
whichever way the double is computed: short digits are multiplied or divided by a power of ten that
is a double, other digits go through one product or quotient of integers, and a decimal whose number
of places is out of bounds is infinite or zero at once.  So two decimals of the same number are read
as the same double.
-/

namespace Seamark

open Double Float.Model Float.Model.UnpackedFloat

namespace Decimal

/-! ### The number of a decimal -/

lemma tenTo_eq (k : ℕ) : tenTo k = 10 ^ k := rfl

lemma ten_zpow_pos (e : ℤ) : (0 : ℚ) < 10 ^ e := zpow_pos (by norm_num) e

/-- The number of a decimal, with the power of ten as one factor. -/
lemma toRat_eq (d : Decimal) : d.toRat = d.digits * 10 ^ d.exponent := by
  obtain ⟨n, e⟩ := d
  rw [toRat, tenTo_eq, tenTo_eq]
  dsimp only
  split_ifs with he
  · obtain ⟨k, rfl⟩ := Int.eq_ofNat_of_zero_le he
    rw [Int.toNat_natCast, zpow_natCast]
    push_cast
    rfl
  · obtain ⟨k, rfl⟩ : ∃ k : ℕ, e = -(k : ℤ) := ⟨(-e).toNat, by omega⟩
    rw [neg_neg, Int.toNat_natCast, zpow_neg, zpow_natCast]
    push_cast
    rfl

variable {d : Decimal}

lemma toRat_pos_iff : 0 < d.toRat ↔ 0 < d.digits := by
  rw [toRat_eq, mul_pos_iff_of_pos_right (ten_zpow_pos _), Nat.cast_pos]

lemma toRat_pos (hd : 0 < d.digits) : 0 < d.toRat := toRat_pos_iff.mpr hd

lemma toRat_nonneg (d : Decimal) : 0 ≤ d.toRat := by
  rw [toRat_eq]
  exact mul_nonneg (Nat.cast_nonneg _) (ten_zpow_pos _).le

/-- A natural number is below the power of ten that has one digit more. -/
lemma lt_pow_length_toDigits (n : ℕ) : n < 10 ^ (Nat.toDigits 10 n).length :=
  (Nat.length_toDigits_le_iff (by norm_num) Nat.length_toDigits_pos).mp le_rfl

/-- A positive natural number is not below the power of ten with as many digits. -/
lemma pow_length_toDigits_le {n : ℕ} (hn : 0 < n) : 10 ^ ((Nat.toDigits 10 n).length - 1) ≤ n := by
  rcases Nat.eq_zero_or_pos ((Nat.toDigits 10 n).length - 1) with hzero | hpos
  · rw [hzero, pow_zero]
    exact hn
  · by_contra hlt
    have := (Nat.length_toDigits_le_iff (by norm_num) hpos).mpr (not_le.mp hlt)
    omega

/-- A decimal is below the power of ten with as many places. -/
lemma toRat_lt (d : Decimal) : d.toRat < 10 ^ d.places := by
  have hdigits : (d.digits : ℚ) < 10 ^ (Nat.toDigits 10 d.digits).length := by
    exact_mod_cast lt_pow_length_toDigits d.digits
  rw [toRat_eq, places, zpow_add₀ (by norm_num), zpow_natCast]
  exact mul_lt_mul_of_pos_right hdigits (ten_zpow_pos _)

/-- A positive decimal is not below the power of ten with one place less. -/
lemma le_toRat (hd : 0 < d.digits) : 10 ^ (d.places - 1) ≤ d.toRat := by
  have hlength : 0 < (Nat.toDigits 10 d.digits).length := Nat.length_toDigits_pos
  have hdigits : (10 : ℚ) ^ ((Nat.toDigits 10 d.digits).length - 1) ≤ d.digits := by
    exact_mod_cast pow_length_toDigits_le hd
  have hplaces : d.places - 1 = ((Nat.toDigits 10 d.digits).length - 1 : ℕ) + d.exponent := by
    rw [places]
    omega
  rw [toRat_eq, hplaces, zpow_add₀ (by norm_num), zpow_natCast]
  exact mul_le_mul_of_nonneg_right hdigits (ten_zpow_pos _).le

/-! ### Reading digits -/

/-- The powers of ten that are doubles, as they are stored. -/
lemma stored_power (i : Fin 23) :
    isFinite Float.exactlyRepresentablePowersOfTen[i] = true ∧
      (match doubleShape Float.exactlyRepresentablePowersOfTen[i] with
        | .finite false b => b.ratio.1 == 10 ^ i.val * b.ratio.2
        | _ => false) = true := by
  revert i
  decide +kernel

lemma exists_power {e : ℕ} (he : e ≤ 22) :
    ∃ p, Float.exactlyRepresentablePowersOfTen[(⟨e, Nat.lt_succ_of_le he⟩ : Fin 23)] = p ∧
      IsNumber p ∧ value p = 10 ^ e := by
  obtain ⟨hfinite, hratio⟩ := stored_power ⟨e, Nat.lt_succ_of_le he⟩
  have hnumber := isFinite_iff_isNumber.mp hfinite
  obtain ⟨s, b, hshape, hvalue, -⟩ := exists_doubleShape hnumber
  refine ⟨_, rfl, hnumber, ?_⟩
  rw [hshape] at hratio
  cases s with
  | negative => cases hratio
  | positive =>
    have hnat : b.ratio.1 = 10 ^ e * b.ratio.2 := beq_iff_eq.mp hratio
    have hpos : (0 : ℚ) < b.ratio.2 := by exact_mod_cast Nat.two_pow_pos _
    refine hvalue.trans ?_
    rw [signed, Binary.toRat_eq_ratio, hnat, Nat.cast_mul, mul_div_cancel_right₀ _ hpos.ne',
      Nat.cast_pow, Nat.cast_ofNat]

section

variable {n e : ℕ}

/-- Digits that are moved up before they are multiplied have 53 places to round in. -/
lemma ofScientific_nonneg (hn : 0 < n) (he : e ≤ 2048) :
    UnpackedFloat.ofScientific Format.binary64 n e = nearest (n * 10 ^ e) := by
  have hbits : (2 : ℤ) ^ Format.binary64.exponentBits = 2048 := by decide
  have hmantissa : Format.binary64.mantissaBits = 53 := by decide
  have hunit : (-53 + 0 : ℤ) ≤ Format.binary64.targetExponent
      (totalExponent ((n <<< 53) * 10 ^ e) (-53 + 0)) := by
    have hdigits : 2 ^ 53 ≤ (n <<< 53) * 10 ^ e := by
      rw [Nat.shiftLeft_eq]
      exact (Nat.le_mul_of_pos_left _ hn).trans (Nat.le_mul_of_pos_right _ (by positivity))
    have hlog := (Nat.le_log2 (by omega)).mpr hdigits
    have htarget := targetExponent_eq ((n <<< 53) * 10 ^ e) (-53 + 0)
    omega
  rw [UnpackedFloat.ofScientific, dif_neg hn.ne', if_neg (by omega), if_neg (by omega),
    if_pos (Int.natCast_nonneg e)]
  simp only [hmantissa, Int.toNat_natCast, Nat.cast_ofNat]
  rw [mul_eq_nearest hunit, Nat.shiftLeft_eq, zpow_neg, zpow_ofNat, zpow_zero]
  congr 1
  push_cast
  ring

lemma ofScientific_neg (hn : 0 < n) (he : 0 < e) (hlarge : e ≤ 2048 + n.log2) :
    UnpackedFloat.ofScientific Format.binary64 n (-e) = nearest (n / 10 ^ e) := by
  have hbits : (2 : ℤ) ^ Format.binary64.exponentBits = 2048 := by decide
  rw [UnpackedFloat.ofScientific, dif_neg hn.ne', if_neg (by omega), if_neg (by omega),
    if_neg (by omega)]
  simp only [neg_neg, Int.toNat_natCast]
  rw [div_eq_nearest 0 0 hn (by positivity)]
  congr 1
  push_cast
  norm_num

/-- Digits with zeros after them are read as the nearest double. -/
lemma float_ofScientific_nonneg (hn : 0 < n) (he : e ≤ 2048) :
    Float.ofScientific n false e = rounded (n * 10 ^ e) := by
  by_cases hshort : n < 2 ^ 53 ∧ e ≤ 22
  · obtain ⟨p, hp, hpower, hvalue⟩ := exists_power hshort.2
    obtain ⟨hnumber, hdigits⟩ := value_toUInt64 hshort.1
    have hproduct : Float.ofScientific n false e = n.toUInt64.toFloat * p := by
      rw [Float.ofScientific, dif_pos hshort, ← hp]
      rfl
    rw [hproduct, mul_eq_rounded hnumber hpower (by rw [hdigits]; exact_mod_cast hn)
      (by rw [hvalue]; positivity), hdigits, hvalue]
  · have hmodel : Float.ofScientific n false e =
        ⟨Float.Model.pack (UnpackedFloat.ofScientific Format.binary64 n e)⟩ := by
      rw [Float.ofScientific, dif_neg hshort]
      rfl
    rw [hmodel, ofScientific_nonneg hn he, rounded]

/-- Digits with places after the point are read as the nearest double. -/
lemma float_ofScientific_neg (hn : 0 < n) (he : 0 < e) (hlarge : e ≤ 2048 + n.log2) :
    Float.ofScientific n true e = rounded (n / 10 ^ e) := by
  by_cases hshort : n < 2 ^ 53 ∧ e ≤ 22
  · obtain ⟨p, hp, hpower, hvalue⟩ := exists_power hshort.2
    obtain ⟨hnumber, hdigits⟩ := value_toUInt64 hshort.1
    have hquotient : Float.ofScientific n true e = n.toUInt64.toFloat / p := by
      rw [Float.ofScientific, dif_pos hshort, ← hp]
      rfl
    rw [hquotient, div_eq_rounded hnumber hpower (by rw [hdigits]; exact_mod_cast hn)
      (by rw [hvalue]; positivity), hdigits, hvalue]
  · have hmodel : Float.ofScientific n true e =
        ⟨Float.Model.pack (UnpackedFloat.ofScientific Format.binary64 n (-e))⟩ := by
      have hexponent : (-(e : ℤ)) = Int.negOfNat e := Int.negOfNat_eq.symm
      rw [Float.ofScientific, dif_neg hshort, hexponent]
      rfl
    rw [hmodel, ofScientific_neg hn he hlarge, rounded]

end

/-- A number has no more decimal digits than binary ones. -/
lemma length_toDigits_le_log2 (n : ℕ) : (Nat.toDigits 10 n).length ≤ n.log2 + 1 := by
  rw [Nat.length_toDigits_le_iff (by norm_num) (Nat.succ_pos _)]
  exact Nat.lt_log2_self.trans_le (Nat.pow_le_pow_left (by norm_num) _)

lemma overflow_le_ten_zpow : overflow ≤ 10 ^ (310 : ℤ) := by
  have hpower : (2 : ℚ) ^ 1024 ≤ 10 ^ 310 := by
    exact_mod_cast (by decide +kernel : 2 ^ 1024 ≤ 10 ^ 310)
  rw [overflow, zpow_ofNat]
  exact (sub_le_self _ (by positivity)).trans hpower

lemma ten_zpow_lt_least : (10 : ℚ) ^ (-331 : ℤ) < 2 ^ (-1075 : ℤ) := by
  have hpower : (2 : ℚ) ^ 1075 < 10 ^ 331 := by
    exact_mod_cast (by decide +kernel : 2 ^ 1075 < 10 ^ 331)
  rw [zpow_neg, zpow_neg, zpow_ofNat, zpow_ofNat]
  exact inv_strictAnti₀ (by positivity) hpower

lemma toFloat_of_digits_pos {d : Decimal} (hd : 0 < d.digits) : d.toFloat = rounded d.toRat := by
  have hplaces : (digitCount d.digits : ℤ) + d.exponent = d.places := rfl
  have hcount : 0 < digitCount d.digits := Nat.length_toDigits_pos
  have hlog : digitCount d.digits ≤ d.digits.log2 + 1 := length_toDigits_le_log2 d.digits
  simp only [toFloat, hplaces]
  split_ifs with hsmall hlarge hexponent
  · -- there are too few places for the least double
    have hsmall := hsmall.resolve_left hd.ne'
    refine (rounded_eq_zero (toRat_pos hd) (le_of_lt ?_)).symm
    calc d.toRat < 10 ^ d.places := toRat_lt d
      _ ≤ 10 ^ (-331 : ℤ) := zpow_le_zpow_right₀ (by norm_num) (by omega)
      _ < 2 ^ (-1075 : ℤ) := ten_zpow_lt_least
  · -- there are too many places for the largest double
    refine (rounded_eq_infinite ?_).symm
    calc overflow ≤ 10 ^ (310 : ℤ) := overflow_le_ten_zpow
      _ ≤ 10 ^ (d.places - 1) := zpow_le_zpow_right₀ (by norm_num) (by omega)
      _ ≤ d.toRat := le_toRat hd
  · obtain ⟨k, hk⟩ := Int.eq_ofNat_of_zero_le hexponent
    rw [toRat_eq, hk, Int.toNat_natCast, zpow_natCast]
    exact float_ofScientific_nonneg hd (by omega)
  · obtain ⟨k, hk⟩ : ∃ k : ℕ, d.exponent = -(k : ℤ) := ⟨(-d.exponent).toNat, by omega⟩
    rw [toRat_eq, hk, neg_neg, Int.toNat_natCast, zpow_neg, zpow_natCast, ← div_eq_mul_inv]
    exact float_ofScientific_neg hd (by omega) (by omega)

/-- **A decimal is read as the nearest double.** -/
theorem toFloat_eq_rounded (d : Decimal) : d.toFloat = rounded d.toRat := by
  rcases Nat.eq_zero_or_pos d.digits with hzero | hpos
  · have hrat : d.toRat = 0 := by rw [toRat_eq, hzero, Nat.cast_zero, zero_mul]
    have hfloat : d.toFloat = 0.0 := by
      rw [toFloat]
      exact if_pos (Or.inl hzero)
    rw [hrat, hfloat, rounded_zero]
  · exact toFloat_of_digits_pos hpos

/-- A decimal that is not read as zero is read as a positive double. -/
lemma zero_lt_toFloat {d : Decimal} (h : isZero d.toFloat = false) : 0.0 < d.toFloat := by
  rw [toFloat_eq_rounded] at h ⊢
  by_contra hnot
  have hsmall : d.toRat ≤ 2 ^ (-1075 : ℤ) := not_lt.mp fun hlt => hnot (zero_lt_rounded hlt)
  have hzero : rounded d.toRat = 0.0 := by
    rcases (toRat_nonneg d).eq_or_lt with heq | hpos
    · rw [← heq, rounded_zero]
    · exact rounded_eq_zero hpos hsmall
  rw [hzero] at h
  exact absurd h (by decide +kernel)

/-! ### Natural numbers -/

/-- A natural number is read as the nearest double. -/
lemma toFloat_natCast (n : ℕ) : toFloat ⟨n, 0⟩ = rounded n := by
  rw [toFloat_eq_rounded, toRat_eq, zpow_zero, mul_one]

/-- A natural number is a double up to halfway past the largest one. -/
lemma isFinite_toFloat_natCast (n : ℕ) :
    isFinite (toFloat ⟨n, 0⟩) = true ↔ (n : ℚ) < overflow := by
  rw [toFloat_natCast]
  rcases Nat.eq_zero_or_pos n with rfl | hpos
  · rw [Nat.cast_zero, rounded_zero]
    exact iff_of_true rfl (by exact_mod_cast natCast_lt_overflow (n := 0) (by norm_num))
  · rw [isFinite_iff_isNumber, isNumber_rounded_iff (Nat.cast_pos.mpr hpos)]

/-- A positive natural number is read as a positive double. -/
lemma zero_lt_toFloat_natCast {n : ℕ} (hn : 0 < n) : 0.0 < toFloat ⟨n, 0⟩ := by
  have hone : (1 : ℚ) ≤ n := by exact_mod_cast hn
  rw [toFloat_natCast]
  exact zero_lt_rounded ((zpow_lt_one_of_neg₀ one_lt_two (by norm_num)).trans_le hone)

end Decimal

end Seamark
