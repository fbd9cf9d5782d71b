import Mathlib
import Seamark.Proofs.Double.Rounding

/-!
# Integer parts and remainders of doubles

Integer parts and remainders are computed on the binary form of a double with integers, and so they
are exact.  Here the binary form is tied to the number that a double stands for
(`doubleShape_of_unpack`, `value_toFloat`): the integer part is the floor of a number that is not
negative, and the remainder of a division by one is a number from 0 to 1 (`floatModulo_one`).  A
small integer is a double that stands for it (`value_ofInt`).
-/

namespace Seamark

open Float.Model Float.Model.UnpackedFloat

namespace Binary

/-- The size as a rational number. -/
def toRat (b : Binary) : ℚ := b.mantissa * 2 ^ b.exponent

lemma toRat_nonneg (b : Binary) : 0 ≤ b.toRat :=
  mul_nonneg (Nat.cast_nonneg _) (Double.two_zpow_pos _).le

lemma toRat_eq_ratio (b : Binary) : b.toRat = b.ratio.1 / b.ratio.2 := by
  have hratio : b.ratio = (b.mantissa * 2 ^ b.exponent.toNat, 2 ^ (-b.exponent).toNat) := rfl
  rw [hratio, toRat]
  push_cast
  rw [mul_div_assoc, ← zpow_natCast, ← zpow_natCast, ← zpow_sub₀ two_ne_zero]
  congr 2
  omega

end Binary

namespace Double

/-- The sign is that of a negative number. -/
def isNegative : Sign → Bool
  | .negative => true
  | .positive => false

/-! ### Binary forms -/

/-- The fields of a double, from the number that its bits are. -/
lemma doubleShape_of_bits {x : Float} {s : Sign} {field fraction : ℕ} (hfield : field < 2047)
    (hfraction : fraction < 2 ^ 52)
    (h : x.toBits.toNat = signBits s + (field * 2 ^ 52 + fraction)) :
    doubleShape x = .finite (isNegative s)
      (if field = 0 then ⟨fraction, -1074⟩ else ⟨2 ^ 52 + fraction, field - 1075⟩) := by
  have h52 : twoTo 52 = 2 ^ 52 := rfl
  have h11 : twoTo 11 = 2 ^ 11 := rfl
  have h63 : twoTo 63 = 2 ^ 63 := rfl
  have hsign : signBits s = 0 ∧ isNegative s = false ∨
      signBits s = 2 ^ 63 ∧ isNegative s = true := by
    cases s
    · exact Or.inr ⟨rfl, rfl⟩
    · exact Or.inl ⟨rfl, rfl⟩
  have hexponent : x.toBits.toNat / 2 ^ 52 % 2 ^ 11 = field := by omega
  have hrest : x.toBits.toNat % 2 ^ 52 = fraction := by omega
  have hnegative : decide (2 ^ 63 ≤ x.toBits.toNat) = isNegative s := by
    rcases hsign with ⟨hbits, hs⟩ | ⟨hbits, hs⟩
    · rw [hs, decide_eq_false_iff_not]
      omega
    · rw [hs, decide_eq_true_eq]
      omega
  simp only [doubleShape, h52, h11, h63, hexponent, hrest, hnegative, hfield.ne, if_false]
  split_ifs <;> rfl

lemma toBits_eq_bitsOf {x : Float} (h : x.toModel.unpack ≠ .notANumber) :
    x.toBits.toNat = bitsOf x.toModel.unpack :=
  toNat_of_unpack _ h

lemma doubleShape_of_unpack_zero {x : Float} {s : Sign} (h : x.toModel.unpack = .zero s) :
    doubleShape x = .finite (isNegative s) ⟨0, -1074⟩ := by
  have hbits : x.toBits.toNat = signBits s + (0 * 2 ^ 52 + 0) := by
    rw [toBits_eq_bitsOf (by rw [h]; exact nofun), h]
    rfl
  exact doubleShape_of_bits (by norm_num) (by norm_num) hbits

/-- The binary form of a double has its mantissa and its exponent. -/
lemma doubleShape_of_unpack {x : Float} {s : Sign} {m : ℕ} {e : ℤ} {hm : 0 < m}
    (h : x.toModel.unpack = .finite s m e hm) :
    doubleShape x = .finite (isNegative s) ⟨m, e⟩ := by
  have hcanonical := isCanonical_unpack x.toModel
  have hbits := toBits_eq_bitsOf (show x.toModel.unpack ≠ .notANumber by rw [h]; exact nofun)
  rw [h] at hcanonical hbits
  obtain ⟨hlt, hlo, hhi, hfull⟩ := hcanonical
  rw [bitsOf] at hbits
  by_cases hm' : m < 2 ^ 52
  · obtain rfl := hfull.resolve_left (by omega)
    rw [if_pos hm'] at hbits
    have hzero : signBits s + m = signBits s + (0 * 2 ^ 52 + m) := by rw [zero_mul, zero_add]
    exact doubleShape_of_bits (by norm_num) hm' (hbits.trans hzero)
  · rw [if_neg hm'] at hbits
    have hfield : (e + 1075).toNat ≠ 0 := by omega
    have hmantissa : 2 ^ 52 + (m - 2 ^ 52) = m := by omega
    have hexponent : ((e + 1075).toNat : ℤ) - 1075 = e := by omega
    rw [doubleShape_of_bits (by omega) (by omega) hbits, if_neg hfield, hmantissa, hexponent]

/-- A number that a double stands for, from its binary form. -/
lemma exists_doubleShape {x : Float} (hx : IsNumber x) :
    ∃ s b, doubleShape x = .finite (isNegative s) b ∧ value x = signed s b.toRat ∧
      b.mantissa < 2 ^ 53 ∧ -1074 ≤ b.exponent := by
  rw [IsNumber] at hx
  have hcanonical := isCanonical_unpack x.toModel
  cases h : x.toModel.unpack with
  | notANumber => rw [h] at hx; cases hx
  | infinity s => rw [h] at hx; cases hx
  | zero s =>
    refine ⟨s, ⟨0, -1074⟩, doubleShape_of_unpack_zero h, ?_, by norm_num, le_rfl⟩
    rw [value, h]
    cases s <;> simp [exact, signed, Binary.toRat]
  | finite s m e hm =>
    rw [h] at hcanonical
    refine ⟨s, ⟨m, e⟩, doubleShape_of_unpack h, ?_, hcanonical.1, hcanonical.2.1⟩
    rw [value, h]
    rfl

/-- The field of the exponent. -/
def exponentField (x : Float) : BitVec 11 :=
  @unpackExponent Format.binary64 x.toModel.toBits.toBitVec

lemma toNat_exponentField (x : Float) :
    (exponentField x).toNat = x.toBits.toNat / twoTo 52 % twoTo 11 := by
  have hbits : x.toBits.toNat = x.toModel.toBits.toBitVec.toNat := rfl
  rw [hbits, exponentField, unpackExponent, BitVec.toNat_cast, BitVec.extractLsb_toNat,
    Nat.shiftRight_eq_div_pow]
  rfl

/-- A double is finite unless its exponent is all ones. -/
lemma isFinite_iff {x : Float} :
    isFinite x = true ↔ exponentField x ≠ -1#11 := by
  have hones : exponentField x = -1#11 ↔ x.toBits.toNat / twoTo 52 % twoTo 11 = 2047 := by
    rw [← toNat_exponentField, ← BitVec.toNat_inj]
    rfl
  rw [ne_eq, hones]
  by_cases hfield : x.toBits.toNat / twoTo 52 % twoTo 11 = 2047
  · simp only [isFinite, doubleShape, hfield, if_true, not_true, iff_false]
    split_ifs <;> simp
  · simp only [isFinite, doubleShape, hfield, if_false, not_false_eq_true, iff_true]
    split_ifs <;> rfl

lemma not_isFinite_of_unpack {x : Float} {s : Sign} (h : x.toModel.unpack = .infinity s) :
    isFinite x = false := by
  rw [Bool.eq_false_iff, ne_eq, isFinite_iff, not_not]
  by_contra hones
  unfold Float.Model.unpack UnpackedFloat.unpack at h
  have hfield : @unpackExponent Format.binary64 x.toModel.toBits.toBitVec ≠ -1#11 := hones
  simp only [hfield, if_false] at h
  split_ifs at h

/-- What is neither infinite nor undefined stands for a number. -/
lemma isFinite_iff_isNumber {x : Float} : isFinite x = true ↔ IsNumber x := by
  constructor
  · intro hfinite
    rw [IsNumber]
    cases h : x.toModel.unpack with
    | notANumber =>
      have hfield : @unpackExponent Format.binary64 x.toModel.toBits.toBitVec ≠ -1#11 :=
        isFinite_iff.mp hfinite
      unfold Float.Model.unpack UnpackedFloat.unpack at h
      simp only [hfield, if_false] at h
      split_ifs at h
    | infinity s =>
      rw [not_isFinite_of_unpack h] at hfinite
      cases hfinite
    | zero s => rfl
    | finite s m e hm => rfl
  · intro hnumber
    obtain ⟨s, b, hshape, -⟩ := exists_doubleShape hnumber
    simp only [isFinite, hshape]

/-- The integer part of a number that is not negative is the greatest integer below it. -/
lemma floatTruncate_eq {x : Float} (hx : IsNumber x) (h : 0 ≤ value x) :
    floatTruncate x = .ok ⌊value x⌋ := by
  obtain ⟨s, b, hshape, hvalue, -⟩ := exists_doubleShape hx
  have hsize : ((b.ratio.1 / b.ratio.2 : ℕ) : ℤ) = ⌊b.toRat⌋ := by
    rw [Binary.toRat_eq_ratio, Rat.floor_natCast_div_natCast]
    rfl
  simp only [floatTruncate, hshape]
  cases s with
  | negative =>
    -- only the zero has this sign
    have hzero : b.toRat = 0 := by
      have hneg : value x = -b.toRat := hvalue
      linarith [b.toRat_nonneg]
    have hnone : value x = 0 := by rw [hvalue, hzero, signed, neg_zero]
    rw [hsize, hzero, hnone]
    rfl
  | positive =>
    have hpos : value x = b.toRat := hvalue
    rw [hsize, hpos]
    rfl

/-! ### Doubles of a size -/

/-- The bits of an unpacked double are those of the double it is packed to. -/
lemma ofBits_bitsOf {u : UnpackedFloat} (hu : IsCanonical u) (hfinite : u.isFinite = true) :
    Float.ofBits (UInt64.ofNat (bitsOf u)) = ⟨Float.Model.pack u⟩ := by
  have hunpack : (Float.Model.pack u).unpack = u := unpack_pack hu hfinite
  have hbits : (Float.Model.pack u).toBits.toNat = bitsOf u := by
    have hne : (Float.Model.pack u).unpack ≠ .notANumber := by
      rw [hunpack]
      exact ne_notANumber_of_isFinite hfinite
    have := toBits_eq_bitsOf (x := ⟨Float.Model.pack u⟩) hne
    rwa [hunpack] at this
  have hword : UInt64.ofNat (bitsOf u) = (Float.Model.pack u).toBits := by
    rw [← hbits, UInt64.ofNat_toNat]
  have hmodel : Float.ofBits (Float.Model.pack u).toBits =
      ⟨Float.Model.pack (Float.Model.pack u).unpack⟩ := rfl
  rw [hword, hmodel, hunpack]

/-- The sign of a number that is negative or not. -/
def signOf (negative : Bool) : Sign := if negative then .negative else .positive

/-- The double of a size has this size. -/
lemma value_toFloat {b : Binary} (negative : Bool) (hpos : 0 < b.mantissa)
    (hlt : b.mantissa < 2 ^ 53) (hlo : -1074 ≤ b.exponent) (hhi : b.exponent ≤ 971) :
    IsNumber (b.toFloat negative) ∧
      value (b.toFloat negative) = signed (signOf negative) b.toRat := by
  obtain ⟨m, e⟩ := b
  dsimp only at hpos hlt hlo hhi
  obtain ⟨k, hk⟩ : ∃ k, min (52 - m.log2) (e + 1074).toNat = k := ⟨_, rfl⟩
  have hpos' : 0 < m * 2 ^ k := by positivity
  have hlog : m.log2 < 53 := (Nat.log2_lt hpos.ne').mpr hlt
  have hlog' : (m * 2 ^ k).log2 = m.log2 + k := by rw [← Nat.shiftLeft_eq, log2_shiftLeft hpos]
  -- the mantissa is filled up with zeros as far as the exponent goes
  have hcanonical : IsCanonical (.finite (signOf negative) (m * 2 ^ k) (e - k) hpos') := by
    refine ⟨(Nat.log2_lt hpos'.ne').mp (by omega), by omega, by omega, ?_⟩
    by_cases hfull : k = 52 - m.log2
    · exact Or.inl ((Nat.le_log2 hpos'.ne').mp (by omega))
    · exact Or.inr (by omega)
  have hfloat : Binary.toFloat negative ⟨m, e⟩ =
      ⟨Float.Model.pack (.finite (signOf negative) (m * 2 ^ k) (e - k) hpos')⟩ := by
    have hlift : twoTo k = 2 ^ k := rfl
    have hunit : twoTo 52 = 2 ^ 52 := rfl
    have hsign : (if negative then twoTo 63 else 0) = signBits (signOf negative) := by
      cases negative <;> rfl
    rw [← ofBits_bitsOf hcanonical rfl, bitsOf, Nat.add_comm, Binary.toFloat]
    simp only [hpos.ne', if_false, hk, hlift, hunit, hsign]
  have hunpack : (Binary.toFloat negative ⟨m, e⟩).toModel.unpack =
      .finite (signOf negative) (m * 2 ^ k) (e - k) hpos' := by
    rw [hfloat]
    exact unpack_pack hcanonical rfl
  refine ⟨?_, ?_⟩
  · rw [IsNumber, hunpack]
    rfl
  · rw [value, hunpack, exact, Binary.toRat, zpow_sub₀ two_ne_zero, zpow_natCast]
    push_cast
    congr 1
    field_simp

/-! ### Small integers -/

lemma value_of_unpack {x : Float} {m : ℕ} {e : ℤ} {hm : 0 < m}
    (h : x.toModel.unpack = .finite .positive m e hm) : IsNumber x ∧ value x = m * 2 ^ e := by
  rw [IsNumber, value, h]
  exact ⟨rfl, rfl⟩

lemma value_zero : IsNumber 0.0 ∧ value 0.0 = 0 := ⟨rfl, rfl⟩

lemma value_one : IsNumber 1.0 ∧ value 1.0 = 1 := by
  have hunpack : ∃ hm, (1.0 : Float).toModel.unpack = .finite .positive (2 ^ 52) (-52) hm :=
    ⟨by norm_num, rfl⟩
  obtain ⟨hm, hunpack⟩ := hunpack
  obtain ⟨hnumber, hvalue⟩ := value_of_unpack hunpack
  exact ⟨hnumber, hvalue.trans (by norm_num)⟩

lemma value_neg {x : Float} (hx : IsNumber x) : IsNumber (-x) ∧ value (-x) = -value x := by
  obtain ⟨hcanonical, hfinite⟩ := isCanonical_neg (isCanonical_unpack x.toModel) hx
  have hunpack : (-x).toModel.unpack = x.toModel.unpack.neg := unpack_pack hcanonical hfinite
  rw [IsNumber, value, hunpack, exact_neg_eq]
  exact ⟨hfinite, rfl⟩

/-- The double of a small word has its value. -/
lemma value_toUInt64 {n : ℕ} (hn : n < 2 ^ 53) :
    IsNumber n.toUInt64.toFloat ∧ value n.toUInt64.toFloat = n := by
  have hword : n.toUInt64.toNat = n := Nat.mod_eq_of_lt (by omega)
  have hcast : |(n : ℚ)| < 2 ^ 53 := by
    rw [Nat.abs_cast]
    exact_mod_cast hn
  have hmodel : n.toUInt64.toFloat =
      ⟨Float.Model.pack (UnpackedFloat.normalize Format.binary64 (n.toUInt64.toNat : ℤ) 0
        .positive)⟩ := rfl
  have hrounds : Rounds n.toUInt64.toFloat n := by
    rw [hmodel, hword]
    have hrounded := isRounded_normalize (n := n) (e := 0) (by simpa using hcast)
    rw [Int.cast_natCast, zpow_zero, mul_one] at hrounded
    exact hrounded.rounds
  exact ⟨hrounds.isNumber, hrounds.value_eq (representable_natCast hn.le)⟩

lemma value_ofNat {n : ℕ} (hn : n < 2 ^ 53) :
    IsNumber (Float.ofNat n) ∧ value (Float.ofNat n) = n := by
  obtain ⟨hnumber, hvalue⟩ := value_toUInt64 hn
  -- a small count is the double of its digits, times one
  have hproduct : Float.ofNat n = n.toUInt64.toFloat * 1.0 := by
    change Float.ofScientific n false 0 = _
    rw [Float.ofScientific, dif_pos ⟨hn, by omega⟩]
    rfl
  have hcast : |(n : ℚ)| < 2 ^ 53 := by
    rw [Nat.abs_cast]
    exact_mod_cast hn
  have htimes := rounds_mul hnumber value_one.1 (by rwa [hvalue, value_one.2, mul_one])
  rw [hvalue, value_one.2, mul_one] at htimes
  rw [hproduct]
  exact ⟨htimes.isNumber, htimes.value_eq (representable_natCast hn.le)⟩

/-- A small integer is a double. -/
lemma value_ofInt {n : ℤ} (hn : |n| < 2 ^ 53) :
    IsNumber (Float.ofInt n) ∧ value (Float.ofInt n) = n := by
  rw [abs_lt] at hn
  cases n with
  | ofNat n =>
    have hsmall : n < 2 ^ 53 := by
      have := hn.2
      rw [Int.ofNat_eq_natCast] at this
      omega
    exact value_ofNat hsmall
  | negSucc n =>
    obtain ⟨hnumber, hvalue⟩ := value_ofNat (n := n + 1) (by omega)
    have hneg := value_neg hnumber
    rw [hvalue] at hneg
    exact ⟨hneg.1, hneg.2.trans (by push_cast; ring)⟩

lemma value_literal {x : Float} {n : ℤ} (hn : |n| < 2 ^ 53) (h : x = Float.ofInt n) :
    IsNumber x ∧ value x = n := h ▸ value_ofInt hn

/-! ### The remainder of a division by one -/

lemma doubleShape_one : doubleShape 1.0 = .finite false ⟨2 ^ 52, -52⟩ := rfl

/-- The remainder of a size by one is a size below one, in a unit of doubles. -/
lemma remainder_one_bounds {b : Binary} (hlt : b.mantissa < 2 ^ 53) (hlo : -1074 ≤ b.exponent) :
    (b.remainder ⟨2 ^ 52, -52⟩).mantissa < 2 ^ 53 ∧ -1074 ≤ (b.remainder ⟨2 ^ 52, -52⟩).exponent ∧
      (b.remainder ⟨2 ^ 52, -52⟩).exponent ≤ 971 ∧ (b.remainder ⟨2 ^ 52, -52⟩).toRat < 1 := by
  obtain ⟨m, e⟩ := b
  dsimp only at hlt hlo
  obtain ⟨unit, hunit⟩ : ∃ unit, min e (-52) = unit := ⟨_, rfl⟩
  have hremainder : Binary.remainder ⟨m, e⟩ ⟨2 ^ 52, -52⟩ =
      ⟨m * 2 ^ (e - unit).toNat % (2 ^ 52 * 2 ^ (-52 - unit).toNat), unit⟩ := by
    rw [← hunit]
    rfl
  have hmodulus : 2 ^ 52 * 2 ^ (-52 - unit).toNat = 2 ^ (-unit).toNat := by
    rw [← pow_add]
    congr 1
    omega
  rw [hremainder, hmodulus]
  have hbelow := Nat.mod_lt (m * 2 ^ (e - unit).toNat) (Nat.two_pow_pos (-unit).toNat)
  refine ⟨?_, by dsimp only; omega, by dsimp only; omega, ?_⟩
  · rcases le_total e (-52) with he | he
    · -- the size has no larger unit, so the remainder is not above its mantissa
      have hnone : (e - unit).toNat = 0 := by omega
      rw [hnone, pow_zero, mul_one]
      exact (Nat.mod_le _ _).trans_lt hlt
    · have hdigits : (-unit).toNat = 52 := by omega
      rw [hdigits] at hbelow ⊢
      exact hbelow.trans (by norm_num)
  · rw [Binary.toRat]
    have hcast : ((m * 2 ^ (e - unit).toNat % 2 ^ (-unit).toNat : ℕ) : ℚ) < 2 ^ (-unit).toNat := by
      exact_mod_cast hbelow
    calc ((m * 2 ^ (e - unit).toNat % 2 ^ (-unit).toNat : ℕ) : ℚ) * 2 ^ unit
        < 2 ^ (-unit).toNat * 2 ^ unit := mul_lt_mul_of_pos_right hcast (two_zpow_pos unit)
      _ = 1 := by
        rw [← zpow_natCast, ← zpow_add₀ two_ne_zero]
        have hsum : ((-unit).toNat : ℤ) + unit = 0 := by omega
        rw [hsum, zpow_zero]

/-- The remainder of a number by one is a number from 0 to 1. -/
lemma floatModulo_one {x : Float} (hx : IsNumber x) :
    IsNumber (floatModulo x 1.0) ∧ 0 ≤ value (floatModulo x 1.0) ∧
      value (floatModulo x 1.0) ≤ 1 := by
  obtain ⟨s, b, hshape, -, hlt, hlo⟩ := exists_doubleShape hx
  obtain ⟨hlt', hlo', hhi', hone⟩ := remainder_one_bounds hlt hlo
  generalize hr : b.remainder ⟨2 ^ 52, -52⟩ = r at hlt' hlo' hhi' hone
  have hmodulo : floatModulo x 1.0 =
      if r.mantissa = 0 then 0.0
      else if isNegative s then r.toFloat true + 1.0 else r.toFloat false := by
    simp only [floatModulo, hshape, doubleShape_one, hr]
    rfl
  rw [hmodulo]
  split_ifs with hzero hnegative
  · exact ⟨value_zero.1, value_zero.2.ge, by rw [value_zero.2]; exact zero_le_one⟩
  · obtain ⟨hnumber, hvalue⟩ := value_toFloat true (Nat.pos_of_ne_zero hzero) hlt' hlo' hhi'
    have hsum : value (r.toFloat true) + value 1.0 = 1 - r.toRat := by
      rw [hvalue, value_one.2]
      exact neg_add_eq_sub _ _
    have hnonneg := r.toRat_nonneg
    have hrounds := rounds_add hnumber value_one.1
      (by rw [hsum, abs_lt]; constructor <;> linarith)
    rw [hsum] at hrounds
    exact ⟨hrounds.isNumber, hrounds.le_value representable_zero (by linarith),
      hrounds.value_le representable_one (by linarith)⟩
  · obtain ⟨hnumber, hvalue⟩ := value_toFloat false (Nat.pos_of_ne_zero hzero) hlt' hlo' hhi'
    rw [hvalue]
    exact ⟨hnumber, r.toRat_nonneg, hone.le⟩

end Double

end Seamark
