import Mathlib
import Seamark.Proofs.Double.Size

/-!
# The order of doubles

Doubles are in the order of their ranks: first their part of the number line, then the exponent and
the mantissa, both counted down on the negative part.  A double that is a number is told by its
rank, but for the sign of a zero (`eq_of_rank_eq`).  A sum never is the negative zero unless it
starts from it (`add_ne_negative_zero`), so a clock that starts at zero and only has time added to it
is told by its rank alone.
-/

namespace Seamark.Double

open Float.Model Float.Model.UnpackedFloat

/-! ### Ranks -/

/-- The place of a double in the order: its part of the number line, exponent and mantissa. -/
def rank : UnpackedFloat → ℤ ×ₗ ℤ ×ₗ ℤ
  | .infinity .negative => toLex (-2, toLex (0, 0))
  | .finite .negative m e _ => toLex (-1, toLex (-e, -m))
  | .notANumber | .zero _ => toLex (0, toLex (0, 0))
  | .finite .positive m e _ => toLex (1, toLex (e, m))
  | .infinity .positive => toLex (2, toLex (0, 0))

lemma compare_negative_positive : compare Sign.negative Sign.positive = .lt := rfl

lemma then_compare_eq_lt {e e' : Int} {m m' : Nat} :
    (compare e e').then (compare m m') = .lt ↔ e < e' ∨ e = e' ∧ m < m' := by
  simp [Ordering.then_eq_lt, Int.compare_eq_lt, Nat.compare_eq_lt]

lemma then_compare_eq_gt {e e' : Int} {m m' : Nat} :
    (compare e e').then (compare m m') = .gt ↔ e' < e ∨ e = e' ∧ m' < m := by
  simp [Ordering.then_eq_gt, Int.compare_eq_gt, Nat.compare_eq_gt]

/-- One of two numbers is below the other exactly if its rank is. -/
lemma compare_eq_lt_iff {a b : UnpackedFloat} :
    UnpackedFloat.compare a b = some .lt ↔
      a ≠ .notANumber ∧ b ≠ .notANumber ∧ rank a < rank b := by
  rcases a with (_ | _) | _ | _ | ⟨_ | _, m, e, hm⟩ <;>
    rcases b with (_ | _) | _ | _ | ⟨_ | _, m', e', hm'⟩ <;>
    simp [UnpackedFloat.compare, rank, Prod.Lex.toLex_lt_toLex, then_compare_eq_lt,
      then_compare_eq_gt, compare_negative_positive]

/-- Two numbers that are equal have the same rank. -/
lemma rank_eq_of_compare {a b : UnpackedFloat} (h : UnpackedFloat.compare a b = some .eq) :
    rank a = rank b := by
  rcases a with (_ | _) | _ | _ | ⟨_ | _, m, e, hm⟩ <;>
    rcases b with (_ | _) | _ | _ | ⟨_ | _, m', e', hm'⟩ <;>
    simp_all [UnpackedFloat.compare, rank]

/-- Numbers of one rank are the same, unless they are zeros. -/
lemma eq_of_rank_eq {a b : UnpackedFloat} (ha : a ≠ .notANumber) (hb : b ≠ .notANumber)
    (hzero : a ≠ .zero .negative ∧ b ≠ .zero .negative) (h : rank a = rank b) : a = b := by
  rcases a with (_ | _) | _ | (_ | _) | ⟨_ | _, m, e, hm⟩ <;>
    rcases b with (_ | _) | _ | (_ | _) | ⟨_ | _, m', e', hm'⟩ <;>
    simp_all [rank]

section

variable {x y : Float}

lemma lt_iff_rank : x < y ↔ x.toModel.unpack ≠ .notANumber ∧ y.toModel.unpack ≠ .notANumber ∧
    rank x.toModel.unpack < rank y.toModel.unpack :=
  lt_iff_compare.trans compare_eq_lt_iff

lemma rank_eq_of_beq (h : (x == y) = true) : rank x.toModel.unpack = rank y.toModel.unpack := by
  have hcompare : (UnpackedFloat.compare x.toModel.unpack y.toModel.unpack == some .eq) = true := h
  exact rank_eq_of_compare (beq_iff_eq.mp hcompare)

/-- A number is equal to itself. -/
lemma beq_self_of_isNaN (h : x.isNaN = false) : (x == x) = true := by
  have hnumber : x.toModel.unpack.isNaN = false := h
  show (UnpackedFloat.compare x.toModel.unpack x.toModel.unpack == some .eq) = true
  rw [beq_iff_eq]
  generalize x.toModel.unpack = a at hnumber
  rcases a with (_ | _) | _ | _ | ⟨_ | _, m, e, hm⟩
  case notANumber => cases hnumber
  case infinity.negative | infinity.positive | zero => rfl
  all_goals simp [UnpackedFloat.compare]

/-- What is at most something is a number. -/
lemma ne_notANumber_of_le (h : x ≤ y) : x.toModel.unpack ≠ .notANumber := by
  have hmodel : x.toModel ≤ y.toModel := of_decide_eq_true h
  have hcompare : ((UnpackedFloat.compare x.toModel.unpack y.toModel.unpack).any (·.isLE)) = true :=
    hmodel
  intro hx
  rw [hx] at hcompare
  cases hcompare

end

/-! ### Unpacking -/

/-- The bits of a number that a sign takes up. -/
def signBits : Sign → Nat
  | .negative => 2 ^ 63
  | .positive => 0

/-- The bits of a number that is told by its sign, exponent and mantissa. -/
def bitsOf : UnpackedFloat → Nat
  | .notANumber => 0
  | .infinity s => signBits s + 2047 * 2 ^ 52
  | .zero s => signBits s
  | .finite s m e _ =>
    signBits s + if m < 2 ^ 52 then m else (e + 1075).toNat * 2 ^ 52 + (m - 2 ^ 52)

section

variable (b : BitVec Format.binary64.numBits)

lemma toNat_unpackExponent : (unpackExponent b).toNat = b.toNat / 2 ^ 52 % 2 ^ 11 := by
  rw [unpackExponent, BitVec.toNat_cast, BitVec.extractLsb_toNat, Nat.shiftRight_eq_div_pow]
  rfl

lemma toNat_unpackMantissa : (unpackMantissa b).toNat = b.toNat % 2 ^ 52 := by
  rw [unpackMantissa, BitVec.toNat_cast, BitVec.extractLsb_toNat, Nat.shiftRight_zero]
  rfl

lemma toNat_unpackSign : (unpackSign b).toNat = b.toNat / 2 ^ 63 % 2 := by
  rw [unpackSign, BitVec.toNat_cast, BitVec.extractLsb_toNat, Nat.shiftRight_eq_div_pow]
  rfl

lemma signBits_ofBitVec :
    signBits (Sign.ofBitVec (unpackSign b)) = b.toNat / 2 ^ 63 * 2 ^ 63 := by
  have hlt : b.toNat < 2 ^ 64 := b.isLt
  have hsign := toNat_unpackSign b
  rw [Sign.ofBitVec]
  split_ifs with h
  · rw [h] at hsign
    simp [signBits] at hsign ⊢
    omega
  · have hne : (unpackSign b).toNat ≠ 0 := fun hzero => h (BitVec.eq_of_toNat_eq hzero)
    simp only [signBits]
    omega

/-- A number is told by what it is unpacked to. -/
lemma toNat_of_unpack (h : unpack Format.binary64 b ≠ .notANumber) :
    b.toNat = bitsOf (unpack Format.binary64 b) := by
  have hlt : b.toNat < 2 ^ 64 := b.isLt
  have hsign := signBits_ofBitVec b
  have hexponent := toNat_unpackExponent b
  have hmantissa := toNat_unpackMantissa b
  unfold UnpackedFloat.unpack at h ⊢
  dsimp only at h ⊢
  split_ifs at h ⊢ with hones hzero hsub hempty
  · have hall : (-1#11 : BitVec 11).toNat = 2047 := by decide
    rw [hones, hall] at hexponent
    rw [hzero, BitVec.toNat_zero] at hmantissa
    rw [bitsOf, hsign]
    omega
  · exact absurd rfl h
  · rw [hsub, BitVec.toNat_zero] at hexponent
    rw [hempty, BitVec.toNat_zero] at hmantissa
    rw [bitsOf, hsign]
    omega
  · rw [hsub, BitVec.toNat_zero] at hexponent
    rw [bitsOf, hsign, hmantissa, if_pos (Nat.mod_lt _ (by decide))]
    omega
  · have hfield : (unpackExponent b).toNat ≠ 0 := fun hnat => hsub (BitVec.eq_of_toNat_eq hnat)
    have hfull : (1#1 ++ unpackMantissa b).toNat = 2 ^ 52 + b.toNat % 2 ^ 52 := by
      rw [BitVec.toNat_append, ← Nat.shiftLeft_add_eq_or_of_lt (BitVec.isLt _), Nat.shiftLeft_eq,
        hmantissa]
      rfl
    have hbias : ((Format.binary64.exponentBias : Int) + (52 : Nat)) = 1075 := by decide
    rw [bitsOf, hsign, hfull, if_neg (by omega), hbias]
    omega
/-- A finite double has at most 53 digits, and none below the last place there is. -/
lemma bounds_of_unpack {s : Sign} {m : Nat} {e : Int} {hm : 0 < m}
    (h : unpack Format.binary64 b = .finite s m e hm) : m < 2 ^ 53 ∧ -1074 ≤ e := by
  unfold UnpackedFloat.unpack at h
  dsimp only at h
  have hbias : ((Format.binary64.exponentBias : Int) + (52 : Nat)) = 1075 := by decide
  split_ifs at h with hones hzero hsub hempty
  · cases h
    have hfield := (unpackMantissa b).isLt
    rw [hsub, hbias]
    exact ⟨lt_trans hfield (by decide), by decide⟩
  · cases h
    have hfield : (unpackExponent b).toNat ≠ 0 := fun hnat => hsub (BitVec.eq_of_toNat_eq hnat)
    rw [hbias]
    exact ⟨(1#1 ++ unpackMantissa b).isLt, by omega⟩

end

lemma eq_of_unpack_eq {x y : Float} (hx : x.toModel.unpack ≠ .notANumber)
    (h : x.toModel.unpack = y.toModel.unpack) : x = y := by
  obtain ⟨⟨xbits, hxbits⟩⟩ := x
  obtain ⟨⟨ybits, hybits⟩⟩ := y
  have hy := hx
  rw [h] at hy
  have hbits : xbits.toBitVec.toNat = ybits.toBitVec.toNat :=
    (toNat_of_unpack _ hx).trans ((congrArg bitsOf h).trans (toNat_of_unpack _ hy).symm)
  obtain rfl := UInt64.toNat_inj.mp hbits
  rfl

/-! ### Sums -/

lemma log2_shiftLeft {m : Nat} (hm : 0 < m) (k : Nat) : (m <<< k).log2 = m.log2 + k := by
  obtain ⟨hlo, hhi⟩ := (Nat.log2_eq_iff hm.ne').mp rfl
  have hpos : 0 < 2 ^ k := by positivity
  have hne : m <<< k ≠ 0 := by
    rw [Nat.shiftLeft_eq]
    positivity
  rw [Nat.log2_eq_iff hne, Nat.shiftLeft_eq, Nat.add_right_comm, pow_add, pow_add _ (m.log2 + 1)]
  exact ⟨Nat.mul_le_mul_right _ hlo, Nat.mul_lt_mul_of_pos_right hhi hpos⟩

/-- What has 53 digits at most loses none of them. -/
lemma shiftToTargetExponent_of_small {m : Nat} {e : Int} (hlog : m.log2 ≤ 52) (he : -1074 ≤ e) :
    shiftToTargetExponent Format.binary64 m e .exact = (⟨m, false, false⟩, e) := by
  have htarget : Format.binary64.targetExponent (totalExponent m e) ≤ e := by
    simp only [Format.targetExponent, totalExponent, Format.mantissaBits, Format.minExponent]
    norm_num
    omega
  have hnone : (Format.binary64.targetExponent (totalExponent m e) - e).toNat = 0 := by omega
  simp only [shiftToTargetExponent, shiftToExponent, hnone]
  exact Prod.ext rfl (add_zero e)

/-- What has 53 digits at most is rounded to itself. -/
lemma roundWithAccuracy_exact (s : Sign) {m : Nat} {e : Int} (hm : 0 < m) (hlog : m.log2 ≤ 52)
    (he : -1074 ≤ e) : roundWithAccuracy Format.binary64 s m e .exact = .finite s m e hm := by
  have hrounded : (⟨m, false, false⟩ : ExtendedMantissa).roundedMantissa = m := by
    simp [ExtendedMantissa.roundedMantissa, ExtendedMantissa.accuracy,
      Accuracy.roundToNearestEven]
  simp only [roundWithAccuracy, shiftToTargetExponent_of_small hlog he, hrounded, hm.ne',
    dite_false]

/-- Rounding keeps a number from becoming zero if none of its digits is below the last place. -/
lemma exists_round_eq (s : Sign) {m : Nat} {e : Int} (hm : 0 < m) (he : -1074 ≤ e) :
    ∃ m' e', ∃ hm' : 0 < m', UnpackedFloat.round Format.binary64 s m e = .finite s m' e' hm' ∧
      m' < 2 ^ 53 ∧ -1074 ≤ e' := by
  have htarget : Format.binary64.targetExponent (totalExponent m e) =
      max (m.log2 - 52 + e) (-1074) := by
    simp only [Format.targetExponent, totalExponent, Format.mantissaBits, Format.minExponent]
    norm_num
    omega
  by_cases hlog : m.log2 ≤ 52
  · -- there is room for more digits, so nothing is lost
    obtain ⟨k, hk⟩ : ∃ k, (e - max (m.log2 - 52 + e) (-1074)).toNat = k := ⟨_, rfl⟩
    have hpos : 0 < m <<< k := by
      rw [Nat.shiftLeft_eq]
      positivity
    have hlog' : (m <<< k).log2 ≤ 52 := by
      rw [log2_shiftLeft hm]
      omega
    refine ⟨m <<< k, e - k, hpos, ?_, (Nat.log2_lt hpos.ne').mp (by omega), by omega⟩
    simp only [UnpackedFloat.round, decreaseExponent, htarget, hk]
    exact roundWithAccuracy_exact s hpos hlog' (by omega)
  · obtain ⟨k, hk⟩ : ∃ k, m.log2 = 52 + k := ⟨m.log2 - 52, by omega⟩
    obtain ⟨m', e', hm', heq, hlog', hlo, -⟩ :=
      exists_roundWithAccuracy_eq s .exact hk (e := e) (by omega)
    have hnone : (e - max (m.log2 - 52 + e) (-1074)).toNat = 0 := by omega
    refine ⟨m', e', hm', ?_, (Nat.log2_lt hm'.ne').mp (by omega), by omega⟩
    simp only [UnpackedFloat.round, decreaseExponent, htarget, hnone]
    simpa using heq

/-- A value that a double can hold and that is not the negative zero. -/
def Fits : UnpackedFloat → Prop
  | .zero .negative => False
  | .finite _ m e _ => m < 2 ^ 53 ∧ -1074 ≤ e
  | _ => True

lemma fits_unpack {x : Float} (hx : x.toModel.unpack ≠ .zero .negative) :
    Fits x.toModel.unpack := by
  cases hu : x.toModel.unpack with
  | notANumber => trivial
  | infinity s => trivial
  | zero s =>
    cases s with
    | negative => exact hx hu
    | positive => trivial
  | finite s m e hm => exact bounds_of_unpack _ hu

/-- What is not the negative zero is not packed as it. -/
lemma unpack_pack_ne {u : UnpackedFloat} (hu : Fits u) :
    (Float.Model.pack u).unpack ≠ .zero .negative := by
  cases u with
  | notANumber => exact fun h => by cases h
  | infinity s =>
    rw [unpack_pack_infinity]
    exact fun h => by cases h
  | zero s =>
    cases s with
    | negative => exact hu.elim
    | positive => exact fun h => by cases h
  | finite s m e hm =>
    obtain ⟨hlt, he⟩ := hu
    change UnpackedFloat.unpack Format.binary64 (UnpackedFloat.pack Format.binary64 _) ≠ _
    rw [pack_finite]
    split_ifs with hlarge hlog
    · have hinfinity : UnpackedFloat.unpack Format.binary64 (packedInfinity Format.binary64 s) =
          .infinity s := unpack_pack_infinity s
      rw [hinfinity]
      exact fun h => by cases h
    · obtain ⟨hfull, -⟩ := (Nat.log2_eq_iff hm.ne').mp hlog
      rw [unpack_packComponents (by omega) (by omega) hfull hlt]
      exact fun h => by cases h
    · -- a subnormal number has a digit in the field of the mantissa
      have hlow : m < 2 ^ 52 := (Nat.log2_lt hm.ne').mp (by
        have := (Nat.log2_lt hm.ne').mpr hlt
        omega)
      have hfield : BitVec.ofNat 52 m ≠ 0#52 := fun h => by
        have hnat := congrArg BitVec.toNat h
        rw [BitVec.toNat_ofNat, Nat.mod_eq_of_lt hlow, BitVec.toNat_zero] at hnat
        omega
      simp only [UnpackedFloat.unpack, unpackExponent_packComponents,
        unpackMantissa_packComponents, hfield, if_false, dite_false]
      exact fun h => by cases h

lemma fits_round (s : Sign) {m : Nat} {e : Int} (hm : 0 < m) (he : -1074 ≤ e) :
    Fits (UnpackedFloat.round Format.binary64 s m e) := by
  obtain ⟨m', e', hm', heq, hbounds⟩ := exists_round_eq s hm he
  rw [heq]
  exact hbounds

/-- A sum that cancels out is the positive zero, and any other one is not rounded to a zero. -/
lemma fits_normalize (n : Int) {e : Int} (he : -1074 ≤ e) :
    Fits (UnpackedFloat.normalize Format.binary64 n e .positive) := by
  rw [UnpackedFloat.normalize]
  cases hsign : compare n 0 with
  | lt =>
    have hneg := Int.compare_eq_lt.mp hsign
    exact fits_round .negative (by omega) he
  | eq => trivial
  | gt =>
    have hpos := Int.compare_eq_gt.mp hsign
    exact fits_round .positive (by omega) he

lemma Fits.add {u v : UnpackedFloat} (hu : Fits u) (hv : v = .zero .negative ∨ Fits v) :
    Fits (UnpackedFloat.add Format.binary64 u v) := by
  cases u with
  | notANumber => cases v <;> trivial
  | infinity s =>
    cases v with
    | infinity s' => simp only [UnpackedFloat.add]; split_ifs <;> trivial
    | _ => trivial
  | zero s =>
    cases s with
    | negative => exact hu.elim
    | positive =>
      cases v with
      | zero s' => cases s' <;> trivial
      | finite s' m' e' hm' => exact hv.resolve_left fun h => by cases h
      | _ => trivial
  | finite s m e hm =>
    cases v with
    | zero s' => exact hu
    | finite s' m' e' hm' =>
      have hv' : Fits (.finite s' m' e' hm') := hv.resolve_left fun h => by cases h
      simp only [UnpackedFloat.add]
      exact fits_normalize _ (le_min hu.2 hv'.2)
    | _ => trivial

/-- A sum is not the negative zero, unless it starts from it. -/
lemma add_ne_negative_zero {x : Float} (hx : x.toModel.unpack ≠ .zero .negative) (y : Float) :
    (x + y).toModel.unpack ≠ .zero .negative := by
  have hadd : (x + y).toModel = Float.Model.pack
      (UnpackedFloat.add Format.binary64 x.toModel.unpack y.toModel.unpack) := rfl
  rw [hadd]
  refine unpack_pack_ne ((fits_unpack hx).add ?_)
  exact or_iff_not_imp_left.mpr fits_unpack

end Seamark.Double
