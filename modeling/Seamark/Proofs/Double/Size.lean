import Mathlib
import Seamark.Scalar

/-!
# Doubles of at least a power of two

A positive double reaches `k` when it is at least `2 ^ (52 + k)`, so that its exponent is `k` or
more and its mantissa is full.  Rounding a sum or a product can only lose digits of the mantissa,
never the power of two, so sums and products of doubles that reach something reach something too.
This bounds results of double arithmetic from below without any error term.
-/

namespace Seamark.Double

open Float.Model Float.Model.UnpackedFloat

/-- A positive double of at least `2 ^ (52 + k)`, perhaps infinite. -/
def Reaches (k : Int) (x : Float) : Prop :=
  x.toModel.unpack = .infinity .positive ∨
    ∃ m e, ∃ hm : 0 < m, x.toModel.unpack = .finite .positive m e hm ∧ 2 ^ 52 ≤ m ∧ k ≤ e

lemma Reaches.mono {k l : Int} {x : Float} (h : Reaches k x) (hkl : l ≤ k) : Reaches l x := by
  rcases h with h | ⟨m, e, hm, h, hfull, hk⟩
  · exact Or.inl h
  · exact Or.inr ⟨m, e, hm, h, hfull, by omega⟩

lemma reaches_of_unpack {k : Int} {x : Float} {m : Nat} {hm : 0 < m}
    (h : x.toModel.unpack = .finite .positive m k hm) (hfull : 2 ^ 52 ≤ m) : Reaches k x :=
  Or.inr ⟨m, k, hm, h, hfull, le_rfl⟩

/-! ### Packing and unpacking -/

/-- The mantissa of a double that is not subnormal is full. -/
lemma full_of_unpack {v : Float.Model} {s : Sign} {m : Nat} {e : Int} {hm : 0 < m}
    (h : v.unpack = .finite s m e hm) (he : -1074 < e) : 2 ^ 52 ≤ m := by
  unfold Float.Model.unpack UnpackedFloat.unpack at h
  dsimp only at h
  split at h
  · split at h <;> cases h
  · split at h
    · rename_i hsub
      split at h
      · cases h
      · -- a subnormal double has the least exponent
        cases h
        exfalso
        rw [hsub] at he
        revert he
        decide
    · cases h
      rw [BitVec.toNat_append, ← Nat.shiftLeft_add_eq_or_of_lt (BitVec.isLt _), Nat.shiftLeft_eq]
      exact Nat.le_add_right_of_le (by decide)

/-! ### The order -/

lemma lt_iff_compare {x y : Float} :
    x < y ↔ UnpackedFloat.compare x.toModel.unpack y.toModel.unpack = some .lt := by
  have hmodel : x < y ↔ x.toModel < y.toModel := decide_eq_true_iff
  have hcompare : x.toModel < y.toModel ↔
      (UnpackedFloat.compare x.toModel.unpack y.toModel.unpack == some .lt) = true := Iff.rfl
  rw [hmodel, hcompare, beq_iff_eq]

section

variable {c x : Float} {m : Nat} {e : Int} {hm : 0 < m}

/-- What is above a double that is not subnormal reaches its exponent. -/
lemma reaches_of_lt (hc : c.toModel.unpack = .finite .positive m e hm) (he : -1074 < e)
    (h : c < x) : Reaches e x := by
  rw [lt_iff_compare, hc] at h
  cases hx : x.toModel.unpack with
  | notANumber => simp [hx, UnpackedFloat.compare] at h
  | zero s => simp [hx, UnpackedFloat.compare] at h
  | infinity s =>
    cases s with
    | negative => simp [hx, UnpackedFloat.compare] at h
    | positive => exact Or.inl hx
  | finite s m' e' hm' =>
    cases s with
    | negative => simp [hx, UnpackedFloat.compare] at h
    | positive =>
      have hle : e ≤ e' := by
        by_contra hgt
        have hcompare : compare e e' = .gt := Int.compare_eq_gt.mpr (by omega)
        simp [hx, UnpackedFloat.compare, hcompare] at h
      exact Or.inr ⟨m', e', hm', hx, full_of_unpack hx (by omega), hle⟩

/-- What reaches the next exponent is above a double. -/
lemma lt_of_reaches (hc : c.toModel.unpack = .finite .positive m e hm) (h : Reaches (e + 1) x) :
    c < x := by
  rw [lt_iff_compare, hc]
  rcases h with hx | ⟨m', e', hm', hx, -, he⟩
  · rw [hx]
    rfl
  · have hcompare : compare e e' = .lt := Int.compare_eq_lt.mpr (by omega)
    rw [hx]
    simp only [UnpackedFloat.compare, hcompare, Ordering.then]

/-- What is at least a double reaches what that reaches. -/
lemma Reaches.greater (hc : c.toModel.unpack = .finite .positive m e hm) (hfull : 2 ^ 52 ≤ m)
    (he : -1074 < e) (y : Float) : Reaches e (greater c y) := by
  rw [Seamark.greater]
  split_ifs with hlt
  · exact reaches_of_lt hc he hlt
  · exact reaches_of_unpack hc hfull

end

lemma Reaches.lesser {k : Int} {x y : Float} (hx : Reaches k x) (hy : Reaches k y) :
    Reaches k (lesser x y) := by
  rw [Seamark.lesser]
  split_ifs
  · exact hy
  · exact hx

/-- How a finite value is packed: infinite if its exponent is too large, and otherwise into the
three fields, with an exponent of zero if the mantissa is not full. -/
lemma pack_finite (s : Sign) (m : Nat) (e : Int) (hm : 0 < m) :
    UnpackedFloat.pack Format.binary64 (.finite s m e hm) =
      if 2 ^ 11 ≤ (e + 1075).toNat + 1 then packedInfinity Format.binary64 s
      else packComponents Format.binary64 s
        (if m.log2 = 52 then BitVec.ofNat 11 (e + 1075).toNat else 0) (BitVec.ofNat 52 m) := by
  have hbias : e + (Format.binary64.exponentBias : Int) + (52 : Nat) = e + 1075 := by
    have : (Format.binary64.exponentBias : Int) = 1023 := by decide
    omega
  have hbits : m.log2 + 1 = Format.binary64.mantissaBits ↔ m.log2 = 52 := by
    have : Format.binary64.mantissaBits = 53 := by decide
    omega
  simp only [UnpackedFloat.pack, hbias, hbits]
  split_ifs <;> rfl

lemma unpack_packComponents {s : Sign} {b m : Nat} (hpos : 0 < b) (hlt : b < 2047)
    (hfull : 2 ^ 52 ≤ m) (hm : m < 2 ^ 53) :
    UnpackedFloat.unpack Format.binary64
        (packComponents Format.binary64 s (BitVec.ofNat 11 b) (BitVec.ofNat 52 m)) =
      .finite s m (b - 1075) (by omega) := by
  have hfield : (BitVec.ofNat 11 b).toNat = b := by
    rw [BitVec.toNat_ofNat, Nat.mod_eq_of_lt (by omega)]
  -- the field of the exponent is neither that of zero nor that of infinity
  have hzero : BitVec.ofNat 11 b ≠ 0#11 := fun h => by
    have hnat := congrArg BitVec.toNat h
    rw [hfield, BitVec.toNat_zero] at hnat
    omega
  have hones : BitVec.ofNat 11 b ≠ -1#11 := fun h => by
    have hnat := congrArg BitVec.toNat h
    have hall : (-1#11 : BitVec 11).toNat = 2047 := by decide
    omega
  have hmantissa : (1#1 ++ BitVec.ofNat 52 m).toNat = m := by
    have hone : (1#1 : BitVec 1).toNat = 1 := rfl
    rw [BitVec.toNat_append, ← Nat.shiftLeft_add_eq_or_of_lt (BitVec.isLt _), Nat.shiftLeft_eq,
      BitVec.toNat_ofNat m]
    omega
  simp only [UnpackedFloat.unpack, unpackExponent_packComponents, unpackMantissa_packComponents,
    unpackSign_packComponents, Sign.ofBitVec_toBitVec, hones, hzero, if_false, hfield, hmantissa]
  congr 1

/-- A full mantissa is packed without loss. -/
lemma unpack_pack_of_normal (s : Sign) {m : Nat} {e : Int} {hm : 0 < m} (hlog : m.log2 = 52)
    (hlo : -1074 ≤ e) (hhi : e ≤ 971) :
    (Float.Model.pack (.finite s m e hm)).unpack = .finite s m e hm := by
  obtain ⟨hfull, hlt⟩ := (Nat.log2_eq_iff hm.ne').mp hlog
  change UnpackedFloat.unpack Format.binary64 (UnpackedFloat.pack Format.binary64 _) = _
  rw [pack_finite, if_neg (by omega), if_pos hlog,
    unpack_packComponents (by omega) (by omega) hfull hlt]
  congr 1
  omega

/-- A large exponent makes a double infinite. -/
lemma unpack_pack_of_large (s : Sign) {m : Nat} {e : Int} {hm : 0 < m} (he : 972 ≤ e) :
    (Float.Model.pack (.finite s m e hm)).unpack = .infinity s := by
  change UnpackedFloat.unpack Format.binary64 (UnpackedFloat.pack Format.binary64 _) = _
  rw [pack_finite, if_pos (by omega)]
  cases s <;> rfl

lemma reaches_pack {m : Nat} {e k : Int} {hm : 0 < m} (hlog : m.log2 = 52) (he : -1074 ≤ e)
    (hk : k ≤ e) : Reaches k ⟨Float.Model.pack (.finite .positive m e hm)⟩ := by
  obtain ⟨hfull, -⟩ := (Nat.log2_eq_iff hm.ne').mp hlog
  by_cases hlarge : 972 ≤ e
  · exact Or.inl (unpack_pack_of_large .positive hlarge)
  · exact Or.inr ⟨m, e, hm, unpack_pack_of_normal .positive hlog he (by omega), hfull, hk⟩

/-! ### Rounding -/

lemma mantissa_shift (em : ExtendedMantissa) (k : Nat) :
    (em >>> k).mantissa = em.mantissa / 2 ^ k := by
  induction k with
  | zero => simp [HShiftRight.hShiftRight, Nat.repeat]
  | succ k ih =>
    have hstep : (em >>> (k + 1)).mantissa = (em >>> k).mantissa / 2 := rfl
    rw [hstep, ih, Nat.div_div_eq_div_mul, pow_succ]

lemma roundedMantissa_bounds (em : ExtendedMantissa) :
    em.mantissa ≤ em.roundedMantissa ∧ em.roundedMantissa ≤ em.mantissa + 1 := by
  obtain ⟨m, round, sticky⟩ := em
  cases round <;> cases sticky <;>
    simp [ExtendedMantissa.roundedMantissa, ExtendedMantissa.accuracy,
      Accuracy.roundToNearestEven]
  omega

lemma mantissa_ofMantissaAndAccuracy (m : Nat) (acc : Accuracy) :
    (ExtendedMantissa.ofMantissaAndAccuracy m acc).mantissa = m := by
  rcases acc with _ | (_ | _ | _) <;> rfl

lemma log2_div_two_pow {m k : Nat} (hlog : m.log2 = 52 + k) : (m / 2 ^ k).log2 = 52 := by
  have hm : m ≠ 0 := by
    rintro rfl
    rw [Nat.log2_zero] at hlog
    omega
  obtain ⟨hlo, hhi⟩ := (Nat.log2_eq_iff hm).mp hlog
  have hpos : 0 < 2 ^ k := by positivity
  have hfull : 2 ^ 52 ≤ m / 2 ^ k := by
    rw [Nat.le_div_iff_mul_le hpos, ← pow_add]
    exact hlo
  refine (Nat.log2_eq_iff (by omega)).mpr ⟨hfull, ?_⟩
  rw [Nat.div_lt_iff_lt_mul hpos, ← pow_add]
  rwa [show 52 + 1 + k = 52 + k + 1 by omega]

/-- The shift that leaves 53 digits of a mantissa, when the result is not subnormal. -/
lemma shiftToTargetExponent_of_normal {m k : Nat} {e : Int} (hlog : m.log2 = 52 + k)
    (he : -1074 ≤ e + k) (acc : Accuracy) :
    shiftToTargetExponent Format.binary64 m e acc =
      (ExtendedMantissa.ofMantissaAndAccuracy m acc >>> k, e + k) := by
  have htarget : Format.binary64.targetExponent (totalExponent m e) = e + k := by
    simp only [Format.targetExponent, totalExponent, hlog, Format.mantissaBits, Format.minExponent]
    norm_num
    omega
  have hshift : (e + k - e).toNat = k := by omega
  simp only [shiftToTargetExponent, shiftToExponent, htarget, hshift]

/-- Rounding keeps the power of two of a mantissa with enough digits, or carries into the next
one. -/
lemma exists_roundWithAccuracy_eq (s : Sign) {m k : Nat} {e : Int} (acc : Accuracy)
    (hlog : m.log2 = 52 + k) (he : -1074 ≤ e + k) :
    ∃ m' e', ∃ hm' : 0 < m', roundWithAccuracy Format.binary64 s m e acc = .finite s m' e' hm' ∧
      m'.log2 = 52 ∧ e + k ≤ e' ∧ e' ≤ e + k + 1 := by
  generalize hem : ExtendedMantissa.ofMantissaAndAccuracy m acc >>> k = em
  have hmantissa : em.mantissa.log2 = 52 := by
    rw [← hem, mantissa_shift, mantissa_ofMantissaAndAccuracy]
    exact log2_div_two_pow hlog
  have hne : em.mantissa ≠ 0 := by
    intro hzero
    simp [hzero] at hmantissa
  obtain ⟨hlo, hhi⟩ := (Nat.log2_eq_iff hne).mp hmantissa
  have hrounded := roundedMantissa_bounds em
  -- the rounded mantissa has 53 digits, unless it is carried up to the next power of two
  obtain ⟨j, hj, hcarry⟩ : ∃ j ≤ 1, em.roundedMantissa.log2 = 52 + j := by
    rcases lt_or_eq_of_le (show em.roundedMantissa ≤ 2 ^ 53 by omega) with hlt | heq
    · exact ⟨0, by omega, (Nat.log2_eq_iff (by omega)).mpr ⟨by omega, hlt⟩⟩
    · exact ⟨1, le_rfl, by rw [heq, Nat.log2_two_pow]⟩
  have hsecond := shiftToTargetExponent_of_normal hcarry (e := e + k) (by omega) .exact
  have hlast := log2_div_two_pow hcarry
  have hpos : em.roundedMantissa / 2 ^ j ≠ 0 := by
    intro hzero
    simp [hzero] at hlast
  refine ⟨em.roundedMantissa / 2 ^ j, e + k + j, Nat.pos_of_ne_zero hpos, ?_, hlast, by omega,
    by omega⟩
  simp only [roundWithAccuracy, shiftToTargetExponent_of_normal hlog he, hem, hsecond,
    mantissa_shift, mantissa_ofMantissaAndAccuracy, hpos, dite_false]

lemma reaches_roundWithAccuracy {m k : Nat} {e l : Int} (acc : Accuracy) (hlog : m.log2 = 52 + k)
    (he : -1074 ≤ e + k) (hl : l ≤ e + k) :
    Reaches l ⟨Float.Model.pack (roundWithAccuracy Format.binary64 .positive m e acc)⟩ := by
  obtain ⟨m', e', hm', heq, hlog', hlo, -⟩ := exists_roundWithAccuracy_eq .positive acc hlog he
  rw [heq]
  exact reaches_pack hlog' (by omega) (by omega)

/-! ### Sums and products -/

lemma unpack_pack_infinity (s : Sign) : (Float.Model.pack (.infinity s)).unpack = .infinity s := by
  cases s <;> rfl

/-- A positive sum with at least 53 digits is rounded as it is. -/
lemma normalize_of_pos {m k : Nat} {e : Int} (zero : Sign) (hlog : m.log2 = 52 + k) :
    UnpackedFloat.normalize Format.binary64 (m : Int) e zero =
      roundWithAccuracy Format.binary64 .positive m e .exact := by
  have hm : m ≠ 0 := by
    rintro rfl
    rw [Nat.log2_zero] at hlog
    omega
  have hpos : compare (m : Int) 0 = .gt := Int.compare_eq_gt.mpr (by omega)
  have hshift : (e - Format.binary64.targetExponent (totalExponent m e)).toNat = 0 := by
    simp only [Format.targetExponent, totalExponent, hlog, Format.mantissaBits, Format.minExponent]
    norm_num
    omega
  simp [UnpackedFloat.normalize, hpos, UnpackedFloat.round, decreaseExponent, hshift]

/-- A sum of two doubles reaches one power further than both do. -/
lemma Reaches.add {k : Int} {x y : Float} (hk : -1074 ≤ k) (hx : Reaches k x) (hy : Reaches k y) :
    Reaches (k + 1) (x + y) := by
  have hadd : x + y = ⟨Float.Model.pack
      (UnpackedFloat.add Format.binary64 x.toModel.unpack y.toModel.unpack)⟩ := rfl
  rcases hx with hx | ⟨m, e, hm, hx, hfull, he⟩
  · left
    rcases hy with hy | ⟨m', e', hm', hy, -⟩ <;>
      simp only [hadd, hx, hy, UnpackedFloat.add] <;> exact unpack_pack_infinity .positive
  rcases hy with hy | ⟨m', e', hm', hy, hfull', he'⟩
  · left
    simp only [hadd, hx, hy, UnpackedFloat.add]
    exact unpack_pack_infinity .positive
  -- both mantissas are counted in the smaller unit of the two
  have hm₁ : m ≤ m <<< (e - min e e').toNat := by
    rw [Nat.shiftLeft_eq]
    exact Nat.le_mul_of_pos_right _ (by positivity)
  have hm₂ : m' ≤ m' <<< (e' - min e e').toNat := by
    rw [Nat.shiftLeft_eq]
    exact Nat.le_mul_of_pos_right _ (by positivity)
  obtain ⟨total, htotal⟩ :
      ∃ total, m <<< (e - min e e').toNat + m' <<< (e' - min e e').toNat = total := ⟨_, rfl⟩
  have hlog : 53 ≤ total.log2 := (Nat.le_log2 (by omega)).mpr (by omega)
  obtain ⟨j, hj⟩ : ∃ j, total.log2 = 52 + (1 + j) := ⟨total.log2 - 53, by omega⟩
  have hsum : x + y = ⟨Float.Model.pack
      (UnpackedFloat.normalize Format.binary64 (total : Int) (min e e') .positive)⟩ := by
    simp only [hadd, hx, hy, UnpackedFloat.add, decreaseExponent, Sign.apply, ← htotal,
      Nat.cast_add]
  rw [hsum, normalize_of_pos .positive hj]
  exact reaches_roundWithAccuracy .exact hj (by push_cast; omega) (by push_cast; omega)

/-- A product of two doubles reaches what they reach together. -/
lemma Reaches.mul {k l : Int} {x y : Float} (hkl : -1074 ≤ k + l + 52) (hx : Reaches k x)
    (hy : Reaches l y) : Reaches (k + l + 52) (x * y) := by
  have hmul : x * y = ⟨Float.Model.pack
      (UnpackedFloat.mul Format.binary64 x.toModel.unpack y.toModel.unpack)⟩ := rfl
  rcases hx with hx | ⟨m, e, hm, hx, hfull, he⟩
  · left
    rcases hy with hy | ⟨m', e', hm', hy, -⟩ <;>
      simp only [hmul, hx, hy, UnpackedFloat.mul] <;> exact unpack_pack_infinity .positive
  rcases hy with hy | ⟨m', e', hm', hy, hfull', he'⟩
  · left
    simp only [hmul, hx, hy, UnpackedFloat.mul]
    exact unpack_pack_infinity .positive
  have hprod : 2 ^ 52 * 2 ^ 52 ≤ m * m' := Nat.mul_le_mul hfull hfull'
  have hlog : 104 ≤ (m * m').log2 := (Nat.le_log2 (by omega)).mpr (by omega)
  obtain ⟨j, hj⟩ : ∃ j, (m * m').log2 = 52 + (52 + j) := ⟨(m * m').log2 - 104, by omega⟩
  simp only [hmul, hx, hy, UnpackedFloat.mul]
  exact reaches_roundWithAccuracy .exact hj (by push_cast; omega) (by push_cast; omega)

end Seamark.Double
