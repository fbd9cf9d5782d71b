import Mathlib
import Seamark.Decimal.Shortest
import Seamark.Proofs.Decimal.Nearest

/-!
# Shortest decimals are read back

The numbers that are read as a double form an interval around it (`Binary.IsNear`).  It reaches to
the middle between the double and its neighbours, and the ends belong to it if the mantissa is even.
Every decimal in the interval is read as this double (`nearest_of_isNear`), and the search for the
shortest one ends with such a decimal (`holds_shortest`).  So the shortest decimal of a double is
read as the double (`rounded_shortest`).
-/

namespace Seamark

open Double Float.Model Float.Model.UnpackedFloat

namespace Binary

variable {b : Binary} {d : Decimal}

/-! ### The interval of a double -/

/-- The lower end of the interval, in units of the last binary place. -/
def lowerEnd (b : Binary) : ℚ := b.mantissa - if b.narrowBelow then 1 / 4 else 1 / 2

/-- A number of units lies in the interval that is rounded to this size. -/
def IsNear (b : Binary) (t : ℚ) : Prop :=
  if b.mantissa % 2 = 0 then b.lowerEnd ≤ t ∧ t ≤ b.mantissa + 1 / 2
  else b.lowerEnd < t ∧ t < b.mantissa + 1 / 2

lemma natCast_pow_toNat {a : ℕ} (ha : 0 < a) (e : ℤ) :
    ((a ^ e.toNat : ℕ) : ℚ) = (a : ℚ) ^ e * (a ^ (-e).toNat : ℕ) := by
  have ha' : (a : ℚ) ≠ 0 := by exact_mod_cast ha.ne'
  push_cast
  rw [← zpow_natCast, ← zpow_natCast, ← zpow_add₀ ha']
  congr 1
  omega

/-- The two sides of the comparisons with the ends, counted in the same unit. -/
lemma point_eq (b : Binary) (d : Decimal) :
    ((d.digits * 10 ^ d.exponent.toNat * 2 ^ (-(b.exponent - 2)).toNat : ℕ) : ℚ) =
      4 * (d.toRat / 2 ^ b.exponent) *
        (2 ^ (b.exponent - 2).toNat * 10 ^ (-d.exponent).toNat : ℕ) := by
  have hbinary := natCast_pow_toNat two_pos (b.exponent - 2)
  have hdecimal := natCast_pow_toNat (a := 10) (by norm_num) d.exponent
  have hquarter : (2 : ℚ) ^ (b.exponent - 2) = 2 ^ b.exponent / 4 := by
    rw [zpow_sub₀ two_ne_zero]
    norm_num
  have hne := (two_zpow_pos b.exponent).ne'
  rw [Nat.cast_mul, Nat.cast_mul, Nat.cast_mul, hbinary, hdecimal, Decimal.toRat_eq, Nat.cast_ofNat,
    Nat.cast_ofNat, hquarter]
  field_simp

/-- A decimal is found to round to a size if its number does. -/
lemma holds_iff (hpos : 0 < b.mantissa) :
    b.holds d = true ↔ b.IsNear (d.toRat / 2 ^ b.exponent) := by
  have hunit : (0 : ℚ) < (2 ^ (b.exponent - 2).toNat * 10 ^ (-d.exponent).toNat : ℕ) := by
    positivity
  have hpoint := point_eq b d
  have hlow : (((if b.narrowBelow then 4 * b.mantissa - 1 else 4 * b.mantissa - 2) : ℕ) : ℚ) =
      4 * b.lowerEnd := by
    rw [lowerEnd]
    split_ifs
    · rw [Nat.cast_sub (by omega)]
      push_cast
      ring
    · rw [Nat.cast_sub (by omega)]
      push_cast
      ring
  have hhigh : ((4 * b.mantissa + 2 : ℕ) : ℚ) = 4 * (b.mantissa + 1 / 2) := by
    push_cast
    ring
  have hpowers : twoTo = fun k => 2 ^ k := rfl
  have hpowers' : tenTo = fun k => 10 ^ k := rfl
  simp only [holds, IsNear, hpowers, hpowers']
  generalize d.toRat / 2 ^ b.exponent = t at hpoint
  generalize (if b.narrowBelow then 4 * b.mantissa - 1 else 4 * b.mantissa - 2) = low at hlow
  generalize 4 * b.mantissa + 2 = high at hhigh
  generalize d.digits * 10 ^ d.exponent.toNat * 2 ^ (-(b.exponent - 2)).toNat = point at hpoint
  generalize 2 ^ (b.exponent - 2).toNat * 10 ^ (-d.exponent).toNat = unit at hunit hpoint
  have hle (r : ℕ) {s : ℚ} (hs : (r : ℚ) = 4 * s) : r * unit ≤ point ↔ s ≤ t := by
    rw [← Nat.cast_le (α := ℚ), Nat.cast_mul, hs, hpoint, mul_le_mul_iff_of_pos_right hunit,
      mul_le_mul_iff_of_pos_left (by norm_num)]
  have hge (r : ℕ) {s : ℚ} (hs : (r : ℚ) = 4 * s) : point ≤ r * unit ↔ t ≤ s := by
    rw [← Nat.cast_le (α := ℚ), Nat.cast_mul, hs, hpoint, mul_le_mul_iff_of_pos_right hunit,
      mul_le_mul_iff_of_pos_left (by norm_num)]
  split_ifs
  · rw [Bool.and_eq_true, decide_eq_true_iff, decide_eq_true_iff, hle low hlow, hge high hhigh]
  · rw [Bool.and_eq_true, decide_eq_true_iff, decide_eq_true_iff, ← not_le, ← not_le,
      hge low hlow, hle high hhigh, not_le, not_le]

/-- The ends of the interval lie halfway to the neighbours, below a power of two halfway to a nearer
one. -/
lemma IsNear.bounds {t : ℚ} (h : b.IsNear t) :
    b.lowerEnd ≤ t ∧ t ≤ b.mantissa + 1 / 2 ∧
      (¬ Even b.mantissa → b.lowerEnd < t ∧ t < b.mantissa + 1 / 2) := by
  rw [IsNear] at h
  split_ifs at h with heven
  · exact ⟨h.1, h.2, fun hodd => absurd (Nat.even_iff.mpr heven) hodd⟩
  · exact ⟨h.1.le, h.2.le, fun _ => h⟩

/-- Below a power of two the numbers of the interval are counted in the next smaller unit, and
rounded up to the power. -/
lemma nearest_of_narrow {e : ℤ} {t : ℚ} (he : -1074 < e) (hlo : 2 ^ 52 - 1 / 4 ≤ t)
    (hbelow : t < 2 ^ 52) : nearest (t * 2 ^ e) = .finite .positive (2 ^ 52) e (by norm_num) := by
  have hcounted : IsCounted (2 * t) (e - 1) :=
    ⟨by linarith, by omega, by linarith, Or.inl (by linarith)⟩
  have hvalue : t * 2 ^ e = 2 * t * 2 ^ (e - 1) := by
    rw [zpow_sub_one₀ two_ne_zero]
    ring
  have hround : halfEven (2 * t) = 2 ^ 53 := hcounted.halfEven_eq_top_iff.mpr (by linarith)
  rw [hvalue, hcounted.nearest_eq, hround, ofUnits, dif_neg (by norm_num), if_pos rfl]
  congr 1
  omega

/-- **What lies in the interval of a double is rounded to it.** -/
lemma nearest_of_isNear {m : ℕ} {e : ℤ} {t : ℚ} {hm : 0 < m}
    (hb : IsCanonical (.finite .positive m e hm)) (h : IsNear ⟨m, e⟩ t) :
    nearest (t * 2 ^ e) = .finite .positive m e hm := by
  obtain ⟨hlt, hleast, -, hfull⟩ := hb
  obtain ⟨hlo, hhi, hodd⟩ := h.bounds
  rw [lowerEnd] at hlo hodd
  dsimp only at hlo hhi hodd
  by_cases hnarrow : narrowBelow ⟨m, e⟩ = true ∧ t < m
  · obtain ⟨hb, hbelow⟩ := hnarrow
    rw [if_pos hb] at hlo
    obtain ⟨hpower, hexponent⟩ := Bool.and_eq_true_iff.mp hb
    obtain rfl : m = 2 ^ 52 := beq_iff_eq.mp hpower
    push_cast at hlo hbelow
    exact nearest_of_narrow (of_decide_eq_true hexponent) hlo hbelow
  · have hhalf : (if narrowBelow ⟨m, e⟩ = true then 1 / 4 else 1 / 2 : ℚ) ≤ 1 / 2 := by
      split_ifs <;> norm_num
    have hm' : (1 : ℚ) ≤ m := by exact_mod_cast hm
    have htop : (m : ℚ) ≤ 2 ^ 53 - 1 := by
      have hcast : ((m + 1 : ℕ) : ℚ) ≤ 2 ^ 53 := by exact_mod_cast hlt
      push_cast at hcast
      linarith
    have hcounted : IsCounted t e := by
      refine ⟨by linarith, hleast, by linarith, ?_⟩
      rcases hleast.lt_or_eq with hgt | heq
      · left
        rcases (hfull.resolve_right hgt.ne').lt_or_eq with hmore | hpower
        · have hcast : (2 ^ 52 + 1 : ℚ) ≤ m := by exact_mod_cast hmore
          linarith
        · -- at a power of two the number is not below it
          have hb : narrowBelow ⟨m, e⟩ = true :=
            Bool.and_eq_true_iff.mpr ⟨beq_iff_eq.mpr hpower.symm, decide_eq_true hgt⟩
          have hge : (m : ℚ) ≤ t := not_lt.mp fun hbelow => hnarrow ⟨hb, hbelow⟩
          exact le_trans (by exact_mod_cast hpower.le) hge
      · exact Or.inr heq.symm
    have hround : halfEven t = m := by
      refine halfEven_eq hcounted.pos.le ?_
      by_cases heven : Even m
      · exact (abs_le.mpr ⟨by linarith, by linarith⟩).lt_or_eq.imp_right fun htie => ⟨htie, heven⟩
      · obtain ⟨hlo', hhi'⟩ := hodd heven
        exact Or.inl (abs_lt.mpr ⟨by linarith, by linarith⟩)
    rw [hcounted.nearest_eq, hround, ofUnits, dif_neg hm.ne', if_neg hlt.ne]

/-- A decimal that is found to round to a double is read as it. -/
lemma rounded_of_holds {x : Float} (hx : IsNumber x) (hpos : 0 < value x) {negative : Bool}
    (hb : doubleShape x = .finite negative b) (h : b.holds d = true) : rounded d.toRat = x := by
  obtain ⟨m, e, hm, hunpack⟩ := exists_unpack_of_pos hx hpos
  have hcanonical := isCanonical_unpack x.toModel
  rw [hunpack] at hcanonical
  rw [doubleShape_of_unpack hunpack, DoubleShape.finite.injEq] at hb
  obtain ⟨-, rfl⟩ := hb
  have hnear := nearest_of_isNear hcanonical ((holds_iff hm).mp h)
  rw [div_mul_cancel₀ _ (two_zpow_pos e).ne', ← hunpack, ← nearest_value hx hpos] at hnear
  rw [rounded, hnear]
  exact rounded_value hx hpos

/-! ### The search -/

lemma holds_of_decimalAt? {e : ℤ} (h : b.decimalAt? e = some d) : b.holds d = true := by
  rw [decimalAt?] at h
  generalize b.neighbours e = pair at h
  obtain ⟨lower, upper⟩ := pair
  cases hlower : b.holds lower <;> cases hupper : b.holds upper <;>
    simp only [hlower, hupper, Option.some.injEq, reduceCtorEq] at h
  · rwa [← h]
  · rwa [← h]
  · rw [← h]
    split_ifs
    · exact hlower
    · exact hupper

/-- The number of the size itself lies in its interval. -/
lemma holds_of_toRat_eq (hpos : 0 < b.mantissa) (h : d.toRat = b.toRat) : b.holds d = true := by
  have hunits : d.toRat / 2 ^ b.exponent = b.mantissa := by
    rw [h, toRat, mul_div_cancel_right₀ _ (two_zpow_pos _).ne']
  have hlo : b.lowerEnd < b.mantissa := by
    rw [lowerEnd]
    split_ifs <;> norm_num
  rw [holds_iff hpos, hunits, IsNear]
  split_ifs
  · exact ⟨hlo.le, by linarith⟩
  · exact ⟨hlo, by linarith⟩

/-- **The shortest decimal rounds to the size.** -/
theorem holds_shortest (hpos : 0 < b.mantissa) : b.holds b.shortest = true := by
  rw [shortest, if_neg hpos.ne']
  dsimp only
  split
  · rename_i d hfound
    obtain ⟨i, -, hi⟩ := List.exists_of_findSome?_eq_some hfound
    exact holds_of_decimalAt? hi
  · -- the exact value, should the search fail
    refine holds_of_toRat_eq hpos ?_
    rw [Decimal.toRat_eq, toRat]
    split_ifs with he
    · obtain ⟨k, hk⟩ := Int.eq_ofNat_of_zero_le he
      have hpower : twoTo k = 2 ^ k := rfl
      rw [hk, Int.toNat_natCast, hpower, zpow_zero, mul_one, zpow_natCast]
      push_cast
      rfl
    · obtain ⟨k, hk⟩ : ∃ k : ℕ, b.exponent = -(k : ℤ) := ⟨(-b.exponent).toNat, by omega⟩
      have hten : (10 : ℚ) ^ k = 5 ^ k * 2 ^ k := by rw [← mul_pow]; norm_num
      dsimp only
      rw [hk, neg_neg, Int.toNat_natCast, zpow_neg, zpow_neg, zpow_natCast, zpow_natCast, hten,
        Nat.pow_eq]
      push_cast
      field_simp

/-- A decimal that rounds to a positive size is positive. -/
lemma digits_pos_of_holds (hpos : 0 < b.mantissa) (h : b.holds d = true) : 0 < d.digits := by
  refine Nat.pos_of_ne_zero fun hzero => ?_
  obtain ⟨hlo, -⟩ := ((holds_iff hpos).mp h).bounds
  have hm : (1 : ℚ) ≤ b.mantissa := by exact_mod_cast hpos
  rw [Decimal.toRat_eq, hzero, Nat.cast_zero, zero_mul, zero_div, lowerEnd] at hlo
  split_ifs at hlo <;> linarith

/-- **The shortest decimal of a double is read as the double.** -/
theorem rounded_shortest {x : Float} (hx : IsNumber x) (hpos : 0 < value x) :
    ∃ b, doubleShape x = .finite false b ∧ 0 < b.mantissa ∧ 0 < b.shortest.digits ∧
      rounded b.shortest.toRat = x := by
  obtain ⟨m, e, hm, hunpack⟩ := exists_unpack_of_pos hx hpos
  have hb := doubleShape_of_unpack hunpack
  have hholds := holds_shortest (b := ⟨m, e⟩) hm
  exact ⟨_, hb, hm, digits_pos_of_holds hm hholds, rounded_of_holds hx hpos hb hholds⟩

end Binary

end Seamark
