import Mathlib
import Seamark.Scalar

/-!
# Rational numbers as scalars

The operations of scalars, where the numbers are rational, in the words of the library.
-/

namespace Seamark

lemma lesser_rat (x y : ℚ) : lesser x y = min x y := by
  rcases lt_or_ge y x with h | h
  · rw [lesser, if_pos h, min_eq_right h.le]
  · rw [lesser, if_neg (not_lt.mpr h), min_eq_left h]

lemma greater_rat (x y : ℚ) : greater x y = max x y := by
  rcases lt_or_ge x y with h | h
  · rw [greater, if_pos h, max_eq_right h.le]
  · rw [greater, if_neg (not_lt.mpr h), max_eq_left h]

/-- The integer part of a number that is not negative is the greatest integer below it. -/
lemma truncate_rat {x : ℚ} (h : 0 ≤ x) : Scalar.truncate x = .ok ⌊x⌋ := by
  have htruncate : Scalar.truncate x = .ok (x.num.tdiv x.den) := rfl
  rw [htruncate, Int.tdiv_eq_ediv_of_nonneg (Rat.num_nonneg.mpr h), Rat.floor_def']

lemma modulo_one_rat (x : ℚ) : Scalar.modulo x (1.0 : ℚ) = Int.fract x := by
  have hmodulo : Scalar.modulo x (1.0 : ℚ) = x - 1.0 * ⌊x / 1.0⌋ := rfl
  have hone : (1.0 : ℚ) = 1 := by norm_num
  rw [hmodulo, hone, div_one, one_mul, Int.fract]

/-- An integer is rounded to itself. -/
lemma round_intCast (n : ℤ) : Scalar.round (n : ℚ) = .ok n := by
  have hround : Scalar.round (n : ℚ) = .ok (ratRound n) := rfl
  have hfloor : (n : ℚ).floor = n := Rat.floor_intCast n
  simp [hround, ratRound, hfloor]

end Seamark
