import Mathlib
import Seamark.Proofs.Double.Parts

/-!
# The nearest double

A product or a quotient of doubles is the double nearest to the exact result, and of two that are as
near the one with the even mantissa.  For positive numbers this double is given here as a function
of the exact result (`nearest`): the number is counted in units of its last of 53 digits, or in the
least unit there is, and the count is rounded to an integer (`halfEven`).  Two ways to compute a
double from numbers that are equal therefore agree, with no bound on an error (`mul_eq_rounded`,
`div_eq_rounded`).  The nearest double is infinite exactly from halfway past the largest one on
(`isNumber_rounded_iff`), and it grows with the number (`value_rounded_mono`).
-/

namespace Seamark.Double

open Float.Model Float.Model.UnpackedFloat

/-! ### The nearest integer -/

/-- The integer nearest to a number that is not negative, and of two the even one. -/
def halfEven (t : ℚ) : ℕ :=
  if t - ⌊t⌋₊ < 1 / 2 ∨ t - ⌊t⌋₊ = 1 / 2 ∧ Even ⌊t⌋₊ then ⌊t⌋₊ else ⌊t⌋₊ + 1

lemma floor_le_halfEven (t : ℚ) : ⌊t⌋₊ ≤ halfEven t := by
  rw [halfEven]
  split_ifs <;> omega

lemma halfEven_le_floor (t : ℚ) : halfEven t ≤ ⌊t⌋₊ + 1 := by
  rw [halfEven]
  split_ifs <;> omega

/-- An integer that is near enough is the nearest one. -/
lemma halfEven_eq {t : ℚ} {n : ℕ} (ht : 0 ≤ t)
    (h : |t - n| < 1 / 2 ∨ |t - n| = 1 / 2 ∧ Even n) : halfEven t = n := by
  have hnear : |t - n| ≤ 1 / 2 := h.elim le_of_lt fun h => h.1.le
  obtain ⟨hlo, hhi⟩ := abs_le.mp hnear
  rcases le_or_gt (n : ℚ) t with hle | hlt
  · have hfloor : ⌊t⌋₊ = n := (Nat.floor_eq_iff ht).mpr ⟨hle, by linarith⟩
    rw [abs_of_nonneg (sub_nonneg.mpr hle)] at h
    rw [halfEven, hfloor, if_pos h]
  · -- the integer is the one above
    obtain ⟨k, rfl⟩ : ∃ k, n = k + 1 := Nat.exists_eq_succ_of_ne_zero fun hzero => by
      rw [hzero, Nat.cast_zero] at hlt
      linarith
    push_cast at h hlo hlt
    have hfloor : ⌊t⌋₊ = k := (Nat.floor_eq_iff ht).mpr ⟨by linarith, hlt⟩
    rw [abs_of_neg (sub_neg.mpr hlt)] at h
    rw [halfEven, hfloor, if_neg]
    rintro (hbelow | ⟨htie, heven⟩)
    · linarith
    · rcases h with h | ⟨-, hodd⟩
      · linarith
      · exact (Nat.even_add_one.mp hodd) heven

lemma halfEven_natCast (n : ℕ) : halfEven n = n :=
  halfEven_eq (Nat.cast_nonneg n) (Or.inl (by rw [sub_self, abs_zero]; norm_num))

lemma halfEven_mono {t t' : ℚ} (h : t ≤ t') : halfEven t ≤ halfEven t' := by
  rcases (Nat.floor_mono h).lt_or_eq with hlt | heq
  · exact ((halfEven_le_floor t).trans hlt).trans (floor_le_halfEven t')
  · -- of two numbers with the same floor, the larger is rounded up if the smaller is
    rw [halfEven, halfEven, heq]
    split_ifs with hdown hup hdown'
    · exact le_rfl
    · exact Nat.le_succ _
    · exfalso
      apply hdown
      rcases hdown' with hbelow | ⟨htie, heven⟩
      · exact Or.inl (by linarith)
      · rcases (show t - ⌊t'⌋₊ ≤ 1 / 2 by linarith).lt_or_eq with hbelow | htie'
        · exact Or.inl hbelow
        · exact Or.inr ⟨htie', heven⟩
    · exact le_rfl

/-- A number is rounded to zero up to a half. -/
lemma halfEven_pos_iff {t : ℚ} (ht : 0 ≤ t) : 0 < halfEven t ↔ 1 / 2 < t := by
  constructor
  · intro hpos
    by_contra hle
    have hzero : halfEven t = 0 := by
      refine halfEven_eq ht ?_
      rw [Nat.cast_zero, sub_zero, abs_of_nonneg ht]
      exact (not_lt.mp hle).lt_or_eq.imp_right fun htie => ⟨htie, Even.zero⟩
    omega
  · intro hlt
    refine Nat.pos_of_ne_zero fun hzero => ?_
    rw [halfEven] at hzero
    split_ifs at hzero with hdown
    rw [hzero, Nat.cast_zero, sub_zero] at hdown
    rcases hdown with hbelow | ⟨htie, -⟩ <;> linarith

lemma le_halfEven {t : ℚ} {n : ℕ} (h : (n : ℚ) ≤ t) : n ≤ halfEven t :=
  (halfEven_natCast n).symm.trans_le (halfEven_mono h)

lemma halfEven_le {t : ℚ} {n : ℕ} (h : t ≤ n) : halfEven t ≤ n :=
  (halfEven_mono h).trans_eq (halfEven_natCast n)

/-! ### Mantissas that tell what is left out -/

/-- A mantissa with residual bits tells a number: besides the number without the fraction it says
whether the fraction is nothing, less than a half, a half, or more. -/
structure Tells (em : ExtendedMantissa) (t : ℚ) : Prop extends Holds em t where
  /-- The first bit is set from a half on. -/
  round : em.roundBit = true ↔ 1 / 2 ≤ t - em.mantissa
  /-- The second bit is set if there is more than nothing, or than a half. -/
  sticky : em.stickyBit = true ↔ t - em.mantissa ≠ 0 ∧ t - em.mantissa ≠ 1 / 2

namespace Tells

variable {em : ExtendedMantissa} {t : ℚ}

lemma shiftRightOne (h : Tells em t) : Tells em.shiftRightOne (t / 2) := by
  refine ⟨h.toHolds.shiftRightOne, ?_, ?_⟩
  all_goals
    have hdigits : (em.mantissa : ℚ) = 2 * (em.mantissa / 2 : ℕ) + (em.mantissa % 2 : ℕ) := by
      exact_mod_cast (Nat.div_add_mod em.mantissa 2).symm
    have hlo : 0 ≤ t - em.mantissa := sub_nonneg.mpr h.le
    have hhi : t - em.mantissa < 1 := by linarith [h.lt]
    have hrest : t / 2 - (em.mantissa / 2 : ℕ) =
        (t - em.mantissa) / 2 + (em.mantissa % 2 : ℕ) / 2 := by linarith
    have hmantissa : em.shiftRightOne.mantissa = em.mantissa / 2 := rfl
    rw [hmantissa, hrest]
  · -- a half is left out if the last digit is
    have hbit : em.shiftRightOne.roundBit = (em.mantissa % 2 != 0) := rfl
    rw [hbit, bne_iff_ne]
    rcases Nat.mod_two_eq_zero_or_one em.mantissa with hzero | hone
    · rw [hzero, Nat.cast_zero]
      exact iff_of_false (fun h => h rfl) (by linarith)
    · rw [hone, Nat.cast_one]
      exact iff_of_true one_ne_zero (by linarith)
  · -- anything else is left out if anything was before
    have hbit : em.shiftRightOne.stickyBit = (em.roundBit || em.stickyBit) := rfl
    have hany : (em.roundBit || em.stickyBit) = true ↔ t - em.mantissa ≠ 0 := by
      rw [Bool.or_eq_true, h.round, h.sticky]
      constructor
      · rintro (hhalf | hmore)
        · linarith
        · exact hmore.1
      · intro hne
        by_cases hhalf : t - em.mantissa = 1 / 2
        · exact Or.inl hhalf.ge
        · exact Or.inr ⟨hne, hhalf⟩
    rw [hbit, hany]
    rcases Nat.mod_two_eq_zero_or_one em.mantissa with hzero | hone
    · rw [hzero, Nat.cast_zero]
      exact ⟨fun hne => ⟨fun h => hne (by linarith), by linarith⟩,
        fun h hnone => h.1 (by rw [hnone]; norm_num)⟩
    · rw [hone, Nat.cast_one]
      exact ⟨fun hne => ⟨by linarith, fun h => hne (by linarith)⟩,
        fun h hnone => h.2 (by rw [hnone]; norm_num)⟩

lemma shift (h : Tells em t) (k : ℕ) : Tells (em >>> k) (t / 2 ^ k) := by
  induction k with
  | zero =>
    have hnone : em >>> 0 = em := rfl
    rwa [hnone, pow_zero, div_one]
  | succ k ih =>
    have hstep : em >>> (k + 1) = (em >>> k).shiftRightOne := rfl
    rw [hstep, pow_succ, ← div_div]
    exact ih.shiftRightOne

/-- With what is told the mantissa is rounded to the nearest integer. -/
lemma roundedMantissa_eq (h : Tells em t) : em.roundedMantissa = halfEven t := by
  obtain ⟨⟨hle, hlt, -⟩, hround, hsticky⟩ := h
  obtain ⟨m, round, sticky⟩ := em
  dsimp only at hle hlt hround hsticky
  have hfloor : ⌊t⌋₊ = m := (Nat.floor_eq_iff ((Nat.cast_nonneg m).trans hle)).mpr ⟨hle, hlt⟩
  rw [halfEven, hfloor]
  cases round with
  | false =>
    have hbelow : t - m < 1 / 2 := not_le.mp (mt hround.mpr Bool.false_ne_true)
    rw [if_pos (Or.inl hbelow)]
    cases sticky <;> rfl
  | true =>
    have hhalf : 1 / 2 ≤ t - m := hround.mp rfl
    cases sticky with
    | false =>
      have htie : t - m = 1 / 2 := by
        by_contra hne
        exact Bool.false_ne_true (hsticky.mpr ⟨by linarith, hne⟩)
      have hrounded : ExtendedMantissa.roundedMantissa ⟨m, true, false⟩ = m + m % 2 := rfl
      rw [hrounded]
      by_cases heven : Even m
      · rw [if_pos (Or.inr ⟨htie, heven⟩), Nat.even_iff.mp heven, add_zero]
      · rw [if_neg (not_or.mpr ⟨not_lt.mpr hhalf, fun h => heven h.2⟩),
          Nat.not_even_iff.mp heven]
    | true =>
      have hmore := (hsticky.mp rfl).2
      rw [if_neg (not_or.mpr ⟨not_lt.mpr hhalf, fun h => hmore h.1⟩)]
      rfl

end Tells

lemma tells_exact (m : ℕ) : Tells (.ofMantissaAndAccuracy m .exact) m := by
  refine ⟨holds_exact m, ?_, ?_⟩ <;> simp [ExtendedMantissa.ofMantissaAndAccuracy]

/-- A quotient with what is known of the remainder. -/
lemma tells_div (m : ℕ) {n : ℕ} (hn : 0 < n) :
    Tells (.ofMantissaAndAccuracy (m / n) (accuracyOfFraction (m % n) n)) (m / n : ℚ) := by
  have hn' : (0 : ℚ) < n := by exact_mod_cast hn
  have hrest : (m / n : ℚ) - (m / n : ℕ) = (m % n : ℕ) / n := by
    have hdigits : (m : ℚ) = n * (m / n : ℕ) + (m % n : ℕ) := by
      exact_mod_cast (Nat.div_add_mod m n).symm
    rw [hdigits]
    field_simp
    ring
  have hzero : ((m % n : ℕ) / n : ℚ) = 0 ↔ m % n = 0 := by
    rw [div_eq_zero_iff, or_iff_left hn'.ne', Nat.cast_eq_zero]
  have hle : 1 / 2 ≤ ((m % n : ℕ) / n : ℚ) ↔ n ≤ 2 * (m % n) := by
    rw [div_le_div_iff₀ two_pos hn', one_mul, mul_comm]
    exact_mod_cast Iff.rfl
  have heq : ((m % n : ℕ) / n : ℚ) = 1 / 2 ↔ 2 * (m % n) = n := by
    rw [div_eq_div_iff hn'.ne' two_ne_zero, one_mul, mul_comm]
    exact_mod_cast Iff.rfl
  refine ⟨holds_div m hn, ?_, ?_⟩
  all_goals
    rw [mantissa_ofMantissaAndAccuracy, hrest]
    simp only [ne_eq, hzero, hle, heq, accuracyOfFraction]
    split_ifs with hnone
  · rw [hnone]
    exact iff_of_false Bool.false_ne_true (by omega)
  · rcases lt_trichotomy (2 * (m % n)) n with h | h | h
    · rw [Nat.compare_eq_lt.mpr h]
      exact iff_of_false Bool.false_ne_true (by omega)
    · rw [Nat.compare_eq_eq.mpr h]
      exact iff_of_true rfl h.ge
    · rw [Nat.compare_eq_gt.mpr h]
      exact iff_of_true rfl h.le
  · exact iff_of_false Bool.false_ne_true fun h => h.1 hnone
  · rcases lt_trichotomy (2 * (m % n)) n with h | h | h
    · rw [Nat.compare_eq_lt.mpr h]
      exact iff_of_true rfl ⟨hnone, h.ne⟩
    · rw [Nat.compare_eq_eq.mpr h]
      exact iff_of_false Bool.false_ne_true fun hmore => hmore.2 h
    · rw [Nat.compare_eq_gt.mpr h]
      exact iff_of_true rfl ⟨hnone, h.ne'⟩

/-! ### The unit of the last digit -/

/-- A positive number, counted in a unit that leaves it 53 digits before the point, or fewer if the
unit is the least there is. -/
structure IsCounted (t : ℚ) (unit : ℤ) : Prop where
  /-- The count is positive. -/
  pos : 0 < t
  /-- The unit is one that doubles have. -/
  least : -1074 ≤ unit
  /-- There are no more than 53 digits. -/
  lt : t < 2 ^ 53
  /-- There are no fewer, unless the unit is the least one. -/
  full : 2 ^ 52 ≤ t ∨ unit = -1074

/-- The unit of the last of 53 digits of a positive number, or the least unit. -/
def lastUnit (q : ℚ) : ℤ := max (Int.log 2 q - 52) (-1074)

/-- There is one unit to count a number in. -/
lemma IsCounted.lastUnit_eq {t : ℚ} {unit : ℤ} (h : IsCounted t unit) :
    lastUnit (t * 2 ^ unit) = unit := by
  have hpos : 0 < t * 2 ^ unit := mul_pos h.pos (two_zpow_pos unit)
  have hlt : t * 2 ^ unit < ((2 : ℕ) : ℚ) ^ (53 + unit : ℤ) := by
    rw [Nat.cast_ofNat, zpow_add₀ two_ne_zero]
    exact mul_lt_mul_of_pos_right h.lt (two_zpow_pos unit)
  have hlog := (Int.lt_zpow_iff_log_lt Nat.one_lt_two hpos).mp hlt
  rw [lastUnit]
  rcases h.full with hfull | rfl
  · have hle : ((2 : ℕ) : ℚ) ^ (52 + unit : ℤ) ≤ t * 2 ^ unit := by
      rw [Nat.cast_ofNat, zpow_add₀ two_ne_zero]
      exact mul_le_mul_of_nonneg_right hfull (two_zpow_pos unit).le
    have hlog' := (Int.zpow_le_iff_le_log Nat.one_lt_two hpos).mp hle
    have := h.least
    omega
  · omega

/-- Every positive number can be counted so. -/
lemma exists_isCounted {q : ℚ} (hq : 0 < q) :
    ∃ t, IsCounted t (lastUnit q) ∧ q = t * 2 ^ lastUnit q := by
  have hunit := two_zpow_pos (lastUnit q)
  refine ⟨q / 2 ^ lastUnit q, ⟨div_pos hq hunit, le_max_right _ _, ?_, ?_⟩,
    (div_mul_cancel₀ q hunit.ne').symm⟩
  · have hlog := Int.lt_zpow_succ_log_self Nat.one_lt_two q
    rw [div_lt_iff₀ hunit]
    calc q < (2 : ℚ) ^ (Int.log 2 q + 1) := by exact_mod_cast hlog
      _ ≤ 2 ^ (53 + lastUnit q) := zpow_le_zpow_right₀ one_le_two (by rw [lastUnit]; omega)
      _ = 2 ^ 53 * 2 ^ lastUnit q := by rw [zpow_add₀ two_ne_zero]; norm_cast
  · rcases le_or_gt (-1074) (Int.log 2 q - 52) with hle | hgt
    · have hunit' : lastUnit q = Int.log 2 q - 52 := max_eq_left hle
      have hlog := Int.zpow_log_le_self Nat.one_lt_two hq
      left
      rw [le_div_iff₀ hunit, hunit']
      calc (2 ^ 52 * 2 ^ (Int.log 2 q - 52) : ℚ) = 2 ^ Int.log 2 q := by
            rw [← zpow_natCast, ← zpow_add₀ two_ne_zero]
            congr 1
            omega
        _ ≤ q := by exact_mod_cast hlog
    · exact Or.inr (max_eq_right hgt.le)

/-! ### The nearest unpacked double -/

/-- A whole number of units as an unpacked double; `2 ^ 53` of them are counted in the next unit. -/
def ofUnits (n : ℕ) (unit : ℤ) : UnpackedFloat :=
  if h : n = 0 then .zero .positive
  else if n = 2 ^ 53 then .finite .positive (2 ^ 52) (unit + 1) (by norm_num)
  else .finite .positive n unit (Nat.pos_of_ne_zero h)

/-- The unpacked double that is nearest to a positive number. -/
def nearest (q : ℚ) : UnpackedFloat := ofUnits (halfEven (q / 2 ^ lastUnit q)) (lastUnit q)

lemma IsCounted.nearest_eq {t : ℚ} {unit : ℤ} (h : IsCounted t unit) :
    nearest (t * 2 ^ unit) = ofUnits (halfEven t) unit := by
  rw [nearest, h.lastUnit_eq, mul_div_cancel_right₀ t (two_zpow_pos unit).ne']

lemma IsCounted.halfEven_le {t : ℚ} {unit : ℤ} (h : IsCounted t unit) : halfEven t ≤ 2 ^ 53 :=
  Double.halfEven_le (by exact_mod_cast h.lt.le)

lemma exact_ofUnits (n : ℕ) (unit : ℤ) : exact (ofUnits n unit) = n * 2 ^ unit := by
  rw [ofUnits]
  split_ifs with hzero htop
  · rw [hzero, Nat.cast_zero, zero_mul]
    rfl
  · rw [htop, exact, signed, zpow_add_one₀ two_ne_zero]
    push_cast
    ring
  · rfl

/-- **Rounding gives the nearest double.** -/
lemma roundWithAccuracy_eq_nearest {m : ℕ} {e : ℤ} {acc : Accuracy} {t : ℚ}
    (ht : Tells (.ofMantissaAndAccuracy m acc) t) (hpos : 0 < t)
    (he : e ≤ Format.binary64.targetExponent (totalExponent m e)) :
    roundWithAccuracy Format.binary64 .positive m e acc = nearest (t * 2 ^ e) := by
  obtain ⟨k, hk⟩ : ∃ k : ℕ, e + k = Format.binary64.targetExponent (totalExponent m e) :=
    ⟨_, by rw [Int.toNat_of_nonneg (sub_nonneg.mpr he)]; ring⟩
  have htarget := targetExponent_eq m e
  have hshifted := ht.shift k
  have hle := hshifted.le
  have hlt := hshifted.lt
  rw [mantissa_shift, mantissa_ofMantissaAndAccuracy] at hle hlt
  have hcounted : IsCounted (t / 2 ^ k) (e + k) := by
    refine ⟨by positivity, by omega, ?_, (full_or_least hk).imp_left fun hfull => ?_⟩
    · have hdigits : m / 2 ^ k < 2 ^ 53 := div_two_pow_lt (by omega)
      exact hlt.trans_le (by exact_mod_cast Nat.succ_le_of_lt hdigits)
    · exact le_trans (by exact_mod_cast hfull) hle
  have hvalue : t * 2 ^ e = t / 2 ^ k * 2 ^ (e + k : ℤ) := by
    rw [zpow_add₀ two_ne_zero, zpow_natCast]
    field_simp
  have hshift : (Format.binary64.targetExponent (totalExponent m e) - e).toNat = k := by omega
  rw [hvalue, hcounted.nearest_eq, ofUnits]
  rcases roundWithAccuracy_eq .positive acc hshift hcounted.least hshifted.roundedMantissa_eq
    hcounted.halfEven_le with ⟨hn, heq⟩ | ⟨hn, hn', heq⟩ | ⟨hn, heq⟩
  · rw [heq, dif_pos hn]
  · rw [heq, dif_neg hn.ne', if_neg hn'.ne]
  · rw [heq, dif_neg (by rw [hn]; norm_num), if_pos hn]

lemma mul_eq_nearest {m m' : ℕ} {e e' : ℤ} {hm : 0 < m} {hm' : 0 < m'}
    (h : e + e' ≤ Format.binary64.targetExponent (totalExponent (m * m') (e + e'))) :
    UnpackedFloat.mul Format.binary64 (.finite .positive m e hm) (.finite .positive m' e' hm') =
      nearest (m * 2 ^ e * (m' * 2 ^ e')) := by
  have hproduct : (m * 2 ^ e * (m' * 2 ^ e') : ℚ) = (m * m' : ℕ) * 2 ^ (e + e') := by
    rw [zpow_add₀ two_ne_zero]
    push_cast
    ring
  rw [hproduct]
  exact roundWithAccuracy_eq_nearest (tells_exact _) (by exact_mod_cast Nat.mul_pos hm hm') h

lemma div_eq_nearest {m m' : ℕ} (e e' : ℤ) (hm : 0 < m) (hm' : 0 < m') :
    UnpackedFloat.div Format.binary64 (.finite .positive m e hm) (.finite .positive m' e' hm') =
      nearest (m * 2 ^ e / (m' * 2 ^ e')) := by
  obtain ⟨unit, hunit⟩ : ∃ unit, min (e - e') (Format.binary64.targetExponent
      (totalExponent m e - totalExponent m' e')) = unit := ⟨_, rfl⟩
  obtain ⟨k, hk⟩ : ∃ k, (e - e' - unit).toNat = k := ⟨_, rfl⟩
  obtain ⟨hexp, htarget⟩ := quotient_unit hm hm' hunit hk
  have hpos : (0 : ℚ) < (m <<< k : ℕ) / m' := by
    rw [Nat.shiftLeft_eq]
    positivity
  rw [quotient_in_unit m m' hexp]
  simp only [UnpackedFloat.div, divCore, hunit, hk]
  exact roundWithAccuracy_eq_nearest (tells_div _ hm') hpos htarget

/-! ### The nearest double -/

/-- The double that is nearest to a number that is not negative, infinite if the number is too
large. -/
def rounded (q : ℚ) : Float := ⟨Float.Model.pack (nearest q)⟩

/-- The number halfway from the largest double to the next power of two. -/
def overflow : ℚ := 2 ^ 1024 - 2 ^ 970

lemma overflow_eq : overflow = (2 ^ 53 - 1 / 2) * 2 ^ (971 : ℤ) := by
  have hpower : (2 : ℚ) ^ 1024 = 2 ^ 53 * 2 ^ 971 := by rw [← pow_add]
  have hhalf : (2 : ℚ) ^ 971 = 2 * 2 ^ 970 := pow_succ' 2 970
  have hunit : (2 : ℚ) ^ (971 : ℤ) = 2 ^ 971 := zpow_ofNat 2 971
  rw [overflow, hunit, hpower, hhalf]
  generalize (2 : ℚ) ^ 970 = p
  ring

lemma natCast_lt_overflow {n : ℕ} (hn : n < 2 ^ 53) : (n : ℚ) < overflow := by
  have hn' : (n : ℚ) + 1 ≤ 2 ^ 53 := by exact_mod_cast hn
  rw [overflow_eq]
  calc (n : ℚ) < 2 ^ 53 - 1 / 2 := by linarith
    _ ≤ (2 ^ 53 - 1 / 2) * 2 ^ (971 : ℤ) :=
      le_mul_of_one_le_right (by norm_num) (one_le_zpow₀ one_le_two (by norm_num))

section

variable {t : ℚ} {unit : ℤ}

/-- The numbers in a unit below that of the largest doubles are below the halfway point. -/
lemma IsCounted.lt_overflow (h : IsCounted t unit) (hunit : unit < 971) :
    t * 2 ^ unit < overflow := by
  have hlt := mul_lt_mul_of_pos_right h.lt (two_zpow_pos unit)
  have hle : (2 : ℚ) ^ unit ≤ 2 ^ (970 : ℤ) := zpow_le_zpow_right₀ one_le_two (by omega)
  have hdouble : (2 : ℚ) ^ (971 : ℤ) = 2 ^ (970 : ℤ) * 2 := zpow_add_one₀ two_ne_zero 970
  have hpos := two_zpow_pos 970
  rw [overflow_eq, hdouble]
  generalize (2 : ℚ) ^ (970 : ℤ) = p at hle hpos
  generalize (2 : ℚ) ^ unit = w at hlt hle
  linarith

/-- The numbers in a unit above that of the largest doubles are above the halfway point. -/
lemma IsCounted.overflow_le (h : IsCounted t unit) (hunit : 971 < unit) :
    overflow ≤ t * 2 ^ unit := by
  have hfull := mul_le_mul_of_nonneg_right (h.full.resolve_right (by omega)) (two_zpow_pos unit).le
  have hle : (2 : ℚ) ^ (972 : ℤ) ≤ 2 ^ unit := zpow_le_zpow_right₀ one_le_two (by omega)
  have hdouble : (2 : ℚ) ^ (972 : ℤ) = 2 ^ (971 : ℤ) * 2 := zpow_add_one₀ two_ne_zero 971
  have hpos := two_zpow_pos 971
  rw [hdouble] at hle
  rw [overflow_eq]
  generalize (2 : ℚ) ^ (971 : ℤ) = p at hle hpos
  generalize (2 : ℚ) ^ unit = w at hfull hle
  linarith

/-- The largest unit is passed by what is rounded up to the next power of two. -/
lemma IsCounted.halfEven_eq_top_iff (h : IsCounted t unit) :
    halfEven t = 2 ^ 53 ↔ 2 ^ 53 - 1 / 2 ≤ t := by
  have hlt := h.lt
  constructor
  · intro htop
    by_contra hbelow
    have hfloor : ⌊t⌋₊ < 2 ^ 53 := (Nat.floor_lt h.pos.le).mpr (by exact_mod_cast hlt)
    have hnear : ⌊t⌋₊ = 2 ^ 53 - 1 := by have := halfEven_le_floor t; omega
    have hcast : (⌊t⌋₊ : ℚ) = 2 ^ 53 - 1 := by rw [hnear]; norm_num
    rw [halfEven, if_pos (Or.inl (by linarith))] at htop
    omega
  · intro hle
    have hnear : |t - (2 ^ 53 : ℕ)| ≤ 1 / 2 := by
      push_cast
      exact abs_le.mpr ⟨by linarith, by linarith⟩
    exact halfEven_eq h.pos.le
      (hnear.lt_or_eq.imp_right fun htie => ⟨htie, (Nat.even_pow' (by norm_num)).mpr even_two⟩)

lemma IsCounted.full_halfEven (h : IsCounted t unit) : 2 ^ 52 ≤ halfEven t ∨ unit = -1074 :=
  h.full.imp_left fun hfull => le_halfEven (by exact_mod_cast hfull)

end

lemma isCanonical_ofUnits {n : ℕ} {unit : ℤ} (hn : n ≤ 2 ^ 53) (hleast : -1074 ≤ unit)
    (hfull : 2 ^ 52 ≤ n ∨ unit = -1074) (hunit : unit ≤ 971) (htop : n = 2 ^ 53 → unit < 971) :
    (ofUnits n unit).isFinite = true ∧ IsCanonical (ofUnits n unit) := by
  rw [ofUnits]
  split_ifs with hzero heq
  · exact ⟨rfl, trivial⟩
  · exact ⟨rfl, by norm_num, by omega, by have := htop heq; omega, Or.inl le_rfl⟩
  · exact ⟨rfl, by omega, hleast, hunit, hfull⟩

lemma exists_ofUnits_eq {n : ℕ} {unit : ℤ} (hn : 0 < n) (hunit : 971 ≤ unit)
    (htop : unit = 971 → n = 2 ^ 53) :
    ∃ m e, ∃ hm : 0 < m, ofUnits n unit = .finite .positive m e hm ∧ 972 ≤ e := by
  rw [ofUnits, dif_neg hn.ne']
  split_ifs with heq
  · exact ⟨2 ^ 52, unit + 1, by norm_num, rfl, by omega⟩
  · exact ⟨n, unit, hn, rfl, by omega⟩

/-- Below the halfway point the nearest double is a number, from there on it is infinite. -/
lemma nearest_cases {q : ℚ} (hq : 0 < q) :
    q < overflow ∧ (nearest q).isFinite = true ∧ IsCanonical (nearest q) ∨
      overflow ≤ q ∧ ∃ m e, ∃ hm : 0 < m, nearest q = .finite .positive m e hm ∧ 972 ≤ e := by
  obtain ⟨t, h, hvalue⟩ := exists_isCounted hq
  generalize lastUnit q = unit at h hvalue
  rw [hvalue, h.nearest_eq]
  have hfinite := isCanonical_ofUnits h.halfEven_le h.least h.full_halfEven
  rcases lt_trichotomy unit 971 with hlt | rfl | hgt
  · exact Or.inl ⟨h.lt_overflow hlt, hfinite hlt.le fun _ => hlt⟩
  · rw [overflow_eq, mul_lt_mul_iff_of_pos_right (two_zpow_pos 971),
      mul_le_mul_iff_of_pos_right (two_zpow_pos 971), ← h.halfEven_eq_top_iff, ← not_le,
      ← h.halfEven_eq_top_iff]
    by_cases htop : halfEven t = 2 ^ 53
    · exact Or.inr ⟨htop, exists_ofUnits_eq (by omega) le_rfl fun _ => htop⟩
    · exact Or.inl ⟨htop, hfinite le_rfl fun heq => absurd heq htop⟩
  · have hfull := h.full_halfEven.resolve_right (by omega)
    exact Or.inr ⟨h.overflow_le hgt,
      exists_ofUnits_eq (by omega) hgt.le fun heq => absurd heq hgt.ne'⟩

/-- A double that is not infinite is a number, and the other way round. -/
lemma isNumber_rounded_iff {q : ℚ} (hq : 0 < q) : IsNumber (rounded q) ↔ q < overflow := by
  rcases nearest_cases hq with ⟨hlt, hfinite, hcanonical⟩ | ⟨hle, m, e, hm, heq, he⟩
  · refine iff_of_true ?_ hlt
    rw [IsNumber, rounded, unpack_pack hcanonical hfinite]
    exact hfinite
  · refine iff_of_false ?_ hle.not_gt
    rw [IsNumber, rounded, heq, unpack_pack_of_large .positive he]
    exact Bool.false_ne_true

lemma value_rounded {q : ℚ} (hq : 0 < q) (hlt : q < overflow) :
    value (rounded q) = exact (nearest q) := by
  rcases nearest_cases hq with ⟨-, hfinite, hcanonical⟩ | ⟨hle, -⟩
  · rw [value, rounded, unpack_pack hcanonical hfinite]
  · exact absurd hlt hle.not_gt

/-- The nearest double is one of the two around the number. -/
lemma rounds_rounded {q : ℚ} (hq : 0 < q) (hlt : q < overflow) : Rounds (rounded q) q := by
  refine ⟨(isNumber_rounded_iff hq).mpr hlt, ?_⟩
  obtain ⟨t, h, hvalue⟩ := exists_isCounted hq
  rw [value_rounded hq hlt]
  generalize lastUnit q = unit at h hvalue
  rw [hvalue, h.nearest_eq, exact_ofUnits]
  refine passesNone_in_unit h.full ?_ ?_
  · rw [← Int.natCast_floor_eq_floor h.pos.le]
    exact_mod_cast floor_le_halfEven t
  · have hceil := halfEven_le (Nat.le_ceil t)
    rw [← Int.natCast_ceil_eq_ceil h.pos.le]
    exact_mod_cast hceil

/-- A number is rounded to zero up to half of the least positive double. -/
lemma nearest_eq_zero_iff {q : ℚ} (hq : 0 < q) :
    nearest q = .zero .positive ↔ q ≤ 2 ^ (-1075 : ℤ) := by
  obtain ⟨t, h, hvalue⟩ := exists_isCounted hq
  generalize lastUnit q = unit at h hvalue
  have hzero : nearest q = .zero .positive ↔ halfEven t = 0 := by
    rw [hvalue, h.nearest_eq, ofUnits]
    split_ifs <;> simp_all
  have hhalf : halfEven t = 0 ↔ t ≤ 1 / 2 := by
    rw [← not_lt, ← halfEven_pos_iff h.pos.le, Nat.pos_iff_ne_zero, not_not]
  have hleast : (2 : ℚ) ^ (-1075 : ℤ) = 1 / 2 * 2 ^ (-1074 : ℤ) := by
    rw [show (-1075 : ℤ) = -1074 - 1 by norm_num, zpow_sub_one₀ two_ne_zero]
    ring
  rw [hzero, hhalf, hvalue, hleast]
  rcases h.full with hfull | rfl
  · -- a full count is far above a half, and so is the number
    have hunit : (2 : ℚ) ^ (-1074 : ℤ) ≤ 2 ^ unit := zpow_le_zpow_right₀ one_le_two h.least
    have hpos := two_zpow_pos (-1074)
    generalize (2 : ℚ) ^ (-1074 : ℤ) = w at hunit hpos
    have hlarge : w ≤ t * 2 ^ unit :=
      hunit.trans (le_mul_of_one_le_left (hpos.le.trans hunit) (by linarith))
    exact iff_of_false (by linarith) (by linarith)
  · exact (mul_le_mul_iff_of_pos_right (two_zpow_pos _)).symm

/-- The nearest double has a positive value if the number is above half of the least positive
double. -/
lemma value_rounded_pos_iff {q : ℚ} (hq : 0 < q) (hlt : q < overflow) :
    0 < value (rounded q) ↔ 2 ^ (-1075 : ℤ) < q := by
  rw [value_rounded hq hlt, ← not_le (a := q), ← nearest_eq_zero_iff hq]
  obtain ⟨t, h, hvalue⟩ := exists_isCounted hq
  generalize lastUnit q = unit at h hvalue
  rw [hvalue, h.nearest_eq, exact_ofUnits, ofUnits, mul_pos_iff_of_pos_right (two_zpow_pos unit),
    Nat.cast_pos, Nat.pos_iff_ne_zero]
  split_ifs <;> simp_all

lemma rounded_eq_zero {q : ℚ} (hq : 0 < q) (h : q ≤ 2 ^ (-1075 : ℤ)) : rounded q = 0.0 := by
  rw [rounded, (nearest_eq_zero_iff hq).mpr h]
  rfl

lemma rounded_zero : rounded 0 = 0.0 := by
  have hcount : halfEven (0 / 2 ^ lastUnit 0) = 0 := by
    rw [zero_div]
    exact_mod_cast halfEven_natCast 0
  rw [rounded, nearest, hcount]
  rfl

/-- The nearest double grows with the number. -/
lemma value_rounded_mono {p q : ℚ} (hp : 0 < p) (hpq : p ≤ q) (hq : q < overflow) :
    value (rounded p) ≤ value (rounded q) := by
  have hq' : 0 < q := hp.trans_le hpq
  rw [value_rounded hp (hpq.trans_lt hq), value_rounded hq' hq]
  obtain ⟨t, h, hvalue⟩ := exists_isCounted hp
  obtain ⟨t', h', hvalue'⟩ := exists_isCounted hq'
  have hunits : lastUnit p ≤ lastUnit q :=
    max_le_max_right _ (sub_le_sub_right (Int.log_mono_right hp hpq) _)
  generalize lastUnit p = unit at h hvalue hunits
  generalize lastUnit q = unit' at h' hvalue' hunits
  rw [hvalue, hvalue', h.nearest_eq, h'.nearest_eq, exact_ofUnits, exact_ofUnits]
  rcases hunits.lt_or_eq with hlt | rfl
  · -- the smaller number is rounded to the power of two between the two at most
    have hfull := h'.full_halfEven.resolve_right (by have := h.least; omega)
    have hle := h.halfEven_le
    calc (halfEven t * 2 ^ unit : ℚ) ≤ 2 ^ 53 * 2 ^ unit :=
          mul_le_mul_of_nonneg_right (by exact_mod_cast hle) (two_zpow_pos unit).le
      _ = 2 ^ 52 * 2 ^ (unit + 1) := by rw [zpow_add_one₀ two_ne_zero]; ring
      _ ≤ halfEven t' * 2 ^ unit' :=
          mul_le_mul (by exact_mod_cast hfull) (zpow_le_zpow_right₀ one_le_two hlt)
            (two_zpow_pos _).le (Nat.cast_nonneg _)
  · have hcounts : t ≤ t' :=
      le_of_mul_le_mul_right (hvalue ▸ hvalue' ▸ hpq) (two_zpow_pos unit)
    exact mul_le_mul_of_nonneg_right (by exact_mod_cast halfEven_mono hcounts)
      (two_zpow_pos unit).le

/-! ### Operations on positive doubles -/

lemma rounded_eq_infinite {q : ℚ} (h : overflow ≤ q) : rounded q = 1.0 / 0.0 := by
  have hq : 0 < q := lt_of_lt_of_le (by rw [overflow_eq]; positivity) h
  rcases nearest_cases hq with ⟨hlt, -⟩ | ⟨-, m, e, hm, heq, he⟩
  · exact absurd h hlt.not_ge
  · refine eq_of_unpack_eq ?_ ?_
    · rw [rounded, heq, unpack_pack_of_large .positive he]
      exact nofun
    · rw [rounded, heq, unpack_pack_of_large .positive he]
      rfl

/-- The nearest double is positive if the number is above half of the least positive double. -/
lemma zero_lt_rounded {q : ℚ} (h : 2 ^ (-1075 : ℤ) < q) : 0.0 < rounded q := by
  have hq : 0 < q := (two_zpow_pos _).trans h
  rcases lt_or_ge q overflow with hlt | hge
  · rw [lt_iff_value value_zero.1 ((isNumber_rounded_iff hq).mpr hlt), value_zero.2]
    exact (value_rounded_pos_iff hq hlt).mpr h
  · rw [rounded_eq_infinite hge]
    decide +kernel

section

variable {x y : Float}

lemma exists_unpack_of_pos (hx : IsNumber x) (h : 0 < value x) :
    ∃ m e, ∃ hm : 0 < m, x.toModel.unpack = .finite .positive m e hm := by
  rw [IsNumber] at hx
  rw [value] at h
  cases hunpack : x.toModel.unpack with
  | notANumber => rw [hunpack] at hx; cases hx
  | infinity s => rw [hunpack] at hx; cases hx
  | zero s => rw [hunpack] at h; exact absurd h (lt_irrefl 0)
  | finite s m e hm =>
    cases s with
    | positive => exact ⟨m, e, hm, rfl⟩
    | negative =>
      rw [hunpack] at h
      exact absurd h (exact_neg hm).not_gt

/-- No positive double is below the least unit. -/
lemma least_le_value (hx : IsNumber x) (h : 0 < value x) : 2 ^ (-1074 : ℤ) ≤ value x := by
  obtain ⟨m, e, hm, hunpack⟩ := exists_unpack_of_pos hx h
  have hcanonical := isCanonical_unpack x.toModel
  rw [hunpack] at hcanonical
  have hcast : (1 : ℚ) ≤ m := by exact_mod_cast hm
  rw [value, hunpack, exact, signed]
  calc (2 : ℚ) ^ (-1074 : ℤ) ≤ 2 ^ e := zpow_le_zpow_right₀ one_le_two hcanonical.2.1
    _ ≤ m * 2 ^ e := le_mul_of_one_le_left (two_zpow_pos e).le hcast

/-- A double is the nearest one to its number. -/
lemma nearest_value (hx : IsNumber x) (h : 0 < value x) :
    nearest (value x) = x.toModel.unpack := by
  obtain ⟨m, e, hm, hunpack⟩ := exists_unpack_of_pos hx h
  have hcanonical := isCanonical_unpack x.toModel
  rw [hunpack] at hcanonical
  obtain ⟨hlt, hlo, hhi, hfull⟩ := hcanonical
  have hcounted : IsCounted m e :=
    ⟨by exact_mod_cast hm, hlo, by exact_mod_cast hlt, hfull.imp_left fun h => by exact_mod_cast h⟩
  rw [value, hunpack, exact, signed, hcounted.nearest_eq, halfEven_natCast, ofUnits,
    dif_neg hm.ne', if_neg hlt.ne]

lemma rounded_value (hx : IsNumber x) (h : 0 < value x) : rounded (value x) = x := by
  have hpack : (rounded (value x)).toModel.unpack = x.toModel.unpack := by
    rw [rounded, nearest_value hx h]
    exact unpack_pack (isCanonical_unpack _) hx
  refine eq_of_unpack_eq ?_ hpack
  rw [hpack]
  exact ne_notANumber_of_isFinite hx

/-- Doubles that stand for the same positive number are the same. -/
lemma eq_of_value_eq (hx : IsNumber x) (hy : IsNumber y) (hpos : 0 < value x)
    (h : value x = value y) : x = y := by
  rw [← rounded_value hx hpos, h, rounded_value hy (h ▸ hpos)]

/-- **A product is the nearest double to the exact product.** -/
lemma mul_eq_rounded (hx : IsNumber x) (hy : IsNumber y) (hx' : 0 < value x) (hy' : 0 < value y) :
    x * y = rounded (value x * value y) := by
  obtain ⟨m, e, hm, hunpack⟩ := exists_unpack_of_pos hx hx'
  obtain ⟨m', e', hm', hunpack'⟩ := exists_unpack_of_pos hy hy'
  have hcanonical := isCanonical_unpack x.toModel
  have hcanonical' := isCanonical_unpack y.toModel
  rw [hunpack] at hcanonical
  rw [hunpack'] at hcanonical'
  have hmul : x * y = ⟨Float.Model.pack
      (UnpackedFloat.mul Format.binary64 x.toModel.unpack y.toModel.unpack)⟩ := rfl
  rw [hmul, rounded, value, value, hunpack, hunpack',
    mul_eq_nearest (product_unit hcanonical hcanonical')]
  rfl

/-- **A quotient is the nearest double to the exact quotient.** -/
lemma div_eq_rounded (hx : IsNumber x) (hy : IsNumber y) (hx' : 0 < value x) (hy' : 0 < value y) :
    x / y = rounded (value x / value y) := by
  obtain ⟨m, e, hm, hunpack⟩ := exists_unpack_of_pos hx hx'
  obtain ⟨m', e', hm', hunpack'⟩ := exists_unpack_of_pos hy hy'
  have hdiv : x / y = ⟨Float.Model.pack
      (UnpackedFloat.div Format.binary64 x.toModel.unpack y.toModel.unpack)⟩ := rfl
  rw [hdiv, rounded, value, value, hunpack, hunpack', div_eq_nearest e e' hm hm']
  rfl

end

end Seamark.Double
