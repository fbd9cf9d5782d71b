import Mathlib
import Seamark.Proofs.Double.Value

/-!
# Results of double arithmetic

The result of an operation on doubles is the exact result rounded to one of the two doubles around
it, so no representable number is passed on the way (`IsRounded`).  Bounds by such numbers,
small integers among them, therefore carry over from the exact result to the double, without any
error term.
-/

namespace Seamark.Double

open Float.Model Float.Model.UnpackedFloat

/-! ### Mantissas with residual bits -/

/-- A mantissa with residual bits holds a number: it is the number without the fraction, and the
bits are clear if there is no fraction. -/
structure Holds (em : ExtendedMantissa) (t : ℚ) : Prop where
  /-- The mantissa is not above the number. -/
  le : (em.mantissa : ℚ) ≤ t
  /-- What is left out is a fraction. -/
  lt : t < em.mantissa + 1
  /-- Without a fraction both bits are clear. -/
  clear : t = em.mantissa → em.roundBit = false ∧ em.stickyBit = false

namespace Holds

variable {em : ExtendedMantissa} {t : ℚ}

lemma shiftRightOne (h : Holds em t) : Holds em.shiftRightOne (t / 2) := by
  obtain ⟨hle, hlt, hclear⟩ := h
  have hmantissa : em.shiftRightOne.mantissa = em.mantissa / 2 := rfl
  have hlo : 2 * (em.mantissa / 2) ≤ em.mantissa := Nat.mul_div_le _ 2
  have hhi : em.mantissa + 1 ≤ 2 * (em.mantissa / 2) + 2 := by omega
  have hlo' : (2 * (em.mantissa / 2 : ℕ) : ℚ) ≤ em.mantissa := by exact_mod_cast hlo
  have hhi' : (em.mantissa + 1 : ℚ) ≤ 2 * (em.mantissa / 2 : ℕ) + 2 := by exact_mod_cast hhi
  refine ⟨?_, ?_, fun heq => ?_⟩
  · rw [hmantissa]
    linarith
  · rw [hmantissa]
    linarith
  · -- the number is even, so the mantissa is, and nothing was left out
    rw [hmantissa] at heq
    have htwice : (em.mantissa : ℚ) = (2 * (em.mantissa / 2) : ℕ) := by
      push_cast
      linarith
    have heven : em.mantissa = 2 * (em.mantissa / 2) := by exact_mod_cast htwice
    obtain ⟨hround, hsticky⟩ := hclear (by push_cast at htwice; linarith)
    have hrest : em.mantissa % 2 = 0 := by omega
    simp [ExtendedMantissa.shiftRightOne, hround, hsticky, hrest]

lemma shift (h : Holds em t) (k : ℕ) : Holds (em >>> k) (t / 2 ^ k) := by
  induction k with
  | zero =>
    have hnone : em >>> 0 = em := rfl
    rwa [hnone, pow_zero, div_one]
  | succ k ih =>
    have hstep : em >>> (k + 1) = (em >>> k).shiftRightOne := rfl
    rw [hstep, pow_succ, ← div_div]
    exact ih.shiftRightOne

lemma floor_eq (h : Holds em t) : ⌊t⌋ = em.mantissa := by
  rw [Int.floor_eq_iff]
  exact ⟨by exact_mod_cast h.le, by exact_mod_cast h.lt⟩

/-- A number is rounded to one of the two integers around it. -/
lemma rounded (h : Holds em t) : ⌊t⌋ ≤ em.roundedMantissa ∧ (em.roundedMantissa : ℤ) ≤ ⌈t⌉ := by
  obtain ⟨hlo, hhi⟩ := roundedMantissa_bounds em
  rw [h.floor_eq]
  refine ⟨by exact_mod_cast hlo, ?_⟩
  by_cases heq : t = em.mantissa
  · obtain ⟨hround, hsticky⟩ := h.clear heq
    have hsame : em.roundedMantissa = em.mantissa := by
      obtain ⟨m, round, sticky⟩ := em
      obtain rfl : round = false := hround
      obtain rfl : sticky = false := hsticky
      rfl
    rw [hsame, heq, Int.ceil_natCast]
  · have hgt : (em.mantissa : ℤ) < ⌈t⌉ := by
      rw [Int.lt_ceil]
      exact_mod_cast lt_of_le_of_ne h.le (Ne.symm heq)
    omega

end Holds

lemma holds_exact (m : ℕ) : Holds (.ofMantissaAndAccuracy m .exact) m := by
  refine ⟨le_rfl, lt_add_one _, fun _ => ⟨rfl, rfl⟩⟩

/-- A quotient with what is known of the remainder. -/
lemma holds_div (m : ℕ) {n : ℕ} (hn : 0 < n) :
    Holds (.ofMantissaAndAccuracy (m / n) (accuracyOfFraction (m % n) n)) (m / n : ℚ) := by
  have hn' : (0 : ℚ) < n := by exact_mod_cast hn
  have hfloor : ⌊(m / n : ℚ)⌋₊ = m / n := Nat.floor_div_eq_div m n
  have hlo := Nat.floor_le (div_nonneg (Nat.cast_nonneg m) hn'.le : (0 : ℚ) ≤ m / n)
  have hhi := Nat.lt_floor_add_one (m / n : ℚ)
  rw [hfloor] at hlo hhi
  refine ⟨?_, ?_, fun heq => ?_⟩
  · rwa [mantissa_ofMantissaAndAccuracy]
  · rwa [mantissa_ofMantissaAndAccuracy]
  · rw [mantissa_ofMantissaAndAccuracy, div_eq_iff hn'.ne'] at heq
    have hnat : m = m / n * n := by exact_mod_cast heq
    have hmod : m % n = 0 := by
      have := Nat.div_add_mod m n
      have := mul_comm n (m / n)
      omega
    rw [accuracyOfFraction, if_pos hmod]
    exact ⟨rfl, rfl⟩

/-! ### Rounding -/

/-- A number with at most 53 binary digits, counted in a unit that doubles have. -/
def Representable (p : ℚ) : Prop := ∃ n e : ℤ, |n| ≤ 2 ^ 53 ∧ -1074 ≤ e ∧ p = n * 2 ^ e

lemma representable_intCast {n : ℤ} (hn : |n| ≤ 2 ^ 53) : Representable n :=
  ⟨n, 0, hn, by norm_num, by rw [zpow_zero, mul_one]⟩

lemma representable_natCast {n : ℕ} (hn : n ≤ 2 ^ 53) : Representable n := by
  have hn' : |(n : ℤ)| ≤ 2 ^ 53 := by
    rw [Nat.abs_cast]
    exact_mod_cast hn
  exact_mod_cast representable_intCast hn'

lemma representable_zero : Representable 0 := by
  exact_mod_cast representable_intCast (n := 0) (by norm_num)

lemma representable_one : Representable 1 := by
  exact_mod_cast representable_intCast (n := 1) (by norm_num)

lemma Representable.neg {p : ℚ} (h : Representable p) : Representable (-p) := by
  obtain ⟨n, e, hn, he, rfl⟩ := h
  exact ⟨-n, e, by rwa [abs_neg], he, by push_cast; ring⟩

lemma representable_exact {u : UnpackedFloat} (hu : IsCanonical u) : Representable (exact u) := by
  rcases u with _ | _ | _ | ⟨s, m, e, hm⟩
  case finite =>
    refine ⟨s.apply m, e, ?_, hu.2.1, ?_⟩
    · have hlt := hu.1
      cases s <;> simp only [Sign.apply, abs_neg, Nat.abs_cast] <;> omega
    · rw [cast_apply, exact]
      cases s <;> simp [signed]
  all_goals exact ⟨0, 0, by norm_num, by norm_num, by simp [exact]⟩

lemma representable_value (x : Float) : Representable (value x) :=
  representable_exact (isCanonical_unpack _)

/-- From a number to another one, no representable number is passed. -/
def PassesNone (q v : ℚ) : Prop := ∀ p, Representable p → (p ≤ q → p ≤ v) ∧ (q ≤ p → v ≤ p)

lemma passesNone_self (q : ℚ) : PassesNone q q := fun _ _ => ⟨id, id⟩

lemma PassesNone.neg {q v : ℚ} (h : PassesNone q v) : PassesNone (-q) (-v) := fun p hp =>
  ⟨fun hle => le_neg.mpr ((h (-p) hp.neg).2 (le_neg.mpr hle)),
    fun hle => neg_le.mpr ((h (-p) hp.neg).1 (neg_le.mpr hle))⟩

lemma PassesNone.signed {q v : ℚ} (h : PassesNone q v) (s : Sign) :
    PassesNone (signed s q) (signed s v) := by
  cases s
  · exact h.neg
  · exact h

/-- Where a unit leaves a number all its digits, or is the least unit there is, no representable
number is passed from the number to the integers around it. -/
lemma passesNone_in_unit {t : ℚ} {n : ℕ} {e : ℤ} (hfull : 2 ^ 52 ≤ t ∨ e = -1074) (hlo : ⌊t⌋ ≤ n)
    (hhi : (n : ℤ) ≤ ⌈t⌉) : PassesNone (t * 2 ^ e) (n * 2 ^ e) := by
  rintro p ⟨j, unit, hj, hunit, rfl⟩
  have hpos := two_zpow_pos e
  rcases le_or_gt e unit with hle | hlt
  · -- a multiple of a larger unit is a multiple of this one
    obtain ⟨k, rfl⟩ : ∃ k : ℕ, unit = e + k := ⟨(unit - e).toNat, by omega⟩
    have hmultiple : (j * 2 ^ (e + k : ℤ) : ℚ) = (j * 2 ^ k : ℤ) * 2 ^ e := by
      rw [zpow_add₀ two_ne_zero, zpow_natCast]
      push_cast
      ring
    rw [hmultiple]
    refine ⟨fun h => ?_, fun h => ?_⟩
    · have hfloor := (Int.le_floor.mpr (le_of_mul_le_mul_right h hpos)).trans hlo
      exact mul_le_mul_of_nonneg_right (by exact_mod_cast hfloor) hpos.le
    · have hceil := hhi.trans (Int.ceil_le.mpr (le_of_mul_le_mul_right h hpos))
      exact mul_le_mul_of_nonneg_right (by exact_mod_cast hceil) hpos.le
  · -- what is counted in a smaller unit is not above the least number with all its digits
    have ht := hfull.resolve_right (by omega)
    have hn : ((2 ^ 52 : ℤ) : ℚ) ≤ n := by
      have hfloor : (2 ^ 52 : ℤ) ≤ ⌊t⌋ := Int.le_floor.mpr (by exact_mod_cast ht)
      exact_mod_cast hfloor.trans hlo
    push_cast at hn
    have hsmall : (j * 2 ^ unit : ℚ) ≤ 2 ^ 52 * 2 ^ e := by
      have hj' : (j : ℚ) ≤ 2 ^ 53 := by exact_mod_cast (le_abs_self j).trans hj
      calc (j * 2 ^ unit : ℚ) ≤ 2 ^ 53 * 2 ^ unit :=
            mul_le_mul_of_nonneg_right hj' (two_zpow_pos unit).le
        _ ≤ 2 ^ 53 * 2 ^ (e - 1) :=
            mul_le_mul_of_nonneg_left (zpow_le_zpow_right₀ one_le_two (by omega)) (by norm_num)
        _ = 2 ^ 52 * 2 ^ e := by rw [zpow_sub_one₀ two_ne_zero]; ring
    refine ⟨fun _ => hsmall.trans (mul_le_mul_of_nonneg_right hn hpos.le), fun h => ?_⟩
    -- then the number is that least one
    have heq : t = (2 ^ 52 : ℤ) := by
      push_cast
      exact le_antisymm (le_of_mul_le_mul_right (h.trans hsmall) hpos) ht
    have hceil : (n : ℤ) ≤ 2 ^ 52 := by rwa [heq, Int.ceil_intCast] at hhi
    have hn' : (n : ℚ) ≤ t := by
      rw [heq]
      exact_mod_cast hceil
    exact (mul_le_mul_of_nonneg_right hn' hpos.le).trans h

/-- An unpacked double is a rounded number: it can be packed, and no representable number is
between it and the number. -/
structure IsRounded (u : UnpackedFloat) (q : ℚ) : Prop where
  /-- It stands for a number. -/
  isFinite : u.isFinite = true
  /-- It is packed without loss. -/
  isCanonical : IsCanonical u
  /-- No representable number is passed. -/
  passesNone : PassesNone q (exact u)

lemma targetExponent_eq (m : ℕ) (e : ℤ) :
    Format.binary64.targetExponent (totalExponent m e) = max (m.log2 - 52 + e) (-1074) := by
  simp only [Format.targetExponent, totalExponent, Format.mantissaBits, Format.minExponent]
  norm_num
  omega

/-- A mantissa and an exponent of a number that is not large have few digits before the point. -/
lemma log2_add_le {m : ℕ} {e : ℤ} (hm : 0 < m) (hlt : (m * 2 ^ e : ℚ) < 2 ^ 53) :
    m.log2 + e ≤ 52 := by
  have hlog : (2 ^ m.log2 : ℚ) ≤ m := by exact_mod_cast Nat.log2_self_le hm.ne'
  have hpow : (2 : ℚ) ^ (m.log2 + e : ℤ) < 2 ^ (53 : ℤ) := by
    calc (2 : ℚ) ^ (m.log2 + e : ℤ) = 2 ^ m.log2 * 2 ^ e := by
          rw [zpow_add₀ two_ne_zero, zpow_natCast]
      _ ≤ m * 2 ^ e := mul_le_mul_of_nonneg_right hlog (two_zpow_pos e).le
      _ < 2 ^ (53 : ℤ) := by exact_mod_cast hlt
  have := (zpow_lt_zpow_iff_right₀ one_lt_two).mp hpow
  omega

/-- The last step of rounding: a mantissa that was rounded up to the next power of two is halved. -/
lemma roundWithAccuracy_eq (s : Sign) {m k : ℕ} {e : ℤ} (acc : Accuracy)
    (hk : (Format.binary64.targetExponent (totalExponent m e) - e).toNat = k)
    (hlo : -1074 ≤ e + k) {n : ℕ}
    (hn : (ExtendedMantissa.ofMantissaAndAccuracy m acc >>> k).roundedMantissa = n)
    (hle : n ≤ 2 ^ 53) :
    (n = 0 ∧ roundWithAccuracy Format.binary64 s m e acc = .zero s) ∨
      (∃ hpos : 0 < n, n < 2 ^ 53 ∧
        roundWithAccuracy Format.binary64 s m e acc = .finite s n (e + k) hpos) ∨
      (n = 2 ^ 53 ∧
        roundWithAccuracy Format.binary64 s m e acc =
          .finite s (2 ^ 52) (e + k + 1) (by norm_num)) := by
  have hfirst : shiftToTargetExponent Format.binary64 m e acc =
      (ExtendedMantissa.ofMantissaAndAccuracy m acc >>> k, e + k) := by
    simp only [shiftToTargetExponent, shiftToExponent, hk]
  rcases hle.lt_or_eq with hlt | rfl
  · have hlog : n.log2 ≤ 52 := by
      rcases Nat.eq_zero_or_pos n with rfl | hpos
      · decide
      · exact Nat.lt_succ_iff.mp ((Nat.log2_lt hpos.ne').mpr hlt)
    have hsecond := shiftToTargetExponent_of_small hlog hlo
    rcases Nat.eq_zero_or_pos n with rfl | hpos
    · refine Or.inl ⟨rfl, ?_⟩
      simp only [roundWithAccuracy, hfirst, hn, hsecond, dite_true]
    · refine Or.inr (Or.inl ⟨hpos, hlt, ?_⟩)
      simp only [roundWithAccuracy, hfirst, hn, hsecond, hpos.ne', dite_false]
  · have hsecond : shiftToTargetExponent Format.binary64 (2 ^ 53) (e + k) .exact =
        (ExtendedMantissa.ofMantissaAndAccuracy (2 ^ 53) .exact >>> 1, e + k + (1 : ℕ)) :=
      shiftToTargetExponent_of_normal (by rw [Nat.log2_two_pow]) (by omega) .exact
    have hhalf : (ExtendedMantissa.ofMantissaAndAccuracy (2 ^ 53) .exact >>> 1).mantissa =
        2 ^ 52 := by
      rw [mantissa_shift, mantissa_ofMantissaAndAccuracy]
      norm_num
    refine Or.inr (Or.inr ⟨rfl, ?_⟩)
    simp only [roundWithAccuracy, hfirst, hn, hsecond, hhalf]
    rfl

lemma div_two_pow_lt {m k : ℕ} (hlog : m.log2 ≤ 52 + k) : m / 2 ^ k < 2 ^ 53 := by
  rw [Nat.div_lt_iff_lt_mul (by positivity), ← pow_add]
  exact Nat.lt_log2_self.trans_le (Nat.pow_le_pow_right (by norm_num) (by omega))

/-- The unit that a mantissa is rounded to leaves all its digits, or is the least there is. -/
lemma full_or_least {m k : ℕ} {e : ℤ}
    (hk : e + k = Format.binary64.targetExponent (totalExponent m e)) :
    2 ^ 52 ≤ m / 2 ^ k ∨ e + k = -1074 := by
  have htarget := targetExponent_eq m e
  by_cases hlog : m.log2 = 52 + k
  · have hlast := log2_div_two_pow hlog
    have hne : m / 2 ^ k ≠ 0 := by
      intro hzero
      simp [hzero] at hlast
    exact Or.inl ((Nat.log2_eq_iff hne).mp hlast).1
  · exact Or.inr (by omega)

/-- Rounding takes a number to a whole number of units, the unit being that of the last of 53
digits. -/
lemma exact_roundWithAccuracy (s : Sign) {m k : ℕ} {e : ℤ} (acc : Accuracy)
    (hk : e + k = Format.binary64.targetExponent (totalExponent m e)) (hsmall : e + k ≤ 0) {n : ℕ}
    (hn : (ExtendedMantissa.ofMantissaAndAccuracy m acc >>> k).roundedMantissa = n) :
    (roundWithAccuracy Format.binary64 s m e acc).isFinite = true ∧
      IsCanonical (roundWithAccuracy Format.binary64 s m e acc) ∧
      exact (roundWithAccuracy Format.binary64 s m e acc) = signed s (n * 2 ^ (e + k)) := by
  have htarget := targetExponent_eq m e
  have hdigits : m / 2 ^ k < 2 ^ 53 := div_two_pow_lt (by omega)
  have hfull := full_or_least hk
  have hrounded := roundedMantissa_bounds (ExtendedMantissa.ofMantissaAndAccuracy m acc >>> k)
  rw [mantissa_shift, mantissa_ofMantissaAndAccuracy, hn] at hrounded
  have hshift : (Format.binary64.targetExponent (totalExponent m e) - e).toNat = k := by omega
  rcases roundWithAccuracy_eq s acc hshift (by omega) hn (by omega) with
    ⟨rfl, heq⟩ | ⟨hpos, hlt, heq⟩ | ⟨rfl, heq⟩
  · rw [heq]
    refine ⟨rfl, trivial, ?_⟩
    cases s <;> simp [exact, signed]
  · rw [heq]
    exact ⟨rfl, ⟨hlt, by omega, by omega, by omega⟩, rfl⟩
  · rw [heq]
    refine ⟨rfl, ⟨by norm_num, by omega, by omega, Or.inl le_rfl⟩, congrArg (signed s) ?_⟩
    rw [zpow_add_one₀ two_ne_zero]
    push_cast
    ring

/-- **Rounding passes no representable number.** -/
lemma isRounded_roundWithAccuracy (s : Sign) {m : ℕ} {e : ℤ} {acc : Accuracy} {t : ℚ}
    (ht : Holds (.ofMantissaAndAccuracy m acc) t)
    (he : e ≤ Format.binary64.targetExponent (totalExponent m e)) (hlt : t * 2 ^ e < 2 ^ 53) :
    IsRounded (roundWithAccuracy Format.binary64 s m e acc) (signed s (t * 2 ^ e)) := by
  obtain ⟨k, hk⟩ : ∃ k : ℕ, e + k = Format.binary64.targetExponent (totalExponent m e) :=
    ⟨_, by rw [Int.toNat_of_nonneg (sub_nonneg.mpr he)]; ring⟩
  -- the unit of the last digit is at most one, so integers are whole numbers of units
  have hsmall : e + k ≤ 0 := by
    have htarget := targetExponent_eq m e
    rcases Nat.eq_zero_or_pos m with rfl | hm
    · rw [Nat.log2_zero] at htarget
      omega
    · have hle := ht.le
      rw [mantissa_ofMantissaAndAccuracy] at hle
      have hlog := log2_add_le hm
        ((mul_le_mul_of_nonneg_right hle (two_zpow_pos e).le).trans_lt hlt)
      omega
  obtain ⟨hfinite, hcanonical, hexact⟩ := exact_roundWithAccuracy s acc hk hsmall rfl
  have hshifted := ht.shift k
  obtain ⟨hlo, hhi⟩ := hshifted.rounded
  have hfull : 2 ^ 52 ≤ t / 2 ^ k ∨ e + k = -1074 := by
    refine (full_or_least hk).imp_left fun hm => ?_
    have hle := hshifted.le
    rw [mantissa_shift, mantissa_ofMantissaAndAccuracy] at hle
    exact le_trans (by exact_mod_cast hm) hle
  have hvalue : t / 2 ^ k * 2 ^ (e + k : ℤ) = t * 2 ^ e := by
    rw [zpow_add₀ two_ne_zero, zpow_natCast]
    field_simp
  have hnone := passesNone_in_unit hfull hlo hhi
  rw [hvalue] at hnone
  exact ⟨hfinite, hcanonical, hexact ▸ hnone.signed s⟩

lemma isRounded_round (s : Sign) {m : ℕ} {e : ℤ} (hm : 0 < m) (hlt : (m * 2 ^ e : ℚ) < 2 ^ 53) :
    IsRounded (UnpackedFloat.round Format.binary64 s m e) (signed s (m * 2 ^ e)) := by
  obtain ⟨k, hk⟩ : ∃ k, (e - Format.binary64.targetExponent (totalExponent m e)).toNat = k :=
    ⟨_, rfl⟩
  have hround : UnpackedFloat.round Format.binary64 s m e =
      roundWithAccuracy Format.binary64 s (m <<< k) (e - k) .exact := by
    simp only [UnpackedFloat.round, decreaseExponent, hk]
  -- digits that are added at the end do not change the number
  have hvalue : ((m <<< k : ℕ) * 2 ^ (e - k : ℤ) : ℚ) = m * 2 ^ e := by
    rw [Nat.shiftLeft_eq, zpow_sub₀ two_ne_zero, zpow_natCast]
    push_cast
    field_simp
  have htarget : e - k ≤ Format.binary64.targetExponent (totalExponent (m <<< k) (e - k)) := by
    have hold := targetExponent_eq m e
    have hnew := targetExponent_eq (m <<< k) (e - k)
    rw [log2_shiftLeft hm] at hnew
    omega
  rw [hround, ← hvalue]
  exact isRounded_roundWithAccuracy s (holds_exact _) htarget (hvalue ▸ hlt)

lemma isRounded_self {u : UnpackedFloat} (hu : IsCanonical u) (hfinite : u.isFinite = true) :
    IsRounded u (exact u) :=
  ⟨hfinite, hu, passesNone_self _⟩

lemma isRounded_normalize {n e : ℤ} (hlt : |(n * 2 ^ e : ℚ)| < 2 ^ 53) :
    IsRounded (UnpackedFloat.normalize Format.binary64 n e .positive) (n * 2 ^ e) := by
  obtain ⟨m, hsign⟩ := Int.eq_nat_or_neg n
  rcases Nat.eq_zero_or_pos m with rfl | hm
  · obtain rfl : n = 0 := by simpa using hsign
    have hzero : UnpackedFloat.normalize Format.binary64 0 e .positive = .zero .positive := rfl
    rw [hzero, Int.cast_zero, zero_mul]
    exact isRounded_self trivial rfl
  have hpos : (0 : ℚ) ≤ m * 2 ^ e := mul_nonneg (Nat.cast_nonneg m) (two_zpow_pos e).le
  rw [UnpackedFloat.normalize]
  rcases hsign with rfl | rfl
  · rw [Int.cast_natCast, abs_of_nonneg hpos] at hlt
    rw [Int.compare_eq_gt.mpr (by omega), Int.cast_natCast]
    exact isRounded_round .positive hm hlt
  · rw [Int.cast_neg, Int.cast_natCast, neg_mul, abs_neg, abs_of_nonneg hpos] at hlt
    rw [Int.compare_eq_lt.mpr (by omega), Int.cast_neg, Int.cast_natCast, neg_mul]
    dsimp only
    rw [neg_neg, Int.toNat_natCast]
    exact isRounded_round .negative hm hlt

/-! ### Operations -/

/-- A double is a rounded number: it stands for a number, and no representable number is between the
two. -/
structure Rounds (x : Float) (q : ℚ) : Prop where
  /-- It stands for a number. -/
  isNumber : IsNumber x
  /-- No representable number is passed. -/
  passesNone : PassesNone q (value x)

lemma IsRounded.rounds {u : UnpackedFloat} {q : ℚ} (h : IsRounded u q) :
    Rounds ⟨Float.Model.pack u⟩ q := by
  have hunpack : (Float.Model.pack u).unpack = u := unpack_pack h.isCanonical h.isFinite
  refine ⟨?_, ?_⟩
  · rw [IsNumber, hunpack]
    exact h.isFinite
  · rw [value, hunpack]
    exact h.passesNone

namespace Rounds

variable {x : Float} {p q : ℚ}

/-- What a number reaches is reached by the double. -/
lemma le_value (h : Rounds x q) (hp : Representable p) (hle : p ≤ q) : p ≤ value x :=
  (h.passesNone p hp).1 hle

/-- What a number does not pass is not passed by the double. -/
lemma value_le (h : Rounds x q) (hp : Representable p) (hle : q ≤ p) : value x ≤ p :=
  (h.passesNone p hp).2 hle

/-- A representable number is not rounded. -/
lemma value_eq (h : Rounds x q) (hq : Representable q) : value x = q :=
  le_antisymm (h.value_le hq le_rfl) (h.le_value hq le_rfl)

end Rounds

section

variable {x y : Float}

lemma exact_decreaseExponent (s : Sign) (m : ℕ) (e : ℤ) (k : ℕ) :
    signed s (m * 2 ^ e) = (s.apply ((m <<< k : ℕ) : ℤ) : ℤ) * 2 ^ (e - k : ℤ) := by
  rw [cast_apply, Nat.shiftLeft_eq, zpow_sub₀ two_ne_zero, zpow_natCast]
  cases s <;> simp only [signed] <;> push_cast <;> field_simp

lemma isRounded_add {a b : UnpackedFloat} (ha : IsCanonical a) (hb : IsCanonical b)
    (ha' : a.isFinite = true) (hb' : b.isFinite = true) (hlt : |exact a + exact b| < 2 ^ 53) :
    IsRounded (UnpackedFloat.add Format.binary64 a b) (exact a + exact b) := by
  rcases a with _ | _ | s | ⟨s, m, e, hm⟩ <;> try cases ha'
  · have hzero : exact (.zero s) = 0 := rfl
    rw [hzero, zero_add]
    rcases b with _ | _ | s' | ⟨s', m', e', hm'⟩ <;> try cases hb'
    · cases s <;> cases s' <;> exact isRounded_self trivial rfl
    · exact isRounded_self hb rfl
  · rcases b with _ | _ | s' | ⟨s', m', e', hm'⟩ <;> try cases hb'
    · have hzero : exact (.zero s') = 0 := rfl
      rw [hzero, add_zero]
      exact isRounded_self ha rfl
    · -- both mantissas are counted in the smaller unit of the two
      obtain ⟨k, hk⟩ : ∃ k, (e - min e e').toNat = k := ⟨_, rfl⟩
      obtain ⟨k', hk'⟩ : ∃ k', (e' - min e e').toNat = k' := ⟨_, rfl⟩
      have hunit : e - k = min e e' := by omega
      have hunit' : e' - k' = min e e' := by omega
      have hsum : exact (.finite s m e hm) + exact (.finite s' m' e' hm') =
          (s.apply ((m <<< k : ℕ) : ℤ) + s'.apply ((m' <<< k' : ℕ) : ℤ) : ℤ) *
            2 ^ (min e e') := by
        rw [exact, exact, exact_decreaseExponent s m e k, exact_decreaseExponent s' m' e' k', hunit,
          hunit']
        push_cast
        ring
      rw [hsum] at hlt ⊢
      simp only [UnpackedFloat.add, decreaseExponent, hk, hk']
      exact isRounded_normalize hlt

lemma apply_neg (s : Sign) (n : ℤ) : (-s).apply n = -s.apply n := by
  cases s
  · exact (neg_neg n).symm
  · rfl

/-- A difference is a sum with the opposite. -/
lemma sub_eq_add (a b : UnpackedFloat) :
    UnpackedFloat.sub Format.binary64 a b = UnpackedFloat.add Format.binary64 a b.neg := by
  rcases a with (_ | _) | _ | (_ | _) | ⟨s, m, e, hm⟩ <;>
    rcases b with (_ | _) | _ | (_ | _) | ⟨s', m', e', hm'⟩ <;> try rfl
  simp only [UnpackedFloat.sub, UnpackedFloat.add, UnpackedFloat.neg, apply_neg, sub_eq_add_neg]

lemma exact_neg_eq (b : UnpackedFloat) : exact b.neg = -exact b := by
  rcases b with _ | _ | _ | ⟨_ | _, m, e, hm⟩
  case finite.negative => exact (neg_neg _).symm
  case finite.positive => rfl
  all_goals exact neg_zero.symm

lemma isCanonical_neg {u : UnpackedFloat} (hu : IsCanonical u) (hfinite : u.isFinite = true) :
    IsCanonical u.neg ∧ u.neg.isFinite = true := by
  rcases u with _ | _ | _ | ⟨_, m, e, hm⟩
  case finite => exact ⟨hu, rfl⟩
  case zero => exact ⟨trivial, rfl⟩
  all_goals cases hfinite

lemma isRounded_sub {a b : UnpackedFloat} (ha : IsCanonical a) (hb : IsCanonical b)
    (ha' : a.isFinite = true) (hb' : b.isFinite = true) (hlt : |exact a - exact b| < 2 ^ 53) :
    IsRounded (UnpackedFloat.sub Format.binary64 a b) (exact a - exact b) := by
  obtain ⟨hneg, hneg'⟩ := isCanonical_neg hb hb'
  rw [sub_eq_add_neg, ← exact_neg_eq] at hlt ⊢
  rw [sub_eq_add]
  exact isRounded_add ha hneg ha' hneg' hlt

lemma signed_mul (s s' : Sign) (q q' : ℚ) :
    signed (s * s') (q * q') = signed s q * signed s' q' := by
  cases s <;> cases s'
  · exact (neg_mul_neg q q').symm
  · exact (neg_mul q q').symm
  · exact (mul_neg q q').symm
  · rfl

lemma signed_div (s s' : Sign) (q q' : ℚ) :
    signed (s / s') (q / q') = signed s q / signed s' q' := by
  cases s <;> cases s'
  · exact (neg_div_neg_eq q q').symm
  · exact (neg_div q' q).symm
  · exact (div_neg q).symm
  · rfl

lemma abs_signed (s : Sign) (q : ℚ) : |signed s q| = |q| := by
  cases s
  · exact abs_neg q
  · rfl

/-- A product has as many digits as one factor, and two least units are below the least one. -/
lemma product_unit {s s' : Sign} {m m' : ℕ} {e e' : ℤ} {hm : 0 < m} {hm' : 0 < m'}
    (hu : IsCanonical (.finite s m e hm)) (hu' : IsCanonical (.finite s' m' e' hm')) :
    e + e' ≤ Format.binary64.targetExponent (totalExponent (m * m') (e + e')) := by
  have hnew := targetExponent_eq (m * m') (e + e')
  have hfull : 2 ^ 52 ≤ m ∨ 2 ^ 52 ≤ m' → 52 ≤ (m * m').log2 := by
    intro h
    rw [Nat.le_log2 (Nat.mul_pos hm hm').ne']
    rcases h with h | h
    · exact h.trans (Nat.le_mul_of_pos_right m hm')
    · exact h.trans (Nat.le_mul_of_pos_left m' hm)
  obtain ⟨-, hlo, -, hdigits⟩ := hu
  obtain ⟨-, hlo', -, hdigits'⟩ := hu'
  omega

lemma isRounded_mul {a b : UnpackedFloat} (ha : IsCanonical a) (hb : IsCanonical b)
    (ha' : a.isFinite = true) (hb' : b.isFinite = true) (hlt : |exact a * exact b| < 2 ^ 53) :
    IsRounded (UnpackedFloat.mul Format.binary64 a b) (exact a * exact b) := by
  rcases a with _ | _ | s | ⟨s, m, e, hm⟩ <;> try cases ha'
  · have hzero : exact (.zero s) = 0 := rfl
    rw [hzero, zero_mul]
    rcases b with _ | _ | s' | ⟨s', m', e', hm'⟩ <;> try cases hb'
    · exact isRounded_self trivial rfl
    · exact isRounded_self trivial rfl
  rcases b with _ | _ | s' | ⟨s', m', e', hm'⟩ <;> try cases hb'
  · have hzero : exact (.zero s') = 0 := rfl
    rw [hzero, mul_zero]
    exact isRounded_self trivial rfl
  have hprod : exact (.finite s m e hm) * exact (.finite s' m' e' hm') =
      signed (s * s') ((m * m' : ℕ) * 2 ^ (e + e')) := by
    rw [exact, exact, ← signed_mul, zpow_add₀ two_ne_zero]
    push_cast
    congr 1
    ring
  have hpos : (0 : ℚ) ≤ (m * m' : ℕ) * 2 ^ (e + e') :=
    mul_nonneg (Nat.cast_nonneg _) (two_zpow_pos _).le
  rw [hprod, abs_signed, abs_of_nonneg hpos] at hlt
  rw [hprod]
  exact isRounded_roundWithAccuracy (s * s') (holds_exact _) (product_unit ha hb) hlt

/-- The unit in which a quotient is computed leaves at least 53 digits, or is the least there is. -/
lemma le_log2_quotient {m m' k : ℕ} (hm : 0 < m) (hm' : 0 < m') (hk : m'.log2 + 53 ≤ m.log2 + k) :
    52 ≤ ((m <<< k) / m').log2 := by
  have hlog : (m <<< k).log2 = m.log2 + k := log2_shiftLeft hm k
  have hpos : 0 < m <<< k := by
    rw [Nat.shiftLeft_eq]
    positivity
  have hlarge : 2 ^ 52 * m' ≤ m <<< k := by
    calc 2 ^ 52 * m' ≤ 2 ^ 52 * 2 ^ (m'.log2 + 1) := Nat.mul_le_mul_left _ Nat.lt_log2_self.le
      _ = 2 ^ (m'.log2 + 53) := by rw [← pow_add]; congr 1; omega
      _ ≤ 2 ^ (m <<< k).log2 := Nat.pow_le_pow_right (by norm_num) (by omega)
      _ ≤ m <<< k := Nat.log2_self_le hpos.ne'
  have hquotient : 2 ^ 52 ≤ (m <<< k) / m' := (Nat.le_div_iff_mul_le hm').mpr hlarge
  exact (Nat.le_log2 (by omega)).mpr hquotient

/-- The unit in which a quotient is computed is not above that of its last digit. -/
lemma quotient_unit {m m' k : ℕ} {e e' unit : ℤ} (hm : 0 < m) (hm' : 0 < m')
    (hunit : min (e - e') (Format.binary64.targetExponent
      (totalExponent m e - totalExponent m' e')) = unit)
    (hk : (e - e' - unit).toNat = k) :
    e - e' = k + unit ∧
      unit ≤ Format.binary64.targetExponent (totalExponent ((m <<< k) / m') unit) := by
  have hnew := targetExponent_eq ((m <<< k) / m') unit
  have hold : Format.binary64.targetExponent (totalExponent m e - totalExponent m' e') =
      max (m.log2 + e - (m'.log2 + e') - 53) (-1074) := by
    simp only [Format.targetExponent, totalExponent, Format.mantissaBits, Format.minExponent]
    norm_num
    omega
  refine ⟨by omega, ?_⟩
  by_cases hleast : unit ≤ -1074
  · omega
  · have hlog : 52 ≤ ((m <<< k) / m').log2 := le_log2_quotient hm hm' (by omega)
    omega

/-- Digits that are added to the dividend do not change a quotient. -/
lemma quotient_in_unit (m m' : ℕ) {k : ℕ} {e e' unit : ℤ} (hexp : e - e' = k + unit) :
    (m * 2 ^ e / (m' * 2 ^ e') : ℚ) = (m <<< k : ℕ) / m' * 2 ^ unit := by
  have hunits : (2 : ℚ) ^ e / 2 ^ e' = 2 ^ k * 2 ^ unit := by
    rw [← zpow_sub₀ two_ne_zero, hexp, zpow_add₀ two_ne_zero, zpow_natCast]
  rw [mul_div_mul_comm, hunits, Nat.shiftLeft_eq]
  push_cast
  ring

lemma isRounded_div {a b : UnpackedFloat} (ha' : a.isFinite = true)
    (hb' : b.isFinite = true) (hzero : exact b ≠ 0) (hlt : |exact a / exact b| < 2 ^ 53) :
    IsRounded (UnpackedFloat.div Format.binary64 a b) (exact a / exact b) := by
  rcases b with _ | _ | s' | ⟨s', m', e', hm'⟩ <;> try cases hb'
  · exact absurd rfl hzero
  rcases a with _ | _ | s | ⟨s, m, e, hm⟩ <;> try cases ha'
  · have hnone : exact (.zero s) = 0 := rfl
    rw [hnone, zero_div]
    exact isRounded_self trivial rfl
  obtain ⟨unit, hunit⟩ : ∃ unit, min (e - e') (Format.binary64.targetExponent
      (totalExponent m e - totalExponent m' e')) = unit := ⟨_, rfl⟩
  obtain ⟨k, hk⟩ : ∃ k, (e - e' - unit).toNat = k := ⟨_, rfl⟩
  obtain ⟨hexp, htarget⟩ := quotient_unit hm hm' hunit hk
  have hquotient : exact (.finite s m e hm) / exact (.finite s' m' e' hm') =
      signed (s / s') ((m <<< k : ℕ) / m' * 2 ^ unit) := by
    rw [exact, exact, ← signed_div, quotient_in_unit m m' hexp]
  have hpos : (0 : ℚ) ≤ (m <<< k : ℕ) / m' * 2 ^ unit :=
    mul_nonneg (div_nonneg (Nat.cast_nonneg _) (Nat.cast_nonneg _)) (two_zpow_pos _).le
  rw [hquotient, abs_signed, abs_of_nonneg hpos] at hlt
  rw [hquotient]
  simp only [UnpackedFloat.div, divCore, hunit, hk]
  exact isRounded_roundWithAccuracy (s / s') (holds_div _ hm') htarget hlt

lemma rounds_add (hx : IsNumber x) (hy : IsNumber y) (hlt : |value x + value y| < 2 ^ 53) :
    Rounds (x + y) (value x + value y) :=
  (isRounded_add (isCanonical_unpack _) (isCanonical_unpack _) hx hy hlt).rounds

lemma rounds_sub (hx : IsNumber x) (hy : IsNumber y) (hlt : |value x - value y| < 2 ^ 53) :
    Rounds (x - y) (value x - value y) :=
  (isRounded_sub (isCanonical_unpack _) (isCanonical_unpack _) hx hy hlt).rounds

lemma rounds_mul (hx : IsNumber x) (hy : IsNumber y) (hlt : |value x * value y| < 2 ^ 53) :
    Rounds (x * y) (value x * value y) :=
  (isRounded_mul (isCanonical_unpack _) (isCanonical_unpack _) hx hy hlt).rounds

lemma rounds_div (hx : IsNumber x) (hy : IsNumber y) (hzero : value y ≠ 0)
    (hlt : |value x / value y| < 2 ^ 53) : Rounds (x / y) (value x / value y) :=
  (isRounded_div hx hy hzero hlt).rounds

end

/-! ### Moderate numbers -/

/-- A double that stands for a number up to a bound, on either side of zero. -/
structure AtMost (x : Float) (k : ℕ) : Prop where
  /-- It stands for a number. -/
  isNumber : IsNumber x
  /-- The number is up to the bound. -/
  bound : |value x| ≤ k

namespace AtMost

variable {x y : Float} {j k : ℕ}

lemma of_rounds {q : ℚ} (h : Rounds x q) (hk : k < 2 ^ 53) (hq : |q| ≤ k) : AtMost x k := by
  have hbound : Representable k := representable_natCast hk.le
  obtain ⟨hlo, hhi⟩ := abs_le.mp hq
  exact ⟨h.isNumber, abs_le.mpr ⟨h.le_value hbound.neg hlo, h.value_le hbound hhi⟩⟩

lemma abs_lt_of_le {q : ℚ} (hk : k < 2 ^ 53) (hq : |q| ≤ k) : |q| < 2 ^ 53 :=
  hq.trans_lt (by exact_mod_cast hk)

lemma add (hx : AtMost x j) (hy : AtMost y k) (h : j + k < 2 ^ 53) : AtMost (x + y) (j + k) := by
  have hsum : |value x + value y| ≤ (j + k : ℕ) := by
    push_cast
    exact (abs_add_le _ _).trans (add_le_add hx.bound hy.bound)
  exact of_rounds (rounds_add hx.isNumber hy.isNumber (abs_lt_of_le h hsum)) h hsum

lemma sub (hx : AtMost x j) (hy : AtMost y k) (h : j + k < 2 ^ 53) : AtMost (x - y) (j + k) := by
  have hdifference : |value x - value y| ≤ (j + k : ℕ) := by
    push_cast
    exact (abs_sub _ _).trans (add_le_add hx.bound hy.bound)
  exact of_rounds (rounds_sub hx.isNumber hy.isNumber (abs_lt_of_le h hdifference)) h hdifference

/-- A quotient is moderate if the divisor is not too small. -/
lemma div (hx : AtMost x j) (hy : IsNumber y) (hlo : 1 ≤ |value y| * k) (h : j * k < 2 ^ 53) :
    AtMost (x / y) (j * k) := by
  have hzero : value y ≠ 0 := by
    intro hzero
    rw [hzero, abs_zero, zero_mul] at hlo
    exact absurd hlo (by norm_num)
  have hpos : 0 < |value y| := abs_pos.mpr hzero
  have hquotient : |value x / value y| ≤ (j * k : ℕ) := by
    rw [abs_div, div_le_iff₀ hpos]
    push_cast
    calc |value x| ≤ j := hx.bound
      _ ≤ j * (|value y| * k) := le_mul_of_one_le_right (Nat.cast_nonneg j) hlo
      _ = j * k * |value y| := by ring
  exact of_rounds (rounds_div hx.isNumber hy hzero (abs_lt_of_le h hquotient)) h hquotient

end AtMost

end Seamark.Double
