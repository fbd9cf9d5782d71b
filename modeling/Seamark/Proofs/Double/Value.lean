import Mathlib
import Seamark.Proofs.Double.Order

/-!
# The numbers that doubles stand for

A double that is neither infinite nor undefined stands for a rational number, its mantissa times a
power of two.  Doubles are in the order of these numbers (`lt_iff_value`), since of two mantissas
with all their digits the one with the larger exponent is the larger number.
-/

namespace Seamark.Double

open Float.Model Float.Model.UnpackedFloat

/-- A number with a sign put before it. -/
def signed : Sign → ℚ → ℚ
  | .negative, q => -q
  | .positive, q => q

lemma cast_apply (s : Sign) (n : ℤ) : ((s.apply n : ℤ) : ℚ) = signed s n := by
  cases s
  · exact Int.cast_neg n
  · rfl

/-- The number that an unpacked double stands for; zero if it stands for none. -/
def exact : UnpackedFloat → ℚ
  | .finite s m e _ => signed s (m * 2 ^ e)
  | _ => 0

/-- The number that a double stands for; zero if it stands for none. -/
def value (x : Float) : ℚ := exact x.toModel.unpack

/-- The double stands for a number: it is neither infinite nor undefined. -/
def IsNumber (x : Float) : Prop := x.toModel.unpack.isFinite = true

/-- An unpacked double that packing does not change: the mantissa has all its digits unless the
exponent is the least there is. -/
def IsCanonical : UnpackedFloat → Prop
  | .finite _ m e _ => m < 2 ^ 53 ∧ -1074 ≤ e ∧ e ≤ 971 ∧ (2 ^ 52 ≤ m ∨ e = -1074)
  | _ => True

/-! ### Packing and unpacking -/

/-- The exponent of a finite double is not that of an infinite one. -/
lemma exponent_le_of_unpack {b : BitVec Format.binary64.numBits} {s : Sign} {m : ℕ} {e : ℤ}
    {hm : 0 < m} (h : unpack Format.binary64 b = .finite s m e hm) : e ≤ 971 := by
  have hbias : ((Format.binary64.exponentBias : ℤ) + (52 : ℕ)) = 1075 := by decide
  have hlt : (unpackExponent b).toNat < 2048 := (unpackExponent b).isLt
  unfold UnpackedFloat.unpack at h
  dsimp only at h
  split_ifs at h with hones hzero hsub hempty
  · cases h
    rw [hsub, hbias]
    decide
  · cases h
    have hfield : (unpackExponent b).toNat ≠ 2047 := fun hnat =>
      hones (BitVec.eq_of_toNat_eq (hnat.trans (by decide)))
    rw [hbias]
    omega

lemma isCanonical_unpack (v : Float.Model) : IsCanonical v.unpack := by
  cases h : v.unpack with
  | finite s m e hm =>
    obtain ⟨hlt, hlo⟩ := bounds_of_unpack v.toBits.toBitVec h
    refine ⟨hlt, hlo, exponent_le_of_unpack h, ?_⟩
    rcases hlo.lt_or_eq with hgt | heq
    · exact Or.inl (full_of_unpack h hgt)
    · exact Or.inr heq.symm
  | _ => trivial

lemma unpack_pack_of_subnormal (s : Sign) {m : ℕ} {hm : 0 < m} (hlt : m < 2 ^ 52) :
    (Float.Model.pack (.finite s m (-1074) hm)).unpack = .finite s m (-1074) hm := by
  have hlog : m.log2 ≠ 52 := ((Nat.log2_lt hm.ne').mpr hlt).ne
  have hnat : (BitVec.ofNat 52 m).toNat = m := by rw [BitVec.toNat_ofNat, Nat.mod_eq_of_lt hlt]
  have hfield : BitVec.ofNat 52 m ≠ 0#52 := fun h => by
    have hzero := congrArg BitVec.toNat h
    rw [hnat, BitVec.toNat_zero] at hzero
    omega
  change UnpackedFloat.unpack Format.binary64 (UnpackedFloat.pack Format.binary64 _) = _
  rw [pack_finite, if_neg (by norm_num), if_neg hlog]
  simp only [UnpackedFloat.unpack, unpackExponent_packComponents, unpackMantissa_packComponents,
    unpackSign_packComponents, Sign.ofBitVec_toBitVec, hfield, hnat, if_false, dite_false]
  rfl

/-- What is canonical is packed without loss. -/
lemma unpack_pack {u : UnpackedFloat} (hu : IsCanonical u) (hfinite : u.isFinite = true) :
    (Float.Model.pack u).unpack = u := by
  cases u with
  | notANumber => cases hfinite
  | infinity s => cases hfinite
  | zero s => cases s <;> rfl
  | finite s m e hm =>
    obtain ⟨hlt, hlo, hhi, hfull⟩ := hu
    by_cases hm' : 2 ^ 52 ≤ m
    · exact unpack_pack_of_normal s ((Nat.log2_eq_iff hm.ne').mpr ⟨hm', hlt⟩) hlo hhi
    · obtain rfl := hfull.resolve_left hm'
      exact unpack_pack_of_subnormal s (not_le.mp hm')

/-! ### The order -/

lemma two_zpow_pos (e : ℤ) : (0 : ℚ) < 2 ^ e := zpow_pos two_pos e

/-- Of two mantissas with all their digits, the one with the larger exponent is the larger
number. -/
lemma mul_two_zpow_lt {m m' : ℕ} {e e' : ℤ} (hlt : m < 2 ^ 53) (hfull : 2 ^ 52 ≤ m')
    (h : e < e') : (m * 2 ^ e : ℚ) < m' * 2 ^ e' := by
  have hm : (m : ℚ) < 2 ^ 53 := by exact_mod_cast hlt
  have hm' : (2 ^ 52 : ℚ) ≤ m' := by exact_mod_cast hfull
  calc (m * 2 ^ e : ℚ) < 2 ^ 53 * 2 ^ e := mul_lt_mul_of_pos_right hm (two_zpow_pos e)
    _ = 2 ^ 52 * 2 ^ (e + 1) := by rw [zpow_add_one₀ two_ne_zero]; ring
    _ ≤ m' * 2 ^ e' :=
        mul_le_mul hm' (zpow_le_zpow_right₀ one_le_two h) (two_zpow_pos _).le (Nat.cast_nonneg m')

/-- Positive doubles are in the order of their exponents, then of their mantissas. -/
lemma mul_two_zpow_lt_of_lex {s s' : Sign} {m m' : ℕ} {e e' : ℤ} {hm : 0 < m} {hm' : 0 < m'}
    (hu : IsCanonical (.finite s m e hm)) (hu' : IsCanonical (.finite s' m' e' hm'))
    (h : e < e' ∨ e = e' ∧ m < m') : (m * 2 ^ e : ℚ) < m' * 2 ^ e' := by
  rcases h with h | ⟨rfl, h⟩
  · refine mul_two_zpow_lt hu.1 (hu'.2.2.2.resolve_right ?_) h
    have := hu.2.1
    omega
  · exact mul_lt_mul_of_pos_right (by exact_mod_cast h) (two_zpow_pos e)

lemma exact_pos {m : ℕ} {e : ℤ} (hm : 0 < m) : 0 < exact (.finite .positive m e hm) :=
  mul_pos (by exact_mod_cast hm) (two_zpow_pos e)

lemma exact_neg {m : ℕ} {e : ℤ} (hm : 0 < m) : exact (.finite .negative m e hm) < 0 :=
  neg_neg_of_pos (exact_pos hm)

section

variable {a b : UnpackedFloat}

/-- Of two doubles that are not undefined, one is below the other or they are equal. -/
lemma compare_cases (ha : a ≠ .notANumber) (hb : b ≠ .notANumber) :
    UnpackedFloat.compare a b = some .lt ∨ UnpackedFloat.compare a b = some .eq ∨
      UnpackedFloat.compare a b = some .gt := by
  have hsome : ∃ o, UnpackedFloat.compare a b = some o := by
    rcases a with (_ | _) | _ | _ | ⟨_ | _, m, e, hm⟩ <;>
      rcases b with (_ | _) | _ | _ | ⟨_ | _, m', e', hm'⟩ <;>
      simp_all [UnpackedFloat.compare]
  obtain ⟨_ | _ | _, ho⟩ := hsome <;> simp [ho]

lemma compare_swap (h : UnpackedFloat.compare a b = some .gt) :
    UnpackedFloat.compare b a = some .lt := by
  rcases a with (_ | _) | _ | _ | ⟨_ | _, m, e, hm⟩ <;>
    rcases b with (_ | _) | _ | _ | ⟨_ | _, m', e', hm'⟩ <;>
    simp_all [UnpackedFloat.compare, then_compare_eq_lt, then_compare_eq_gt,
      compare_negative_positive]
  all_goals omega

lemma exact_lt_of_rank (ha : IsCanonical a) (hb : IsCanonical b) (ha' : a.isFinite = true)
    (hb' : b.isFinite = true) (h : rank a < rank b) : exact a < exact b := by
  rcases a with _ | _ | s | ⟨s, m, e, hm⟩ <;> try cases ha'
  · rcases b with _ | _ | s' | ⟨s' | _, m', e', hm'⟩ <;> try cases hb'
    · exact absurd h (lt_irrefl _)
    · simp [rank, Prod.Lex.toLex_lt_toLex] at h
    · exact exact_pos hm'
  · rcases b with _ | _ | s' | ⟨s', m', e', hm'⟩ <;> try cases hb'
    · cases s with
      | negative => exact exact_neg hm
      | positive => simp [rank, Prod.Lex.toLex_lt_toLex] at h
    · cases s with
      | negative =>
        cases s' with
        | negative =>
          refine neg_lt_neg (mul_two_zpow_lt_of_lex hb ha ?_)
          simp [rank, Prod.Lex.toLex_lt_toLex] at h
          omega
        | positive => exact (exact_neg hm).trans (exact_pos hm')
      | positive =>
        cases s' with
        | negative => simp [rank, Prod.Lex.toLex_lt_toLex] at h
        | positive =>
          refine mul_two_zpow_lt_of_lex ha hb ?_
          simpa [rank, Prod.Lex.toLex_lt_toLex] using h

lemma exact_eq_of_rank (ha : a.isFinite = true) (hb : b.isFinite = true) (h : rank a = rank b) :
    exact a = exact b := by
  rcases a with _ | _ | s | ⟨_ | _, m, e, hm⟩ <;>
    rcases b with _ | _ | s' | ⟨_ | _, m', e', hm'⟩ <;>
    simp_all [rank, exact, UnpackedFloat.isFinite]

/-- The order of ranks is that of numbers. -/
lemma rank_lt_iff (ha : IsCanonical a) (hb : IsCanonical b) (ha' : a.isFinite = true)
    (hb' : b.isFinite = true) : rank a < rank b ↔ exact a < exact b := by
  refine ⟨exact_lt_of_rank ha hb ha' hb', fun h => ?_⟩
  rcases lt_trichotomy (rank a) (rank b) with hlt | heq | hgt
  · exact hlt
  · exact absurd (exact_eq_of_rank ha' hb' heq) h.ne
  · exact absurd (exact_lt_of_rank hb ha hb' ha' hgt) h.asymm

end

lemma ne_notANumber_of_isFinite {u : UnpackedFloat} (h : u.isFinite = true) : u ≠ .notANumber := by
  rintro rfl
  cases h

section

variable {x y : Float}

/-- One double is below another exactly if it stands for a smaller number. -/
lemma lt_iff_value (hx : IsNumber x) (hy : IsNumber y) : x < y ↔ value x < value y := by
  rw [lt_iff_rank, rank_lt_iff (isCanonical_unpack _) (isCanonical_unpack _) hx hy]
  exact ⟨fun h => h.2.2,
    fun h => ⟨ne_notANumber_of_isFinite hx, ne_notANumber_of_isFinite hy, h⟩⟩

lemma beq_iff_compare : (x == y) = true ↔
    UnpackedFloat.compare x.toModel.unpack y.toModel.unpack = some .eq := by
  have hbeq : (x == y) =
      (UnpackedFloat.compare x.toModel.unpack y.toModel.unpack == some .eq) := rfl
  rw [hbeq, beq_iff_eq]

/-- Two doubles are equal exactly if they stand for the same number. -/
lemma beq_iff_value (hx : IsNumber x) (hy : IsNumber y) : (x == y) = true ↔ value x = value y := by
  rw [beq_iff_compare]
  refine ⟨fun h => exact_eq_of_rank hx hy (rank_eq_of_compare h), fun h => ?_⟩
  rcases compare_cases (ne_notANumber_of_isFinite hx) (ne_notANumber_of_isFinite hy) with
    hlt | heq | hgt
  · exact absurd h ((lt_iff_value hx hy).mp (lt_iff_compare.mpr hlt)).ne
  · exact heq
  · exact absurd h.symm ((lt_iff_value hy hx).mp (lt_iff_compare.mpr (compare_swap hgt))).ne

lemma le_iff_compare : x ≤ y ↔
    ((UnpackedFloat.compare x.toModel.unpack y.toModel.unpack).any (·.isLE)) = true := by
  have hmodel : x ≤ y ↔ x.toModel ≤ y.toModel := decide_eq_true_iff
  exact hmodel.trans Iff.rfl

lemma le_of_lt_double (h : x < y) : x ≤ y := by
  rw [le_iff_compare, lt_iff_compare.mp h]
  rfl

lemma le_iff_value (hx : IsNumber x) (hy : IsNumber y) : x ≤ y ↔ value x ≤ value y := by
  rw [le_iff_compare, le_iff_lt_or_eq, ← lt_iff_value hx hy, ← beq_iff_value hx hy,
    lt_iff_compare, beq_iff_compare]
  rcases compare_cases (ne_notANumber_of_isFinite hx) (ne_notANumber_of_isFinite hy) with
    h | h | h <;> simp [h]

lemma isFinite_of_le {u a b : UnpackedFloat} (ha : a.isFinite = true) (hb : b.isFinite = true)
    (hlo : ((UnpackedFloat.compare a u).any (·.isLE)) = true)
    (hhi : ((UnpackedFloat.compare u b).any (·.isLE)) = true) : u.isFinite = true := by
  rcases u with s | _ | _ | _
  case zero => rfl
  case finite => rfl
  case notANumber => cases hhi
  case infinity =>
    cases s with
    | negative => rcases a with _ | _ | _ | ⟨_ | _, m, e, hm⟩ <;> cases ha <;> cases hlo
    | positive => rcases b with _ | _ | _ | ⟨_ | _, m, e, hm⟩ <;> cases hb <;> cases hhi

/-- What is between two numbers is a number. -/
lemma isNumber_of_le {a b : Float} (ha : IsNumber a) (hb : IsNumber b) (hlo : a ≤ x)
    (hhi : x ≤ b) : IsNumber x :=
  isFinite_of_le ha hb (le_iff_compare.mp hlo) (le_iff_compare.mp hhi)

end

end Seamark.Double
