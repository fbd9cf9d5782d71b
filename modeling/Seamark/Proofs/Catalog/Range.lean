import Mathlib
import Seamark.Catalog.Range
import Seamark.Proofs.Decimal.Spelling

/-!
# What a range comes to

A value denotes a number of miles if it is a number or a text that starts with one (`Denotes`).  The
number is rounded to a double, which must be positive and finite to give a range, and the double is
multiplied by the metres of a mile and rounded once more (`GivesMeters`).  Everything else is no
range, or is refused: a value of another kind, and an integer beyond every double
(`rangeMeters_outcome`).  The test for infinity comes before the product, so the metres of a finite
number of miles may still be infinite.
-/

namespace Seamark

/-- A value of a kind that no number is read from: a date, a list or a map. -/
def Value.isOther : Value → Bool
  | .moment _ | .list _ | .map _ | .loop _ _ | .again _ _ => true
  | _ => false

namespace Catalog

open Double Text Characteristic

/-! ### Texts that start with a number -/

/-- A sign as it is written: a minus for a negative number, a plus or nothing for any other. -/
def IsSign : Bool → List Char → Prop
  | true, cs => cs = ['-']
  | false, cs => cs = [] ∨ cs = ['+']

/-- A text starts with a number: after blanks and a sign stand digits and perhaps a point, and the
number is taken as far as it goes. -/
structure StartsWith (text : String) (negative : Bool) (p : WrittenPeriod) : Prop where
  /-- The number is taken as far as it goes. -/
  leads : p.Leads
  /-- Only blanks and a sign stand before the number. -/
  text_eq : ∃ blanks sign, (∀ c ∈ blanks, isBlank c = true) ∧ IsSign negative sign ∧
    text.toList = blanks ++ sign ++ p.chars

section

variable {negative : Bool} {sign : List Char} {p : WrittenPeriod}

/-- A number does not start like a sign. -/
lemma takeSign_append (hp : p.Leads) (hsign : IsSign negative sign) :
    Decimal.takeSign (sign ++ p.chars) = (negative, p.chars) := by
  obtain ⟨c, cs, hchars, hc⟩ := hp.head
  have hminus : c ≠ '-' := by
    rintro rfl
    revert hc
    decide
  have hplus : c ≠ '+' := by
    rintro rfl
    revert hc
    decide
  rw [hchars]
  cases negative with
  | true =>
    obtain rfl : sign = ['-'] := hsign
    rfl
  | false =>
    rcases hsign with rfl | rfl
    · rw [List.nil_append]
      unfold Decimal.takeSign
      split <;> simp_all
    · rfl

/-- The blanks before a number end at its sign or at its first digit. -/
lemma dropWhile_blanks {blanks : List Char} (hblanks : ∀ c ∈ blanks, isBlank c = true)
    (hp : p.Leads) (hsign : IsSign negative sign) :
    (blanks ++ sign ++ p.chars).dropWhile isBlank = sign ++ p.chars := by
  obtain ⟨c, cs, hchars, hc⟩ := hp.head
  have hfirst : isBlank c = false := by
    rcases hc with hc | rfl
    · exact not_isBlank_of_isDigit hc
    · decide
  rw [List.append_assoc, List.dropWhile_append_of_pos hblanks, hchars]
  cases negative with
  | true =>
    obtain rfl : sign = ['-'] := hsign
    rfl
  | false =>
    rcases hsign with rfl | rfl
    · rw [List.nil_append, List.dropWhile_cons_of_neg (by simp [hfirst])]
    · rfl

end

/-- A sign is taken off, and nothing else is. -/
lemma exists_of_takeSign {cs rest : List Char} {negative : Bool}
    (h : Decimal.takeSign cs = (negative, rest)) :
    ∃ sign, IsSign negative sign ∧ cs = sign ++ rest := by
  unfold Decimal.takeSign at h
  split at h <;> obtain ⟨rfl, rfl⟩ := Prod.mk.inj h
  · exact ⟨['-'], rfl, rfl⟩
  · exact ⟨['+'], Or.inr rfl, rfl⟩
  · exact ⟨[], Or.inl rfl, rfl⟩

/-- The number that is read from a text is the one that the text starts with. -/
lemma leadingNumber?_eq_some_iff {text : String} {x : Float} :
    leadingNumber? text = some x ↔ ∃ negative p, StartsWith text negative p ∧
      x = if negative then -p.decimal.toFloat else p.decimal.toFloat := by
  constructor
  · intro h
    obtain ⟨⟨negative, rest⟩, hsign⟩ : ∃ pair,
        Decimal.takeSign (text.toList.dropWhile isBlank) = pair := ⟨_, rfl⟩
    simp only [leadingNumber?, hsign, Option.bind_eq_bind, Option.bind_eq_some_iff] at h
    obtain ⟨⟨d, after⟩, htake, hx⟩ := h
    obtain ⟨p, hp, -, hchars, hdecimal⟩ := exists_of_takeDecimal? htake
    obtain ⟨sign, hsign, hrest⟩ := exists_of_takeSign hsign
    refine ⟨negative, p, ⟨hp, text.toList.takeWhile isBlank, sign,
      fun c hc => List.mem_takeWhile_imp hc, hsign, ?_⟩, ?_⟩
    · rw [hchars, List.append_assoc, ← hrest, List.takeWhile_append_dropWhile]
    · rw [hdecimal]
      exact (Option.some.inj hx).symm
  · rintro ⟨negative, p, ⟨hp, blanks, sign, hblanks, hsign, htext⟩, rfl⟩
    simp only [leadingNumber?, htext, dropWhile_blanks hblanks hp hsign, takeSign_append hp hsign,
      hp.takeDecimal?, Option.bind_eq_bind, Option.bind_some]
    rfl

/-- A text starts with one number. -/
lemma StartsWith.unique {text : String} {negative negative' : Bool} {p p' : WrittenPeriod}
    (h : StartsWith text negative p) (h' : StartsWith text negative' p') :
    negative = negative' ∧ p = p' := by
  obtain ⟨hp, blanks, sign, hblanks, hsign, htext⟩ := h
  obtain ⟨hp', blanks', sign', hblanks', hsign', htext'⟩ := h'
  have hrest : (negative, p.chars) = (negative', p'.chars) := by
    rw [← takeSign_append hp hsign, ← takeSign_append hp' hsign',
      ← dropWhile_blanks hblanks hp hsign, ← dropWhile_blanks hblanks' hp' hsign', ← htext,
      ← htext']
  obtain ⟨hnegative, hchars⟩ := Prod.mk.inj hrest
  exact ⟨hnegative, hp.eq_of_chars_eq hp' hchars⟩

/-! ### Miles -/

/-- The number of miles that a value denotes: a number itself, and the number that a text starts
with. -/
inductive Denotes : Value → ℚ → Prop
  /-- An integer of any size. -/
  | int (n : ℤ) : Denotes (.int n) n
  /-- A double that stands for a number. -/
  | float (x : Float) (hx : IsNumber x) : Denotes (.float x) (value x)
  /-- A text that starts with a number. -/
  | text (s : String) (negative : Bool) (p : WrittenPeriod) (h : StartsWith s negative p) :
    Denotes (.text s) (if negative then -p.value else p.value)

/-- A value denotes one number. -/
lemma Denotes.unique {v : Value} {q q' : ℚ} (h : Denotes v q) (h' : Denotes v q') : q = q' := by
  cases h with
  | int n => cases h'; rfl
  | float x hx => cases h'; rfl
  | text s negative p h =>
    cases h' with
    | text _ negative' p' h' =>
      obtain ⟨rfl, rfl⟩ := h.unique h'
      rfl

/-- The metres of a number of miles: the number is rounded to a double, which must be positive and
finite, and the product with the metres of a mile is rounded once more. -/
structure GivesMeters (q : ℚ) (m : Float) : Prop where
  /-- The double of the miles is positive. -/
  positive : 2 ^ (-1075 : ℤ) < q
  /-- The double of the miles is finite. -/
  finite : q < overflow
  /-- The metres are the product. -/
  meters : m = rounded q * 1852.0

/-- Why no range is read from a value: it is an integer beyond every double, or of another kind. -/
def Refuses (v : Value) : ConversionError → Prop
  | .numberTooLarge => ∃ n : ℤ, v = .int n ∧ overflow ≤ |(n : ℚ)|
  | .notNumeric => v.isOther = true
  | _ => False

lemma value_metersPerMile : IsNumber 1852.0 ∧ value 1852.0 = 1852 :=
  value_literal (by norm_num) rfl

/-- The metres of a positive double are the double nearest to the exact product. -/
lemma mul_metersPerMile {x : Float} (hx : IsNumber x) (hpos : 0 < value x) :
    x * 1852.0 = rounded (value x * 1852) := by
  obtain ⟨hmile, hvalue⟩ := value_metersPerMile
  rw [mul_eq_rounded hx hmile hpos (by rw [hvalue]; norm_num), hvalue]

section

variable {q : ℚ} {m : Float}

lemma GivesMeters.pos_miles (h : GivesMeters q m) : 0 < q := (two_zpow_pos _).trans h.positive

lemma GivesMeters.value_miles (h : GivesMeters q m) :
    IsNumber (rounded q) ∧ 0 < value (rounded q) :=
  ⟨(isNumber_rounded_iff h.pos_miles).mpr h.finite,
    (value_rounded_pos_iff h.pos_miles h.finite).mpr h.positive⟩

lemma GivesMeters.eq_rounded (h : GivesMeters q m) : m = rounded (value (rounded q) * 1852) := by
  rw [h.meters, mul_metersPerMile h.value_miles.1 h.value_miles.2]

/-- The metres are finite if the product is not beyond the doubles. -/
lemma GivesMeters.isFinite_iff (h : GivesMeters q m) :
    isFinite m = true ↔ value (rounded q) * 1852 < overflow := by
  rw [h.eq_rounded, isFinite_iff_isNumber, isNumber_rounded_iff]
  exact mul_pos h.value_miles.2 (by norm_num)

/-- The metres are positive. -/
lemma GivesMeters.pos (h : GivesMeters q m) : 0.0 < m := by
  obtain ⟨hnumber, hpos⟩ := h.value_miles
  rw [h.eq_rounded]
  refine zero_lt_rounded ?_
  calc (2 : ℚ) ^ (-1075 : ℤ) < 2 ^ (-1074 : ℤ) := zpow_lt_zpow_right₀ one_lt_two (by norm_num)
    _ ≤ value (rounded q) := least_le_value hnumber hpos
    _ ≤ value (rounded q) * 1852 := le_mul_of_one_le_right hpos.le (by norm_num)

lemma metersOf?_of_not_pos {x : Float} (h : ¬ 0.0 < x) : metersOf? x = none := by
  rw [metersOf?, decide_eq_false h, Bool.and_false]
  rfl

/-- The miles of a positive number give metres if they are positive and finite as a double. -/
lemma metersOf?_rounded (hq : 0 < q) : metersOf? (rounded q) = some m ↔ GivesMeters q m := by
  have hcondition : (isFinite (rounded q) && decide (0.0 < rounded q)) = true ↔
      q < overflow ∧ 2 ^ (-1075 : ℤ) < q := by
    rw [Bool.and_eq_true, decide_eq_true_iff, isFinite_iff_isNumber, isNumber_rounded_iff hq]
    refine and_congr_right fun hlt => ?_
    rw [lt_iff_value value_zero.1 ((isNumber_rounded_iff hq).mpr hlt), value_zero.2,
      value_rounded_pos_iff hq hlt]
  rw [metersOf?, Option.ite_none_right_eq_some, hcondition, Option.some.injEq, eq_comm]
  exact ⟨fun h => ⟨h.1.2, h.1.1, h.2⟩, fun h => ⟨⟨h.finite, h.positive⟩, h.meters⟩⟩

/-- The opposite of a positive number is no positive double. -/
lemma not_pos_neg_rounded (hq : 0 < q) : ¬ 0.0 < -rounded q := by
  rcases lt_or_ge q overflow with hlt | hge
  · obtain ⟨hnumber, hvalue⟩ := value_neg ((isNumber_rounded_iff hq).mpr hlt)
    have hnonneg : 0 ≤ value (rounded q) := by
      rw [value_rounded hq hlt, nearest, exact_ofUnits]
      exact mul_nonneg (Nat.cast_nonneg _) (two_zpow_pos _).le
    rw [lt_iff_value value_zero.1 hnumber, value_zero.2, hvalue]
    linarith
  · rw [rounded_eq_infinite hge]
    decide +kernel

/-- The metres of a number that is read as a size with a sign before it. -/
lemma metersOf?_signed (negative : Bool) (hq : 0 ≤ q) :
    metersOf? (if negative then -rounded q else rounded q) = some m ↔
      GivesMeters (if negative then -q else q) m := by
  have hnone : ∀ {x : Float} {r : ℚ}, ¬ 0.0 < x → r ≤ 0 →
      (metersOf? x = some m ↔ GivesMeters r m) := by
    intro x r hx hr
    rw [metersOf?_of_not_pos hx]
    exact iff_of_false nofun fun hgives => (hgives.pos_miles.trans_le hr).false
  rcases hq.eq_or_lt with rfl | hq
  · rw [rounded_zero]
    cases negative
    · exact hnone (by decide +kernel) le_rfl
    · exact hnone (by decide +kernel) neg_zero.le
  · cases negative
    · exact metersOf?_rounded hq
    · exact hnone (not_pos_neg_rounded hq) (neg_nonpos.mpr hq.le)

end

/-! ### Values -/

section

variable {m : Float}

lemma rangeMeters_text (s : String) :
    rangeMeters (.text s) = .ok (some m) ↔ ∃ q, Denotes (.text s) q ∧ GivesMeters q m := by
  have hrange : rangeMeters (.text s) = .ok (some m) ↔
      ∃ x, leadingNumber? s = some x ∧ metersOf? x = some m := by
    rw [rangeMeters, Except.ok.injEq, Option.bind_eq_some_iff]
  rw [hrange]
  constructor
  · rintro ⟨x, hx, hm⟩
    obtain ⟨negative, p, h, rfl⟩ := leadingNumber?_eq_some_iff.mp hx
    rw [p.toFloat_decimal] at hm
    exact ⟨_, .text s negative p h, (metersOf?_signed negative p.value_nonneg).mp hm⟩
  · rintro ⟨q, hq, hm⟩
    cases hq with
    | text _ negative p h =>
      refine ⟨_, leadingNumber?_eq_some_iff.mpr ⟨negative, p, h, rfl⟩, ?_⟩
      rw [p.toFloat_decimal]
      exact (metersOf?_signed negative p.value_nonneg).mpr hm

lemma exists_gives_iff {v : Value} {q : ℚ} (hq : Denotes v q) :
    (∃ q, Denotes v q ∧ GivesMeters q m) ↔ GivesMeters q m := by
  constructor
  · rintro ⟨q', hq', hm⟩
    rwa [hq.unique hq']
  · intro hm
    exact ⟨q, hq, hm⟩

lemma rangeMeters_float (x : Float) :
    rangeMeters (.float x) = .ok (some m) ↔ ∃ q, Denotes (.float x) q ∧ GivesMeters q m := by
  have hrange : rangeMeters (.float x) = .ok (metersOf? x) := rfl
  rw [hrange, Except.ok.injEq]
  by_cases hx : IsNumber x
  · rw [exists_gives_iff (.float x hx)]
    rcases lt_or_ge 0 (value x) with hpos | hle
    · rw [← metersOf?_rounded hpos, rounded_value hx hpos]
    · have hnone : ¬ 0.0 < x := by
        rw [lt_iff_value value_zero.1 hx, value_zero.2]
        exact not_lt.mpr hle
      rw [metersOf?_of_not_pos hnone]
      exact iff_of_false nofun fun hgives => (hgives.pos_miles.trans_le hle).false
  · have hinfinite : isFinite x = false :=
      Bool.eq_false_iff.mpr fun hfinite => hx (isFinite_iff_isNumber.mp hfinite)
    rw [metersOf?, hinfinite]
    refine iff_of_false nofun ?_
    rintro ⟨q, hq, -⟩
    cases hq with
    | float _ hx' => exact hx hx'

lemma natCast_natAbs (n : ℤ) : (n.natAbs : ℚ) = |(n : ℚ)| := by
  rw [Nat.cast_natAbs, Int.cast_abs]

/-- An integer is no double exactly from halfway past the largest one on. -/
lemma floatOfInt?_eq_none_iff (n : ℤ) :
    Value.floatOfInt? n = none ↔ overflow ≤ |(n : ℚ)| := by
  rw [← natCast_natAbs, ← not_lt, ← Decimal.isFinite_toFloat_natCast]
  simp only [Value.floatOfInt?, ite_eq_right_iff, reduceCtorEq, imp_false]

/-- An integer is taken for the double nearest to its size, with its sign. -/
lemma eq_of_floatOfInt? {n : ℤ} {x : Float} (h : Value.floatOfInt? n = some x) :
    x = if decide (n < 0) then -rounded n.natAbs else rounded n.natAbs := by
  simp only [Value.floatOfInt?, Option.ite_none_right_eq_some, Option.some.injEq,
    Decimal.toFloat_natCast] at h
  simp only [decide_eq_true_eq, h.2]

lemma rangeMeters_of_floatOfInt? {n : ℤ} {x : Float} (h : Value.floatOfInt? n = some x) :
    rangeMeters (.int n) = .ok (metersOf? x) := by
  simp only [rangeMeters, Value.toFloat, h]
  rfl

lemma rangeMeters_of_outsized {n : ℤ} (h : Value.floatOfInt? n = none) :
    rangeMeters (.int n) = .error .numberTooLarge := by
  simp only [rangeMeters, Value.toFloat, h]
  rfl

/-- An integer below every double's end gives the metres of the double nearest to it. -/
lemma rangeMeters_int (n : ℤ) :
    rangeMeters (.int n) = .ok (some m) ↔ ∃ q, Denotes (.int n) q ∧ GivesMeters q m := by
  rw [exists_gives_iff (.int n)]
  cases hread : Value.floatOfInt? n with
  | none =>
    have hlarge := (floatOfInt?_eq_none_iff n).mp hread
    rw [rangeMeters_of_outsized hread]
    refine iff_of_false nofun fun hgives => ?_
    rw [abs_of_pos hgives.pos_miles] at hlarge
    exact hlarge.not_gt hgives.finite
  | some x =>
    have hn : (n : ℚ) = if decide (n < 0) then -(n.natAbs : ℚ) else n.natAbs := by
      simp only [decide_eq_true_eq, natCast_natAbs]
      split_ifs with hneg
      · rw [abs_of_neg (by exact_mod_cast hneg), neg_neg]
      · rw [abs_of_nonneg (by exact_mod_cast not_lt.mp hneg)]
    rw [rangeMeters_of_floatOfInt? hread, Except.ok.injEq, eq_of_floatOfInt? hread,
      metersOf?_signed _ (Nat.cast_nonneg _), ← hn]

lemma rangeMeters_eq_some_iff (v : Value) :
    rangeMeters v = .ok (some m) ↔ ∃ q, Denotes v q ∧ GivesMeters q m := by
  cases v with
  | int n => exact rangeMeters_int n
  | float x => exact rangeMeters_float x
  | text s => exact rangeMeters_text s
  | _ =>
    -- no other value denotes a number
    refine iff_of_false nofun ?_
    rintro ⟨q, hq, -⟩
    cases hq

end

lemma rangeMeters_eq_error_iff (v : Value) (e : ConversionError) :
    rangeMeters v = .error e ↔ Refuses v e := by
  cases v with
  | int n =>
    cases hread : Value.floatOfInt? n with
    | none =>
      have hlarge := (floatOfInt?_eq_none_iff n).mp hread
      rw [rangeMeters_of_outsized hread]
      cases e with
      | numberTooLarge => exact iff_of_true rfl ⟨n, rfl, hlarge⟩
      | _ => exact iff_of_false nofun nofun
    | some x =>
      rw [rangeMeters_of_floatOfInt? hread]
      refine iff_of_false nofun ?_
      cases e with
      | numberTooLarge =>
        rintro ⟨_, ⟨rfl⟩, hlarge⟩
        rw [(floatOfInt?_eq_none_iff n).mpr hlarge] at hread
        cases hread
      | _ => exact nofun
  | null | bool | float | text => cases e <;> exact iff_of_false nofun nofun
  | moment | list | map | loop | again =>
    cases e with
    | notNumeric => exact iff_of_true rfl rfl
    | _ => exact iff_of_false nofun nofun

/-- **What a range comes to.**  An error means that the value is an integer beyond every double or a
date, a list or a map.  Metres are given exactly if the value denotes a number of miles that is a
positive finite double.  In all other cases there is no range.  The metres are positive, and finite
unless the product is beyond the doubles. -/
theorem rangeMeters_outcome (v : Value) :
    (∀ e, rangeMeters v = .error e ↔ Refuses v e) ∧
    (∀ m, rangeMeters v = .ok (some m) ↔ ∃ q, Denotes v q ∧ GivesMeters q m) ∧
    (rangeMeters v = .ok none ↔
      (∀ e, ¬ Refuses v e) ∧ ∀ q, Denotes v q → ¬ (2 ^ (-1075 : ℤ) < q ∧ q < overflow)) ∧
    ∀ m, rangeMeters v = .ok (some m) →
      0.0 < m ∧ (isFinite m = true ↔ ∀ q, Denotes v q → value (rounded q) * 1852 < overflow) := by
  refine ⟨rangeMeters_eq_error_iff v, fun m => rangeMeters_eq_some_iff v, ⟨fun hnone => ?_, ?_⟩,
    fun m hm => ?_⟩
  · refine ⟨fun e he => ?_, fun q hq hbounds => ?_⟩
    · cases hnone.symm.trans ((rangeMeters_eq_error_iff v e).mpr he)
    · cases hnone.symm.trans
        ((rangeMeters_eq_some_iff v).mpr ⟨q, hq, hbounds.1, hbounds.2, rfl⟩)
  · rintro ⟨hrefuses, hbounds⟩
    cases hrange : rangeMeters v with
    | error e => exact absurd ((rangeMeters_eq_error_iff v e).mp hrange) (hrefuses e)
    | ok range =>
      cases range with
      | none => rfl
      | some m =>
        obtain ⟨q, hq, hgives⟩ := (rangeMeters_eq_some_iff v).mp hrange
        exact absurd ⟨hgives.positive, hgives.finite⟩ (hbounds q hq)
  · obtain ⟨q, hq, hgives⟩ := (rangeMeters_eq_some_iff v).mp hm
    refine ⟨hgives.pos, hgives.isFinite_iff.trans ⟨fun hlt q' hq' => ?_, fun h => h q hq⟩⟩
    rwa [← hq.unique hq']

/-- A range of eighteen and a half miles, as a text with its unit. -/
theorem written_range_gives_meters :
    rangeMeters (.text " 18.5 NM") = .ok (some 34262.0) ∧
      (∃ q, Denotes (.text " 18.5 NM") q ∧ GivesMeters q 34262.0) ∧ 0.0 < (34262.0 : Float) := by
  have hrange : rangeMeters (.text " 18.5 NM") = .ok (some 34262.0) := rfl
  obtain ⟨-, hsome, -, hfinite⟩ := rangeMeters_outcome (.text " 18.5 NM")
  exact ⟨hrange, (hsome _).mp hrange, (hfinite _ hrange).1⟩

/-- Not every value gives a positive finite range or none: an integer may be beyond every double, a
list is no number, and the metres of a finite number of miles may be infinite. -/
theorem not_every_range_is_finite_or_none :
    rangeMeters (.int (10 ^ 400)) = .error .numberTooLarge ∧
      rangeMeters (.list [.int 18]) = .error .notNumeric ∧
      ∃ m, rangeMeters (.float 1e306) = .ok (some m) ∧ isFinite m = false := by
  have hlarge : Value.floatOfInt? (10 ^ 400) = none := by
    rw [← Option.isNone_iff_eq_none]
    decide +kernel
  have hfinite : (isFinite 1e306 && decide ((0.0 : Float) < 1e306)) = true := by decide +kernel
  have hproduct : isFinite ((1e306 : Float) * 1852.0) = false := by decide +kernel
  exact ⟨rangeMeters_of_outsized hlarge, rfl, 1e306 * 1852.0,
    congrArg Except.ok (if_pos hfinite), hproduct⟩

end Catalog

end Seamark
