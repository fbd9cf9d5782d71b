import Mathlib
import Seamark.Proofs.Catalog.Range

/-!
# A range and its spelling

A positive number gives a range, and so does a text that starts with the spelling of the number.
The two agree exactly for the numbers that are spelled without an exponent (`rangeMeters_spelled`):
all integers, and the doubles from a ten-thousandth up to `10 ^ 16`.  Of a spelling with an exponent
only what stands before the exponent is read, so that the text gives a range from one to ten miles
whatever the number is (`meters_of_mantissa`), while the number itself gives one that is much
shorter or much longer (`meters_of_extreme`).
-/

namespace Seamark.Catalog

open Double Text Characteristic

/-- A value is a number of miles: an integer or a double that is positive and finite as a double. -/
structure IsMiles (v : Value) (x : Float) : Prop where
  /-- The value is an integer or a double. -/
  isNumber : v.isNumber = true
  /-- The double is what the value is taken for. -/
  toFloat : v.toFloat = .ok x
  /-- The double is finite. -/
  isFinite : isFinite x = true
  /-- The double is positive. -/
  pos : 0.0 < x

/-- The spelling of a number has no exponent: it is an integer, or a double of middle size. -/
def IsPlain : Value → Prop
  | .int _ => True
  | .float x => 0.0001 ≤ x ∧ x < 1e16
  | _ => False

/-- What stands around a number in a text: blanks and perhaps a plus before it, and behind it
something that does not start with a digit or a point. -/
structure Surroundings where
  /-- What stands first. -/
  blanks : List Char
  /-- A plus stands before the number. -/
  plus : Bool
  /-- What stands behind the number. -/
  unit : List Char
  /-- Only blanks stand first. -/
  isBlank_blanks : ∀ c ∈ blanks, isBlank c = true
  /-- The number does not go on. -/
  stops : ∀ c ∈ unit.head?, isDigit c = false ∧ c ≠ '.'

namespace Surroundings

/-- The plus, or nothing. -/
def sign (f : Surroundings) : List Char := if f.plus then ['+'] else []

/-- A number as it is spelled in its surroundings. -/
def text (f : Surroundings) (s : String) : String :=
  .ofList (f.blanks ++ f.sign ++ (s.toList ++ f.unit))

lemma isSign (f : Surroundings) : IsSign false f.sign := by
  rw [sign]
  cases f.plus with
  | true => exact Or.inr rfl
  | false => exact Or.inl rfl

/-- What is read from a number in its surroundings is the decimal that is taken from the number and
what stands behind it. -/
lemma leadingNumber?_text (f : Surroundings) {s : String} {d : Decimal} {rest : List Char}
    (htake : Decimal.takeDecimal? (s.toList ++ f.unit) = some (d, rest)) :
    leadingNumber? (f.text s) = some d.toFloat := by
  obtain ⟨p, hp, -, hchars, hdecimal⟩ := exists_of_takeDecimal? htake
  have hstarts : StartsWith (f.text s) false p := by
    refine ⟨hp, f.blanks, f.sign, f.isBlank_blanks, f.isSign, ?_⟩
    rw [text, String.toList_ofList, hchars]
  exact leadingNumber?_eq_some_iff.mpr ⟨false, p, hstarts, by rw [hdecimal]; rfl⟩

end Surroundings

/-! ### Metres -/

lemma metersOf?_of_pos {x : Float} (hfinite : isFinite x = true) (hpos : 0.0 < x) :
    metersOf? x = some (x * 1852.0) := by
  rw [metersOf?, hfinite, decide_eq_true hpos]
  rfl

lemma IsMiles.rangeMeters_eq {v : Value} {x : Float} (h : IsMiles v x) :
    rangeMeters v = .ok (some (x * 1852.0)) := by
  have hmeters := metersOf?_of_pos h.isFinite h.pos
  have hread := h.toFloat
  cases v with
  | int n =>
    simp only [rangeMeters, hread]
    exact congrArg Except.ok hmeters
  | float y =>
    cases hread
    exact congrArg Except.ok hmeters
  | _ => cases h.isNumber

section

variable {x : Float}

lemma isNumber_and_pos (hfinite : isFinite x = true) (hpos : 0.0 < x) :
    IsNumber x ∧ 0 < value x := by
  have hx := isFinite_iff_isNumber.mp hfinite
  rw [lt_iff_value value_zero.1 hx, value_zero.2] at hpos
  exact ⟨hx, hpos⟩

/-- From one to ten miles there are 1852 to 18520 metres. -/
lemma meters_of_mantissa (hx : IsNumber x) (hlo : 1 ≤ value x) (hhi : value x ≤ 10) :
    IsNumber (x * 1852.0) ∧ 1852 ≤ value (x * 1852.0) ∧ value (x * 1852.0) ≤ 18520 := by
  have hpos : 0 < value x := one_pos.trans_le hlo
  have hlt : value x * 1852 < overflow := by
    calc value x * 1852 ≤ (18520 : ℕ) := by push_cast; linarith
      _ < overflow := natCast_lt_overflow (by norm_num)
  have hrounds := rounds_rounded (mul_pos hpos (by norm_num)) hlt
  have hleast : Representable (1852 : ℕ) := representable_natCast (by norm_num)
  have hlargest : Representable (18520 : ℕ) := representable_natCast (by norm_num)
  rw [mul_metersPerMile hx hpos]
  exact ⟨hrounds.isNumber, by exact_mod_cast hrounds.le_value hleast (by push_cast; linarith),
    by exact_mod_cast hrounds.value_le hlargest (by push_cast; linarith)⟩

/-- The metres of a double that is spelled with an exponent are at most one, or more than 18520, or
infinite. -/
lemma meters_of_extreme (hx : IsNumber x) (hpos : 0 < value x)
    (hextreme : ¬ (0.0001 ≤ x ∧ x < 1e16)) (hmeters : IsNumber (x * 1852.0)) :
    value (x * 1852.0) ≤ 1 ∨ 18521 ≤ value (x * 1852.0) := by
  have hlow : IsNumber 0.0001 := rfl
  have hhigh : IsNumber 1e16 := rfl
  have hlow' : value 0.0001 * 1852 ≤ 1 := by decide +kernel
  have hhigh' : 18521 ≤ value 1e16 * 1852 := by decide +kernel
  have hproduct : 0 < value x * 1852 := mul_pos hpos (by norm_num)
  rw [mul_metersPerMile hx hpos] at hmeters ⊢
  have hrounds := rounds_rounded hproduct ((isNumber_rounded_iff hproduct).mp hmeters)
  rw [le_iff_value hlow hx, lt_iff_value hx hhigh, not_and_or, not_le, not_lt] at hextreme
  rcases hextreme with hsmall | hlarge
  · exact Or.inl (hrounds.value_le representable_one (by linarith))
  · have hleast : Representable (18521 : ℕ) := representable_natCast (by norm_num)
    exact Or.inr (by exact_mod_cast hrounds.le_value hleast (by push_cast; linarith))

end

/-! ### Spelled numbers -/

/-- An integer that is a number of miles is a natural number below every double's end, and taken for
the double that its digits are read as. -/
lemma IsMiles.exists_natCast {n : ℤ} {x : Float} (h : IsMiles (.int n) x) :
    ∃ k : ℕ, n = k ∧ (k : ℚ) < overflow ∧ x = Decimal.toFloat ⟨k, 0⟩ := by
  obtain ⟨q, hq, hgives⟩ := (rangeMeters_int n).mp h.rangeMeters_eq
  cases hq
  obtain ⟨k, rfl⟩ := Int.eq_ofNat_of_zero_le (by exact_mod_cast hgives.pos_miles.le : 0 ≤ n)
  have hfloat : Value.floatOfInt? k = some x := by
    have htaken := h.toFloat
    rw [Value.toFloat] at htaken
    split at htaken
    · rwa [← Except.ok.inj htaken]
    · cases htaken
  refine ⟨k, rfl, by exact_mod_cast hgives.finite, ?_⟩
  rw [eq_of_floatOfInt? hfloat, decide_eq_false (not_lt.mpr (Int.natCast_nonneg k)),
    Int.natAbs_natCast, Decimal.toFloat_natCast]
  rfl

/-- A natural number below every double's end has few enough digits to be spelled. -/
lemma toText_natCast {k : ℕ} (hk : (k : ℚ) < overflow) :
    (Value.int k).toText = .ok (.ofList (Nat.toDigits 10 k)) := by
  have hlt : (k : ℚ) < (10 ^ 310 : ℕ) := by
    calc (k : ℚ) < overflow := hk
      _ ≤ 10 ^ (310 : ℤ) := Decimal.overflow_le_ten_zpow
      _ = (10 ^ 310 : ℕ) := by norm_num
  have hfew : k < tenTo maxDigits := by
    calc k < 10 ^ 310 := by exact_mod_cast hlt
      _ ≤ 10 ^ maxDigits := Nat.pow_le_pow_right (by norm_num) (by decide)
      _ = tenTo maxDigits := (Decimal.tenTo_eq _).symm
  have htext : (Value.int k).toText = Value.intText k := rfl
  rw [htext, Value.intText, if_neg (by rw [Int.natAbs_natCast]; exact not_le.mpr hfew)]
  rfl

/-- The digits of a natural number are read as they stand. -/
lemma leadingNumber?_toDigits (k : ℕ) (f : Surroundings) :
    leadingNumber? (f.text (.ofList (Nat.toDigits 10 k))) = some (Decimal.toFloat ⟨k, 0⟩) := by
  have htake := Decimal.takeDecimal?_whole (Decimal.isDigit_toDigits k)
    (List.ne_nil_of_length_pos Nat.length_toDigits_pos) f.stops
  rw [digitsValue_toDigits] at htake
  exact f.leadingNumber?_text (by rwa [String.toList_ofList])

/-- A double of middle size is spelled with a point, and read as itself. -/
lemma leadingNumber?_positional {x : Float} (hx : IsNumber x) (hpos : 0 < value x)
    (hplain : 0.0001 ≤ x ∧ x < 1e16) (f : Surroundings) :
    leadingNumber? (f.text (Spelling.plain.write x)) = some x := by
  obtain ⟨d, hd, hround, -, hwrite⟩ := exists_write_eq hx hpos
  rw [if_pos hplain] at hwrite
  obtain ⟨e, htake, he⟩ := d.takeDecimal?_positional fun c hc => (f.stops c hc).1
  rw [hwrite, f.leadingNumber?_text htake, e.toFloat_eq_rounded, he, hround]

/-- Of a double of any other size a number from one to ten is read. -/
lemma leadingNumber?_scientific {x : Float} (hx : IsNumber x) (hpos : 0 < value x)
    (hextreme : ¬ (0.0001 ≤ x ∧ x < 1e16)) (f : Surroundings) :
    ∃ y, leadingNumber? (f.text (Spelling.plain.write x)) = some y ∧ IsNumber y ∧
      1 ≤ value y ∧ value y ≤ 10 := by
  obtain ⟨d, hd, -, -, hwrite⟩ := exists_write_eq hx hpos
  rw [if_neg hextreme] at hwrite
  obtain ⟨e, after, htake, he⟩ := d.takeDecimal?_scientific f.unit
  have hscale := Decimal.ten_zpow_pos (d.places - 1)
  have hlo : 1 ≤ e.toRat := by
    rw [he, one_le_div hscale]
    exact Decimal.le_toRat hd
  have hhi : e.toRat ≤ 10 := by
    rw [he, div_le_iff₀ hscale, ← zpow_one_add₀ (by norm_num), add_sub_cancel]
    exact (Decimal.toRat_lt d).le
  have hten : Representable (10 : ℕ) := representable_natCast (by norm_num)
  have hrounds : Rounds (rounded e.toRat) e.toRat := by
    refine rounds_rounded (one_pos.trans_le hlo) ?_
    calc e.toRat ≤ (10 : ℕ) := by exact_mod_cast hhi
      _ < overflow := natCast_lt_overflow (by norm_num)
  refine ⟨rounded e.toRat, ?_, hrounds.isNumber, hrounds.le_value representable_one hlo,
    by exact_mod_cast hrounds.value_le hten (by exact_mod_cast hhi)⟩
  rw [hwrite, f.leadingNumber?_text htake, e.toFloat_eq_rounded]

/-- The text of a double that is spelled with an exponent gives a range from one to ten miles, which
the double itself does not. -/
lemma rangeMeters_scientific {x : Float} (hx : IsNumber x) (hpos : 0 < value x)
    (hextreme : ¬ (0.0001 ≤ x ∧ x < 1e16)) (f : Surroundings) :
    ∃ m, rangeMeters (.text (f.text (Spelling.plain.write x))) = .ok (some m) ∧
      1852.0 ≤ m ∧ m ≤ 18520.0 ∧ m ≠ x * 1852.0 := by
  obtain ⟨y, hread, hy, hlo, hhi⟩ := leadingNumber?_scientific hx hpos hextreme f
  obtain ⟨hm, hmlo, hmhi⟩ := meters_of_mantissa hy hlo hhi
  have hpositive : 0.0 < y := by
    rw [lt_iff_value value_zero.1 hy, value_zero.2]
    exact one_pos.trans_le hlo
  have hten : IsNumber 18520.0 ∧ value 18520.0 = 18520 := value_literal (by norm_num) rfl
  refine ⟨y * 1852.0, ?_, ?_, ?_, fun heq => ?_⟩
  · rw [rangeMeters, hread, Option.bind_some,
      metersOf?_of_pos (isFinite_iff_isNumber.mpr hy) hpositive]
  · rwa [le_iff_value value_metersPerMile.1 hm, value_metersPerMile.2]
  · rwa [le_iff_value hm hten.1, hten.2]
  · rw [heq] at hm hmlo hmhi
    rcases meters_of_extreme hx hpos hextreme hm with hsmall | hlarge <;> linarith

/-- **A range and its spelling agree** for the numbers that are spelled without an exponent and for
no others, whatever blanks and plus stand before the number and whatever unit behind it.  A text in
which the number has an exponent gives a range from one to ten miles. -/
theorem rangeMeters_spelled {v : Value} {x : Float} (h : IsMiles v x) :
    ∃ s, v.toText = .ok s ∧ ∀ f : Surroundings,
      (rangeMeters (.text (f.text s)) = rangeMeters v ↔ IsPlain v) ∧
      (¬ IsPlain v → ∃ m, rangeMeters (.text (f.text s)) = .ok (some m) ∧
        1852.0 ≤ m ∧ m ≤ 18520.0) := by
  have hagree : ∀ {t : String}, leadingNumber? t = some x →
      rangeMeters (.text t) = rangeMeters v := by
    intro t ht
    rw [h.rangeMeters_eq, rangeMeters, ht, Option.bind_some, metersOf?_of_pos h.isFinite h.pos]
  cases v with
  | int n =>
    obtain ⟨k, rfl, hk, rfl⟩ := h.exists_natCast
    refine ⟨_, toText_natCast hk, fun f => ⟨iff_of_true ?_ trivial, fun hn => absurd trivial hn⟩⟩
    exact hagree (leadingNumber?_toDigits k f)
  | float y =>
    obtain rfl : y = x := Except.ok.inj h.toFloat
    obtain ⟨hx, hpos⟩ := isNumber_and_pos h.isFinite h.pos
    refine ⟨Spelling.plain.write y, rfl, fun f => ?_⟩
    by_cases hplain : 0.0001 ≤ y ∧ y < 1e16
    · have hread := leadingNumber?_positional hx hpos hplain f
      exact ⟨iff_of_true (hagree hread) hplain, fun hn => absurd hplain hn⟩
    · obtain ⟨m, hm, hlo, hhi, hne⟩ := rangeMeters_scientific hx hpos hplain f
      refine ⟨iff_of_false (fun heq => ?_) hplain, fun _ => ⟨m, hm, hlo, hhi⟩⟩
      rw [hm, h.rangeMeters_eq] at heq
      exact hne (Option.some.inj (Except.ok.inj heq))
  | _ => cases h.isNumber

/-- A range of eighteen and a half miles, spelled with a plus before it and its unit behind it. -/
theorem spelled_range_agrees :
    IsMiles (.float 18.5) 18.5 ∧ (Value.float 18.5).toText = .ok "18.5" ∧
      rangeMeters (.text " +18.5 NM") = rangeMeters (.float 18.5) := by
  have h : IsMiles (.float 18.5) 18.5 := ⟨rfl, rfl, by decide +kernel, by decide +kernel⟩
  have hshape : doubleShape 18.5 = .finite false ⟨5207287069147136, -48⟩ := by decide +kernel
  have hshortest : Binary.shortest ⟨5207287069147136, -48⟩ = ⟨185, -1⟩ := by decide +kernel
  have hstrip : Decimal.strip ⟨185, -1⟩ = ⟨185, -1⟩ := by cbv
  have htext : (Value.float 18.5).toText = .ok "18.5" :=
    congrArg Except.ok ((write_eq_of_shape .plain hshape (by decide)
      (by rw [hshortest, hstrip])).trans (by decide +kernel))
  obtain ⟨s, hs, hagree⟩ := rangeMeters_spelled h
  obtain rfl : s = "18.5" := Except.ok.inj (hs.symm.trans htext)
  have hplain : IsPlain (.float 18.5) := ⟨by decide +kernel, by decide +kernel⟩
  have hblanks : ∀ c ∈ [' '], isBlank c = true := List.forall_mem_singleton.mpr rfl
  have hstops : ∀ c ∈ [' ', 'N', 'M'].head?, isDigit c = false ∧ c ≠ '.' := by
    rintro c ⟨⟩
    exact ⟨rfl, by decide⟩
  exact ⟨h, htext, (hagree ⟨[' '], true, [' ', 'N', 'M'], hblanks, hstops⟩).1.mpr hplain⟩

/-- Not every number and its spelling give the same range: `1e+16` is read as a single mile. -/
theorem not_every_spelling_agrees :
    IsMiles (.float 1e16) 1e16 ∧ (Value.float 1e16).toText = .ok "1e+16" ∧
      rangeMeters (.text "1e+16") = .ok (some 1852.0) ∧
      rangeMeters (.float 1e16) ≠ .ok (some 1852.0) := by
  have h : IsMiles (.float 1e16) 1e16 := ⟨rfl, rfl, by decide +kernel, by decide +kernel⟩
  have hshape : doubleShape 1e16 = .finite false ⟨5000000000000000, 1⟩ := by decide +kernel
  have hshortest : Binary.shortest ⟨5000000000000000, 1⟩ = ⟨1, 16⟩ := by decide +kernel
  have hstrip : Decimal.strip ⟨1, 16⟩ = ⟨1, 16⟩ := by cbv
  have htext : (Value.float 1e16).toText = .ok "1e+16" :=
    congrArg Except.ok ((write_eq_of_shape .plain hshape (by decide)
      (by rw [hshortest, hstrip])).trans (by decide +kernel))
  refine ⟨h, htext, rfl, ?_⟩
  rw [h.rangeMeters_eq]
  decide +kernel

end Seamark.Catalog
