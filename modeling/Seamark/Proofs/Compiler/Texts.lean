import Mathlib
import Seamark.Proofs.Compiler.Returns
import Seamark.Proofs.Decimal.Nearest

/-!
# Texts that have a timeline

A text that is read has a timeline, unless a count of its group has too many digits or is beyond
every double (`compileText_returns_iff`).  Nothing else can be in the way.  The light has a colour
and its group has a first count.  The counts by which a rule divides are positive, and stay so as
doubles, and a period is only divided by the weight of a pattern that is longer
(`NeverUndefined`).

The end of the file gives alternating lights whose groups have any digits, so that a text is found
that the reader accepts and that has no timeline.
-/

namespace Seamark

/-! ### Counts as doubles -/

/-- **A count is a double up to halfway past the largest one.** -/
theorem converts_iff (n : ℕ) : Converts Float n ↔ n + 2 ^ 970 < 2 ^ 1024 := by
  have hconverts : Converts Float n ↔ isFinite (Decimal.toFloat ⟨n, 0⟩) = true := by
    rw [Converts]
    show (∃ x, floatOfCount? n = some x) ↔ _
    simp [floatOfCount?]
  rw [hconverts, Decimal.isFinite_toFloat_natCast, Double.overflow, lt_sub_iff_add_lt]
  exact_mod_cast Iff.rfl

/-- A positive count is a positive double. -/
lemma zero_lt_of_ofCount? {n : ℕ} (hn : 0 < n) {x : Float} (h : Scalar.ofCount? n = some x) :
    0.0 < x := by
  have hx : floatOfCount? n = some x := h
  simp only [floatOfCount?, Option.ite_none_right_eq_some, Option.some.injEq] at hx
  rw [← hx.2]
  exact Decimal.zero_lt_toFloat_natCast hn

/-! ### Periods -/

/-- A period that carries timing is positive. -/
lemma zero_lt_of_timing {text : String} {c : Characteristic Float}
    (hread : Characteristic.read? text = some c) {p : Float} (hp : c.timing = some p) :
    0.0 < p := by
  obtain ⟨d, -, rfl⟩ := Option.map_eq_some_iff.mp hread
  obtain ⟨hperiod, hzero⟩ := Option.filter_eq_some_iff.mp hp
  obtain ⟨decimal, -, rfl⟩ := Option.map_eq_some_iff.mp hperiod
  have hnonzero : isZero (Scalar.ofDecimal decimal : Float) = false := by simpa using hzero
  exact Decimal.zero_lt_toFloat hnonzero

/-- What is above a positive number is positive. -/
lemma zero_lt_of_lt {x y : Float} (hx : 0.0 < x) (hxy : x < y) : 0.0 < y := by
  rw [Double.lt_iff_rank] at hx hxy ⊢
  exact ⟨hx.1, hxy.2.1, hx.2.2.trans hxy.2.2⟩

namespace Compiler

/-! ### Divisors -/

section

variable {α : Type} [Scalar α] {compiler : Compiler α} {table : Table String} {s : Setup α}

/-- The counts by which a slot is divided; the gaps only share what is left if there are some. -/
def slotDivisors (style : SlotStyle) (count : ℕ) : List ℕ :=
  match style with
  | .flashes => if 1 < count then [count, count - 1] else [count]
  | .eclipses | .gaps => [count]

/-- The counts by which the rule of a type divides. -/
def divisors (compiler : Compiler α) (table : Table String) (s : Setup α) :
    Except CompileError (List ℕ) :=
  match s.subject.type with
  | .fixed | .directional | .directionalFixed =>
    .ok (if s.isContinuous then [] else [s.subject.colors.length])
  | .occulting | .groupOcculting => (fun counts => [addedUp counts + counts.length]) <$> s.counts
  | .alternating | .alternatingFlashing | .alternatingOcculting | .alternatingIsophase =>
    (fun counts =>
      (slotCounts counts s.subject.colors).length :: (slotCounts counts s.subject.colors).flatMap
        (slotDivisors (slotStyle s.subject.type))) <$> s.counts
  | .morse => .ok [cycleUnits compiler table s]
  | .flashing | .groupFlashing | .longFlashing | .quick | .veryQuick | .ultraQuick
  | .interruptedQuick | .isophase | .fixedAndFlashing | .flashingFixed => .ok []

lemma slotDivisors_pos {style : SlotStyle} {count : ℕ} (hcount : 0 < count) :
    ∀ n ∈ slotDivisors style count, 0 < n := by
  cases style with
  | flashes =>
    rw [slotDivisors]
    split_ifs with hseveral
    · simp only [List.forall_mem_cons, List.not_mem_nil, IsEmpty.forall_iff, implies_true, and_true]
      omega
    · simpa using hcount
  | eclipses | gaps => simpa [slotDivisors] using hcount

omit [Scalar α] in
/-- No count by which a rule divides is zero. -/
lemma divisors_pos (hcolors : s.subject.colors ≠ []) {ns : List ℕ}
    (h : divisors compiler table s = .ok ns) : ∀ n ∈ ns, 0 < n := by
  have hlength : 0 < s.subject.colors.length := List.length_pos_of_ne_nil hcolors
  cases htype : s.subject.type <;> simp only [divisors, htype, Except.ok.injEq] at h
  case fixed | directional | directionalFixed =>
    subst h
    split_ifs
    · simp
    · simpa using hlength
  case occulting | groupOcculting =>
    obtain ⟨counts, hcounts, rfl⟩ := map_eq_ok_iff.mp h
    have hne := Group.counts_ne_nil (counts_eq_ok_iff.mp hcounts)
    simpa using Nat.add_pos_right _ (List.length_pos_of_ne_nil hne)
  case alternating | alternatingFlashing | alternatingOcculting | alternatingIsophase =>
    obtain ⟨counts, hcounts, rfl⟩ := map_eq_ok_iff.mp h
    have hpos := slotCounts_pos (Group.counts_pos (counts_eq_ok_iff.mp hcounts)) s.subject.colors
    rw [List.forall_mem_cons]
    refine ⟨List.length_pos_of_ne_nil (slotCounts_ne_nil hcolors counts), fun n hn => ?_⟩
    obtain ⟨count, hcount, hmem⟩ := List.mem_flatMap.mp hn
    exact slotDivisors_pos (hpos count hcount) n hmem
  case morse =>
    subst h
    simp [cycleUnits, trailingUnits]
  all_goals
    subst h
    simp

end

/-- The beats of the quick lights. -/
def quickBeats : List (LightType × Float) :=
  [(.quick, 1.0), (.veryQuick, 0.5), (.ultraQuick, 0.25)]

/-- Nothing that a rule does with a light is undefined: no division by zero, no first of nothing and
no beat that is not known. -/
structure NeverUndefined (compiler : Compiler Float) (table : Table String) (s : Setup Float) :
    Prop where
  /-- The light has a first colour, and one for each place in turn. -/
  colors : s.subject.colors ≠ []
  /-- Counts that can be read have a first one, and none is zero. -/
  counts : ∀ counts, s.counts = .ok counts → counts ≠ [] ∧ ∀ n ∈ counts, 0 < n
  /-- The counts by which the rule divides are positive, as numbers too. -/
  divisors : ∀ ns, divisors compiler table s = .ok ns →
    ∀ n ∈ ns, 0 < n ∧ ∀ x : Float, Scalar.ofCount? n = some x → 0.0 < x
  /-- The weight of a pattern is positive if it is longer than the period, which is then divided by
  it. -/
  weight : ∀ period, s.period = some period → ∀ weight, period < weight → 0.0 < weight
  /-- A light that goes by the beat of its type has one. -/
  beat : s.subject.type ∈ [.quick, .veryQuick, .ultraQuick] →
    (s.subject.type, quickBeat s.subject.type) ∈ quickBeats

/-- Nothing is undefined for what the reader accepts. -/
lemma neverUndefined_of_read? {text : String} {c : Characteristic Float}
    (hread : Characteristic.read? text = some c) (compiler : Compiler Float)
    (table : Table String) : NeverUndefined compiler table (Setup.of compiler c) where
  colors := Characteristic.colors_ne_nil_of_read? hread
  counts := by
    intro counts hcounts
    have hgroup := counts_eq_ok_iff.mp hcounts
    exact ⟨Group.counts_ne_nil hgroup, Group.counts_pos hgroup⟩
  divisors := by
    intro ns hns n hn
    have hpos := divisors_pos (Characteristic.colors_ne_nil_of_read? hread) hns n hn
    exact ⟨hpos, fun x hx => zero_lt_of_ofCount? hpos hx⟩
  weight := fun period hperiod weight hlt => zero_lt_of_lt (zero_lt_of_timing hread hperiod) hlt
  beat := by
    intro htype
    simp only [List.mem_cons, List.not_mem_nil, or_false] at htype
    rcases htype with h | h | h <;> rw [h] <;> simp [quickBeats, quickBeat]

/-! ### Texts -/

/-- **When a text has a timeline.**  What the reader accepts is compiled, unless a count of its
group has too many digits to be read or is too large to be turned into a number.  A number is too
large exactly from halfway past the largest double on, and nothing else is in the way. -/
theorem compileText_returns_iff {text : String} {c : Characteristic Float}
    (hread : Characteristic.read? text = some c) (shared : Table String) :
    ((∃ ts : Timeline Float, Compiler.standard.compileText shared text = .ok ts) ↔
        ∃ ns, conversions Compiler.standard shared (Setup.of Compiler.standard c) = .ok ns ∧
          ∀ n ∈ ns, Converts Float n) ∧
      (∀ n, Converts Float n ↔ n + 2 ^ 970 < 2 ^ 1024) ∧
      NeverUndefined Compiler.standard shared (Setup.of Compiler.standard c) := by
  refine ⟨?_, converts_iff, neverUndefined_of_read? hread Compiler.standard shared⟩
  rw [compileText_of_read? hread]
  exact exists_applyRule_iff (Characteristic.colors_ne_nil_of_read? hread)

/-- A group of two is cut into three slots. -/
theorem occulting_text_returns_iff :
    (Characteristic.read? "Oc(2) W 6s" : Option (Characteristic Float)) =
        some ⟨.occulting, some "2", ["W"], some 6.0⟩ ∧
      ((∃ ts : Timeline Float,
          Compiler.standard.compileText Morse.builtin "Oc(2) W 6s" = .ok ts) ↔
        ∃ ns, conversions Compiler.standard Morse.builtin
            (Setup.of Compiler.standard ⟨.occulting, some "2", ["W"], some (6.0 : Float)⟩) = .ok ns ∧
          ∀ n ∈ ns, Converts Float n) ∧
      (∀ n, Converts Float n ↔ n + 2 ^ 970 < 2 ^ 1024) ∧
      NeverUndefined Compiler.standard Morse.builtin
        (Setup.of Compiler.standard ⟨.occulting, some "2", ["W"], some 6.0⟩) ∧
      divisors Compiler.standard Morse.builtin
        (Setup.of Compiler.standard ⟨.occulting, some "2", ["W"], some (6.0 : Float)⟩) = .ok [3] := by
  have hread : (Characteristic.read? "Oc(2) W 6s" : Option (Characteristic Float)) =
      some ⟨.occulting, some "2", ["W"], some 6.0⟩ := by
    decide +kernel
  obtain ⟨hreturns, hsizes, hdefined⟩ := compileText_returns_iff hread Morse.builtin
  exact ⟨hread, hreturns, hsizes, hdefined, by decide +kernel⟩

/-! ### Groups of any digits -/

section

open Characteristic Text

/-- The layout of an alternating light with some digits for its group. -/
def alternatingLayout (digits : List Char) : Layout where
  token := ['A', 'l']
  group := some digits
  colors := [['W'], ['R']]
  period := some ⟨['1', '0'], none, ['s']⟩

variable {digits : List Char}

lemma alternatingLayout_valid (hne : digits ≠ [])
    (hdigits : ∀ d ∈ digits, Group.isPlainDigit d = true) : (alternatingLayout digits).Valid where
  token := ⟨.alternating, by
    simp [alternatingLayout, LightType.spelling, SpellsAll, Spells, SameLetter]⟩
  known := by
    have hknown : (LightType.ofToken? (String.ofList ['A', 'l'])).isSome = true := by decide +kernel
    exact hknown
  group := by
    intro g hg
    obtain rfl := Option.some.inj hg
    refine ⟨hne, fun hclose => ?_⟩
    have hdigit := hdigits ')' hclose
    revert hdigit
    decide
  colors_ne := by simp [alternatingLayout]
  colors := by simp [alternatingLayout, colorNames, Spells, SameLetter]
  period := by
    intro p hp
    obtain rfl := Option.some.inj hp
    refine ⟨?_, by decide, Or.inr (by simp [Spells, SameLetter])⟩
    intro c hc
    obtain rfl | rfl : c = '1' ∨ c = '0' := by
      simpa [WrittenPeriod.decimals] using hc
    all_goals decide

lemma settle_alternatingLayout (hdigits : ∀ d ∈ digits, Group.isPlainDigit d = true) :
    settle (alternatingLayout digits).chars = (alternatingLayout digits).chars := by
  have hblank : ∀ d ∈ digits, isBlank d = false := fun d hd =>
    Group.not_isBlank_of_isPlainDigit (hdigits d hd)
  have hwords : (alternatingLayout digits).words = [['W'], ['R'], ['1', '0', 's']] := rfl
  refine Layout.settle_chars (by simp [hwords]) ?_
  rw [hwords, List.forall_mem_cons]
  have hplain : ∀ w ∈ [['W'], ['R'], ['1', '0', 's']], w ≠ [] ∧ ∀ c ∈ w, isBlank c = false := by
    simp only [List.forall_mem_cons, List.not_mem_nil, IsEmpty.forall_iff, implies_true, and_true]
    decide
  refine ⟨⟨by simp [alternatingLayout], ?_⟩, hplain⟩
  intro c hc
  simp only [alternatingLayout, Layout.groupChars, Option.elim_some, List.cons_append,
    List.nil_append, List.mem_cons, List.mem_append, List.not_mem_nil, or_false] at hc
  rcases hc with rfl | rfl | rfl | hc | rfl
  case inr.inr.inr.inl => exact hblank c hc
  all_goals decide

/-- An alternating light with any plain digits for its group is read. -/
lemma read?_alternatingLayout {α : Type} [Scalar α] (hne : digits ≠ [])
    (hdigits : ∀ d ∈ digits, Group.isPlainDigit d = true) :
    read? (String.ofList (alternatingLayout digits).chars) =
      some (⟨.alternating, some (String.ofList digits), ["W", "R"],
        some (Scalar.ofDecimal ⟨10, 0⟩)⟩ : Characteristic α) := by
  have hl : (alternatingLayout digits).IsOf
      (settle (String.ofList (alternatingLayout digits).chars).toList) := by
    refine ⟨alternatingLayout_valid hne hdigits, ?_⟩
    rw [String.toList_ofList, settle_alternatingLayout hdigits]
  have htype : LightType.ofToken? (String.ofList ['A', 'l']) = some .alternating := by
    decide +kernel
  have hdenotes : (alternatingLayout digits).Denotes id
      ⟨.alternating, some (String.ofList digits), ["W", "R"], some ⟨10, 0⟩⟩ :=
    ⟨htype, rfl, by simp [alternatingLayout, colorNames, Spells, SameLetter], rfl⟩
  exact read?_of_isOf hl hdenotes

/-- The reader accepts a group of more digits than can be read, and the text has no timeline. -/
theorem overlong_group_not_compiled :
    (∃ c : Characteristic Float,
        read? (String.ofList (alternatingLayout (List.replicate 4301 '1')).chars) = some c) ∧
      (Compiler.standard : Compiler Float).compileText Morse.builtin
          (String.ofList (alternatingLayout (List.replicate 4301 '1')).chars) =
        .error (.tooManyDigits ⟨4301⟩) := by
  have hne : List.replicate 4301 '1' ≠ [] := by
    rw [ne_eq, List.replicate_eq_nil_iff]
    decide
  have hread := read?_alternatingLayout (α := Float) hne Group.isPlainDigit_of_mem_ones
  refine ⟨⟨_, hread⟩, ?_⟩
  rw [compileText, hread]
  exact compile_of_counts_eq_error rfl (by simp) rfl (Group.counts_ones (by decide))

end

end Compiler

end Seamark
