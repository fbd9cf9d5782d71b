import Mathlib
import Seamark.Proofs.Compiler.MorseReading

/-!
# The time of a Morse light

With exact times, three cases decide how long the cycle of a Morse light lasts.  If the period
leaves room for six more units after the symbols, the unit is the one that fills it, and the six
units end the cycle.  Otherwise the unit is at its floor, and either some time is left, which the
cycle takes up to its period, or the symbols alone take longer than the period and are all there is.
In no case is a segment shorter than the floor: time that is left is added to the last gap unless it
is long enough for a segment of its own, and what is too short to be shown is lost.
-/

namespace Seamark

namespace Compiler

open Morse

variable {unit last left period : Rat} {color : String} {xs : List Symbol} {p : Segment Rat}

/-- Symbols last for their units, but for the last gap. -/
lemma total_sentCode (hne : xs ≠ []) :
    (sentCode unit last color xs).total = spacedUnits xs * unit + (last - unit) := by
  induction xs with
  | nil => exact absurd rfl hne
  | cons x xs ih =>
    have hcons (ys : List Symbol) :
        ((spacedUnits (x :: ys) : Nat) : Rat) = x.units + 1 + spacedUnits ys := by
      simp [spacedUnits]
    have hlit : (lit (x.units * unit) color).duration = x.units * unit := rfl
    have hgap (gap : Rat) : (unlit gap color).duration = gap := rfl
    rw [hcons]
    cases xs with
    | nil =>
      simp only [sentCode, Timeline.total_cons, hlit, hgap]
      simp [Timeline.total_rat, spacedUnits]
      ring
    | cons y xs =>
      rw [sentCode, Timeline.total_cons, Timeline.total_cons, ih (by simp), hlit, hgap]
      ring

/-- The last symbol and its gap stand at the end. -/
lemma sentCode_concat (ys : List Symbol) (y : Symbol) :
    sentCode unit last color (ys ++ [y]) =
      sentCode unit unit color ys ++ [lit (y.units * unit) color, unlit last color] := by
  induction ys with
  | nil => rfl
  | cons x xs ih =>
    cases xs with
    | nil => rfl
    | cons z xs =>
      have hcons : x :: z :: xs ++ [y] = x :: z :: (xs ++ [y]) := rfl
      rw [hcons, sentCode, sentCode]
      exact congrArg (fun ts => lit (x.units * unit) color :: unlit unit color :: ts) ih

/-! ### The time that is left -/

lemma closing_of_lt (hne : xs ≠ []) (hleft : left < 1 / 20) : closing left color xs = [] := by
  rw [closing, if_neg fun h => h.elim (not_le.mpr hleft) hne]

lemma closing_of_le (hleft : 1 / 20 ≤ left) : closing left color xs = [unlit left color] := by
  rw [closing, if_pos (.inl hleft), shown_unlit_of_lt (shortest_lt_floor.trans_le hleft)]

lemma lastGap_of_le (hleft : 1 / 20 ≤ left) : lastGap unit left = unit := by
  rw [lastGap, if_neg fun h => not_lt.mpr hleft h.2]

/-- The last gap and the segment after it take up the time that is left, if it can be shown. -/
lemma lastGap_add_closing (hne : xs ≠ []) (unit left : Rat) (color : String) :
    lastGap unit left - unit + (closing left color xs).total =
      if shortest < left then left else 0 := by
  have hnone : Timeline.total ([] : Timeline Rat) = 0 := by simp [Timeline.total_rat]
  rcases le_or_gt (1 / 20) left with hlong | hshort
  · rw [lastGap_of_le hlong, closing_of_le hlong, if_pos (shortest_lt_floor.trans_le hlong),
      Timeline.total_cons, hnone, unlit]
    ring
  · rw [closing_of_lt hne hshort, hnone, lastGap]
    split_ifs with h hlong hlong
    · ring
    · exact absurd h.1 hlong
    · exact absurd ⟨hlong, hshort⟩ h
    · ring

lemma total_codeCycle (hne : xs ≠ []) (period : Rat) (color : String) :
    (codeCycle period color xs).total = spacedUnits xs * codeUnit period xs +
      if shortest < timeLeft period xs then timeLeft period xs else 0 := by
  rw [codeCycle, Timeline.total_append, total_sentCode hne,
    ← lastGap_add_closing hne (codeUnit period xs) _ color]
  ring

/-- A cycle lasts its period, or its symbols if they take longer, but for time too short to be
shown. -/
lemma total_codeCycle_bounds (hne : xs ≠ []) (period : Rat) (color : String) :
    (codeCycle period color xs).total ≤ max period (spacedUnits xs * codeUnit period xs) ∧
      max period (spacedUnits xs * codeUnit period xs) ≤
        (codeCycle period color xs).total + shortest := by
  have hperiod : period = spacedUnits xs * codeUnit period xs + timeLeft period xs := by
    rw [timeLeft]
    ring
  have hpositive : (0 : Rat) < shortest := shortest_pos
  rw [total_codeCycle hne]
  split_ifs with hlong
  · rw [← hperiod]
    refine ⟨le_max_left _ _, max_le ?_ ?_⟩ <;> linarith
  · rw [add_zero]
    refine ⟨le_max_right _ _, max_le ?_ ?_⟩ <;> linarith [not_lt.mp hlong]

/-- Nothing in a cycle with a symbol is shorter than a twentieth of a second. -/
lemma floor_le_of_mem_codeCycle (hne : xs ≠ []) (hp : p ∈ codeCycle period color xs) :
    1 / 20 ≤ p.duration := by
  have hfloor := floor_le_codeUnit period xs
  rw [codeCycle] at hp
  rcases List.mem_append.mp hp with hp | hp
  · exact hfloor.trans
      (unit_le_of_mem_sentCode (by linarith) (lastGap_bounds hfloor _).1 hp)
  · rcases le_or_gt (1 / 20) (timeLeft period xs) with hlong | hshort
    · rw [closing_of_le hlong] at hp
      rw [List.mem_singleton.mp hp]
      exact hlong
    · rw [closing_of_lt hne hshort] at hp
      cases hp

/-! ### Periods with room for a pause -/

/-- A cycle ends with a light and a pause of seven units, and no darkness before that is as long. -/
def EndsInPause (unit : Rat) (cycle : Timeline Rat) : Prop :=
  ∃ sent light pause, cycle = sent ++ light :: pause ∧ light.lit = true ∧
    (∀ p ∈ pause, p.lit = false) ∧ Timeline.total pause = 7 * unit ∧
    ∀ p ∈ sent, p.lit = false → p.duration < 7 * unit

/-- In a period with room for it, six units are left. -/
lemma timeLeft_of_le (hroom : 1 / 20 * (spacedUnits xs + 6 : Nat) ≤ period) :
    timeLeft period xs = 6 * codeUnit period xs := by
  have hunits : (0 : Rat) < (spacedUnits xs + 6 : Nat) := by positivity
  have hunit : codeUnit period xs = period / (spacedUnits xs + 6 : Nat) :=
    max_eq_right ((le_div_iff₀ hunits).mpr hroom)
  have hperiod : period = (spacedUnits xs + 6 : Nat) * codeUnit period xs := by
    rw [hunit, mul_div_cancel₀ _ hunits.ne']
  push_cast at hperiod
  rw [timeLeft]
  linarith

/-- The six units follow the last gap as a segment of their own. -/
lemma codeCycle_of_le (color : String) (hroom : 1 / 20 * (spacedUnits xs + 6 : Nat) ≤ period) :
    codeCycle period color xs = sentCode (codeUnit period xs) (codeUnit period xs) color xs
      ++ [unlit (6 * codeUnit period xs) color] := by
  have hfloor := floor_le_codeUnit period xs
  have hleft := timeLeft_of_le hroom
  have hlong : 1 / 20 ≤ timeLeft period xs := by linarith
  rw [codeCycle, lastGap_of_le hlong, closing_of_le hlong, hleft]

/-- With the last gap, six units are a pause of seven. -/
lemma sentCode_endsInPause (hne : xs ≠ []) (hunit : 0 < unit) (color : String) :
    EndsInPause unit (sentCode unit unit color xs ++ [unlit (6 * unit) color]) := by
  obtain ⟨ys, y, rfl⟩ : ∃ ys y, xs = ys ++ [y] :=
    ⟨xs.dropLast, xs.getLast hne, (List.dropLast_append_getLast hne).symm⟩
  refine ⟨sentCode unit unit color ys, lit (y.units * unit) color,
    [unlit unit color, unlit (6 * unit) color], ?_, rfl, ?_, ?_, ?_⟩
  · rw [sentCode_concat, List.append_assoc]
    rfl
  · intro p hp
    simp only [List.mem_cons, List.not_mem_nil, or_false] at hp
    rcases hp with rfl | rfl <;> rfl
  · simp only [Timeline.total_cons, unlit]
    simp [Timeline.total_rat]
    ring
  · intro p hp hdark
    rcases mem_sentCode hp with ⟨x, -, rfl⟩ | rfl | rfl
    · cases hdark
    · show unit < 7 * unit
      linarith
    · show unit < 7 * unit
      linarith

/-- A cycle keeps the time of symbols that are sent by some unit within a period. -/
structure KeepsTime (period : Rat) (xs : List Symbol) (unit : Rat) (cycle : Timeline Rat) :
    Prop where
  /-- The unit fills the period with the symbols and a pause, but it has a floor. -/
  unit_eq : unit = max (1 / 20) (period / (spacedUnits xs + 6 : Nat))
  /-- Every segment can be seen. -/
  visible : ∀ p ∈ cycle, 1 / 20 ≤ p.duration
  /-- The cycle is no longer than its period or its symbols. -/
  total_le : cycle.total ≤ max period (spacedUnits xs * unit)
  /-- It is no shorter, but for time too short to be shown. -/
  le_total : max period (spacedUnits xs * unit) ≤ cycle.total + shortest
  /-- A period with room for a pause is filled, and the pause is there. -/
  fills : 1 / 20 * (spacedUnits xs + 6 : Nat) ≤ period →
    cycle.total = period ∧ EndsInPause unit cycle

lemma codeCycle_keepsTime (hne : xs ≠ []) (period : Rat) (color : String) :
    KeepsTime period xs (codeUnit period xs) (codeCycle period color xs) where
  unit_eq := rfl
  visible _ hp := floor_le_of_mem_codeCycle hne hp
  total_le := (total_codeCycle_bounds hne period color).1
  le_total := (total_codeCycle_bounds hne period color).2
  fills := by
    intro hroom
    have hfloor := floor_le_codeUnit period xs
    have hleft := timeLeft_of_le hroom
    have hlong : shortest < timeLeft period xs := by linarith [shortest_lt_floor]
    refine ⟨by rw [total_codeCycle hne, if_pos hlong, timeLeft, add_sub_cancel], ?_⟩
    rw [codeCycle_of_le color hroom]
    exact sentCode_endsInPause hne (by linarith) color

variable {compiler : Compiler Rat} {c : Characteristic Rat}

/-- A Morse light has a cycle only if it has a colour. -/
lemma colors_ne_nil_of_compile {shared : Table String} (hrule : c.type ∉ compiler.withoutRule)
    (htype : c.type = .morse) {cycle : Timeline Rat}
    (hcycle : compiler.compile shared (some c) = .ok cycle) : c.colors ≠ [] := by
  intro hcolors
  have hnone : (Setup.of compiler c).firstColor = .error .noFirstColor := by
    rw [Setup.firstColor, Setup.of, hcolors]
  have hsubject : (Setup.of compiler c).subject = c := rfl
  rw [compile_eq_applyRule shared hrule] at hcycle
  simp only [applyRule, hsubject, htype, morse, hnone] at hcycle
  cases hcycle

/-- **The time of a Morse light.**  A light with a colour has a cycle, and if it sends a symbol, no
segment lasts less than a twentieth of a second.  The cycle lasts as long as the period or as the
symbols, whichever is longer, but for time too short to be shown.  A period with room for a pause is
filled exactly: the cycle ends with seven dark units, more than there are anywhere else. -/
theorem compile_keeps_time (shared : Table String) (hrule : c.type ∉ compiler.withoutRule)
    (htype : c.type = .morse) {code : String}
    (hcode : SendsCode compiler (compiler.tableWith shared) c.group code)
    (hsymbols : symbols code ≠ []) :
    (c.colors ≠ [] → ∃ cycle, compiler.compile shared (some c) = .ok cycle) ∧
      ∀ cycle, compiler.compile shared (some c) = .ok cycle →
        ∃ unit, KeepsTime (Setup.of compiler c).safePeriod (symbols code) unit cycle := by
  refine ⟨fun hcolors => ⟨_, compile_eq_codeCycle hrule htype hcolors hcode⟩, ?_⟩
  intro cycle hcycle
  have hcolors := colors_ne_nil_of_compile hrule htype hcycle
  obtain rfl := Except.ok.inj
    ((compile_eq_codeCycle hrule htype hcolors hcode).symm.trans hcycle)
  exact ⟨_, codeCycle_keepsTime hsymbols _ _⟩

/-- The letter A in the shortest period with room for a pause. -/
theorem hurried_letter_keeps_time :
    SendsCode (Compiler.standard : Compiler Rat) Morse.builtin (some "A") ".-" ∧
      symbols ".-" ≠ [] ∧
      Compiler.standard.compile Morse.builtin (some ⟨.morse, some "A", ["W"], some (3 / 5 : Rat)⟩) =
        .ok [lit (1 / 20) "W", unlit (1 / 20) "W", lit (3 / 20) "W", unlit (1 / 20) "W",
          unlit (3 / 10) "W"] ∧
      EndsInPause (1 / 20) [lit (1 / 20) "W", unlit (1 / 20) "W", lit (3 / 20) "W",
        unlit (1 / 20) "W", unlit (3 / 10) "W"] := by
  have hrule : .morse ∉ (Compiler.standard : Compiler Rat).withoutRule := by
    simp [Compiler.standard]
  have hsent : SendsCode (Compiler.standard : Compiler Rat) Morse.builtin (some "A") ".-" :=
    ⟨"A", .named (by decide) (by decide +kernel), .entry (by decide +kernel)⟩
  have hsymbols : symbols ".-" ≠ [] := by decide
  have hcompile : Compiler.standard.compile Morse.builtin
      (some ⟨.morse, some "A", ["W"], some (3 / 5 : Rat)⟩) =
        .ok [lit (1 / 20) "W", unlit (1 / 20) "W", lit (3 / 20) "W", unlit (1 / 20) "W",
          unlit (3 / 10) "W"] := by decide +kernel
  obtain ⟨unit, hkeeps⟩ :=
    (compile_keeps_time (c := ⟨.morse, some "A", ["W"], some (3 / 5)⟩) Morse.builtin hrule rfl
      hsent hsymbols).2 _ hcompile
  have hunit : unit = 1 / 20 := hkeeps.unit_eq.trans (by decide +kernel)
  have hroom : 1 / 20 * ((spacedUnits (symbols ".-") + 6 : Nat) : Rat) ≤
      (Setup.of Compiler.standard
        (⟨.morse, some "A", ["W"], some (3 / 5)⟩ : Characteristic Rat)).safePeriod := by
    decide +kernel
  exact ⟨hsent, hsymbols, hcompile, hunit ▸ (hkeeps.fills hroom).2⟩

end Compiler

end Seamark
