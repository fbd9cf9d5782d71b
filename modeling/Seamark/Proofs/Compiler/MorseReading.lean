import Mathlib
import Seamark.Proofs.Compiler.Shares

/-!
# Reading a Morse light

With exact times, the cycle of a Morse light is told by its symbols, its period and its colour.  A
symbol is lit for one unit or for three and is followed by one dark unit; the time that is left ends
the cycle as a segment of its own, or makes the last gap longer if it is too short for one
(`codeCycle`).

Such a last gap stays shorter than two units.  So a dot is never longer than the darkness right
after it and a dash always is, which is enough to read the symbols off the cycle without knowing the
unit (`readSymbols_codeCycle`).
-/

namespace Seamark

namespace Morse

/-- A symbol of the Morse alphabet. -/
inductive Symbol where
  /-- A short light. -/
  | dot
  /-- A long light. -/
  | dash
deriving DecidableEq, Repr

namespace Symbol

/-- The symbol that a character of a code stands for; other characters stand for none. -/
def ofChar? : Char → Option Symbol
  | '.' => some dot
  | '-' => some dash
  | _ => none

/-- The units for which a symbol is lit. -/
def units : Symbol → Nat
  | dot => 1
  | dash => 3

lemma units_pos (x : Symbol) : 0 < x.units := by
  cases x <;> decide

end Symbol

/-- The dots and dashes of a code. -/
def symbols (code : String) : List Symbol := code.toList.filterMap Symbol.ofChar?

/-- The units of symbols, each with the dark one after it. -/
def spacedUnits (xs : List Symbol) : Nat := (xs.map fun x => x.units + 1).sum

/-- A table gives a code for a character: its entry, else the entry of its capital, else the letter
A. -/
inductive IsCode (table : Table String) (character : String) : String → Prop
  | entry {code : String} : table.get? character = some code → IsCode table character code
  | capital {code : String} : table.get? character = none →
      table.get? (Text.upper character) = some code → IsCode table character code
  | unknown : table.get? character = none → table.get? (Text.upper character) = none →
      IsCode table character ".-"

lemma isCode_iff {table : Table String} {character code : String} :
    IsCode table character code ↔ code = lookup table character := by
  rw [lookup]
  constructor
  · rintro (hentry | ⟨hnone, hcapital⟩ | ⟨hnone, hunknown⟩)
    · rw [hentry]
    · rw [hnone, hcapital, Option.getD_some]
    · rw [hnone, hunknown, Option.getD_none, fallbackCode]
  · rintro rfl
    cases hentry : table.get? character with
    | some code => exact .entry hentry
    | none =>
      cases hcapital : table.get? (Text.upper character) with
      | some code => exact .capital hentry hcapital
      | none => exact .unknown hentry hcapital

end Morse

namespace Compiler

open Morse

variable {compiler : Compiler Rat} {table shared : Table String}

/-- A light sends a character for a group: the text of the group without the blanks around it, or
the default character if there is none. -/
inductive IsSent (compiler : Compiler Rat) (group : Option String) : String → Prop
  | named {character : String} : character.toList ≠ [] →
      character.toList = Text.trim (group.getD "").toList → IsSent compiler group character
  | unnamed : Text.trim (group.getD "").toList = [] →
      IsSent compiler group compiler.defaultCharacter

/-- A light sends a code for a group. -/
def SendsCode (compiler : Compiler Rat) (table : Table String) (group : Option String)
    (code : String) : Prop :=
  ∃ character, IsSent compiler group character ∧ IsCode table character code

lemma isSent_iff {s : Setup Rat} {character : String} :
    IsSent compiler s.subject.group character ↔ character = sentCharacter compiler s := by
  rw [sentCharacter]
  constructor
  · rintro (⟨hne, hnamed⟩ | hunnamed)
    · have hempty : (Text.trim (s.subject.group.getD "").toList).isEmpty = false := by
        rw [← hnamed]
        exact List.isEmpty_eq_false_iff.mpr hne
      rw [hempty, ← hnamed, String.ofList_toList]
      rfl
    · rw [hunnamed]
      rfl
  · rintro rfl
    by_cases hempty : Text.trim (s.subject.group.getD "").toList = []
    · rw [hempty]
      exact .unnamed hempty
    · refine .named ?_ ?_ <;> simp [hempty]

lemma sendsCode_iff {s : Setup Rat} {code : String} :
    SendsCode compiler table s.subject.group code ↔
      code = lookup table (sentCharacter compiler s) := by
  simp only [SendsCode, isSent_iff, isCode_iff, exists_eq_left]

/-! ### The cycle of a code -/

/-- The segments of symbols: each is lit for its units, with one dark unit after it, and the gap
after the last one has a length of its own. -/
def sentCode (unit last : Rat) (color : String) : List Symbol → Timeline Rat
  | [] => []
  | [x] => [lit (x.units * unit) color, unlit last color]
  | x :: y :: xs =>
    lit (x.units * unit) color :: unlit unit color :: sentCode unit last color (y :: xs)

/-- The unit that makes symbols and the darkness after them last the period, but no shorter than a
twentieth of a second. -/
def codeUnit (period : Rat) (xs : List Symbol) : Rat :=
  max (1 / 20) (period / (spacedUnits xs + 6 : Nat))

/-- The time of the period that is left after symbols. -/
def timeLeft (period : Rat) (xs : List Symbol) : Rat :=
  period - spacedUnits xs * codeUnit period xs

/-- The gap after the last symbol.  It takes up time that is too short for a segment. -/
def lastGap (unit left : Rat) : Rat :=
  if shortest < left ∧ left < 1 / 20 then unit + left else unit

/-- The darkness that ends a cycle: time that is long enough for a segment, or all there is if
nothing is sent. -/
def closing (left : Rat) (color : String) (xs : List Symbol) : Timeline Rat :=
  if 1 / 20 ≤ left ∨ xs = [] then shown [unlit left color] else []

/-- The cycle of a light that sends symbols. -/
def codeCycle (period : Rat) (color : String) (xs : List Symbol) : Timeline Rat :=
  sentCode (codeUnit period xs) (lastGap (codeUnit period xs) (timeLeft period xs)) color xs
    ++ closing (timeLeft period xs) color xs

variable {unit last left : Rat} {color : String} {xs : List Symbol} {p : Segment Rat}

lemma minUnit_rat : (minUnit : Rat) = 1 / 20 := by norm_num [minUnit]

lemma shortest_lt_floor : (shortest : Rat) < 1 / 20 := by norm_num [shortest_rat]

lemma floor_le_codeUnit (period : Rat) (xs : List Symbol) : 1 / 20 ≤ codeUnit period xs :=
  le_max_left _ _

/-- The last gap is no shorter than the others and shorter than two of them. -/
lemma lastGap_bounds (hunit : 1 / 20 ≤ unit) (left : Rat) :
    unit ≤ lastGap unit left ∧ lastGap unit left < 2 * unit := by
  rw [lastGap]
  split_ifs with hshort
  · constructor <;> linarith [hshort.1, hshort.2, shortest_pos]
  · constructor <;> linarith

lemma sentCode_eq_nil_iff : sentCode unit last color xs = [] ↔ xs = [] := by
  rcases xs with - | ⟨x, - | ⟨y, xs⟩⟩ <;> simp [sentCode]

/-- A segment of symbols is one of their lights, a gap, or the last gap. -/
lemma mem_sentCode (hp : p ∈ sentCode unit last color xs) :
    (∃ x ∈ xs, p = lit (x.units * unit) color) ∨ p = unlit unit color ∨ p = unlit last color := by
  induction xs with
  | nil => simp [sentCode] at hp
  | cons x xs ih =>
    cases xs with
    | nil =>
      simp only [sentCode, List.mem_cons, List.not_mem_nil, or_false] at hp
      rcases hp with rfl | rfl
      · exact .inl ⟨x, List.mem_cons_self, rfl⟩
      · exact .inr (.inr rfl)
    | cons y xs =>
      rw [sentCode, List.mem_cons, List.mem_cons] at hp
      rcases hp with rfl | rfl | hp
      · exact .inl ⟨x, List.mem_cons_self, rfl⟩
      · exact .inr (.inl rfl)
      · rcases ih hp with ⟨z, hz, rfl⟩ | hgap
        · exact .inl ⟨z, List.mem_cons_of_mem x hz, rfl⟩
        · exact .inr hgap

/-- Nothing of symbols is shorter than the unit. -/
lemma unit_le_of_mem_sentCode (hunit : 0 < unit) (hlast : unit ≤ last)
    (hp : p ∈ sentCode unit last color xs) : unit ≤ p.duration := by
  rcases mem_sentCode hp with ⟨x, -, rfl⟩ | rfl | rfl
  · have hunits : (1 : Rat) ≤ x.units := by exact_mod_cast x.units_pos
    exact le_mul_of_one_le_left hunit.le hunits
  · exact le_refl unit
  · exact hlast

/-- The lights of symbols, in order. -/
lemma filter_lit_sentCode :
    (sentCode unit last color xs).filter (·.lit) = xs.map fun x => lit (x.units * unit) color := by
  induction xs with
  | nil => rfl
  | cons x xs ih =>
    cases xs with
    | nil => rfl
    | cons y xs =>
      rw [sentCode, List.filter_cons_of_pos (by rfl), List.filter_cons_of_neg (by simp [unlit]), ih]
      rfl

/-! ### What the rule shows -/

lemma codeUnits_eq (code : String) : codeUnits code = (symbols code).map Symbol.units := by
  have hunits : symbolUnits? = fun c => (Symbol.ofChar? c).map Symbol.units := by
    funext c
    simp only [symbolUnits?, Symbol.ofChar?]
    split
    · rfl
    · rfl
    · simp
  rw [codeUnits, symbols, hunits, List.map_filterMap]

lemma addedUp_units (xs : List Symbol) :
    addedUp (xs.map Symbol.units) + (xs.map Symbol.units).length = spacedUnits xs := by
  induction xs with
  | nil => rfl
  | cons x xs ih =>
    have hcons : spacedUnits (x :: xs) = x.units + 1 + spacedUnits xs := rfl
    rw [List.map_cons, addedUp, List.length_cons, hcons, ← ih]
    omega

/-- Before the cycle is closed, all gaps are alike. -/
lemma symbolPieces_eq_sentCode (unit : Rat) (color : String) (xs : List Symbol) :
    symbolPieces unit color (xs.map Symbol.units) = sentCode unit unit color xs := by
  have htime (n : Nat) : unitsTime unit n = n * unit := rfl
  have hone : unitsTime unit 1 = unit := by rw [htime, Nat.cast_one, one_mul]
  induction xs with
  | nil => rfl
  | cons x xs ih =>
    rw [symbolPieces, List.map_cons, List.flatMap_cons, ← symbolPieces, ih, hone, htime]
    cases xs <;> rfl

lemma stretchLast_sentCode (left : Rat) :
    stretchLast left (sentCode unit last color xs) = sentCode unit (last + left) color xs := by
  induction xs with
  | nil => rfl
  | cons x xs ih =>
    cases xs with
    | nil => rfl
    | cons y xs =>
      -- the rest is not empty, so that its last segment is the one that is made longer
      obtain ⟨p, ts, hrest⟩ : ∃ p ts, sentCode unit last color (y :: xs) = p :: ts :=
        List.exists_cons_of_ne_nil (by simp [sentCode_eq_nil_iff])
      rw [sentCode, sentCode, ← ih, hrest]
      rfl

/-- A cycle is closed by a segment of its own or by a longer last gap. -/
lemma closeCycle_sentCode (unit left : Rat) (color : String) (xs : List Symbol) :
    closeCycle left color (sentCode unit unit color xs) =
      sentCode unit (lastGap unit left) color xs ++ closing left color xs := by
  have hempty : (sentCode unit unit color xs).isEmpty = true ↔ xs = [] := by
    rw [List.isEmpty_iff, sentCode_eq_nil_iff]
  simp only [closeCycle, closing, minUnit_rat, hempty, dark_eq_shown]
  split_ifs with hown hlong
  · -- a segment of its own, or nothing but darkness
    rcases hown with hlong | rfl
    · rw [lastGap, if_neg fun h => not_lt.mpr hlong h.2]
    · rfl
  · have hshort : left < 1 / 20 := not_le.mp fun h => hown (.inl h)
    rw [stretchLast_sentCode, lastGap, if_pos ⟨hlong, hshort⟩, List.append_nil]
  · rw [lastGap, if_neg fun h => hlong h.1, List.append_nil]

/-- The rule for Morse lights shows the cycle of the symbols of the code that is sent. -/
lemma morse_eq_codeCycle {s : Setup Rat} (hcolors : s.subject.colors ≠ []) {code : String}
    (hcode : SendsCode compiler table s.subject.group code) :
    morse compiler table s =
      .ok (codeCycle s.safePeriod (colorAt s.subject.colors 0) (symbols code)) := by
  obtain rfl := sendsCode_iff.mp hcode
  obtain ⟨xs, hxs⟩ : ∃ xs, xs = symbols (lookup table (sentCharacter compiler s)) := ⟨_, rfl⟩
  have hunit : greater minUnit (s.safePeriod / ((spacedUnits xs + trailingUnits : Nat) : Rat)) =
      codeUnit s.safePeriod xs := by
    rw [greater_rat, minUnit_rat]
    rfl
  have hshown : symbolSegments (codeUnit s.safePeriod xs) (colorAt s.subject.colors 0)
      (xs.map Symbol.units) =
        sentCode (codeUnit s.safePeriod xs) (codeUnit s.safePeriod xs)
          (colorAt s.subject.colors 0) xs := by
    have hfloor := floor_le_codeUnit s.safePeriod xs
    rw [symbolSegments_eq_shown, symbolPieces_eq_sentCode]
    refine shown_eq_self fun p hp => shortest_lt_floor.trans_le (hfloor.trans ?_)
    exact unit_le_of_mem_sentCode (by linarith) (le_refl _) hp
  rw [morse, firstColor_eq hcolors, codeUnits_eq, ← hxs]
  simp only [bind, Except.bind, addedUp_units, countNumber_eq, hunit, hshown, closeCycle_sentCode]
  rfl

/-! ### Reading the symbols -/

/-- The symbols of a cycle: a light with darkness after it is a dot if it is no longer than that
darkness, and else a dash. -/
def readSymbols : Timeline Rat → List Symbol
  | ⟨true, on, _, _⟩ :: ⟨false, off, _, _⟩ :: ts =>
    (if on ≤ off then .dot else .dash) :: readSymbols ts
  | _ => []

lemma readSymbols_lit_unlit {gap : Rat} (hunit : 0 < unit) (hgap : unit ≤ gap)
    (hshort : gap < 2 * unit) (x : Symbol) (ts : Timeline Rat) :
    readSymbols (lit (x.units * unit) color :: unlit gap color :: ts) = x :: readSymbols ts := by
  rw [lit, unlit, readSymbols]
  cases x with
  | dot => rw [if_pos (by simpa [Symbol.units] using hgap)]
  | dash => rw [if_neg (by simp only [Symbol.units]; push_cast; linarith)]

/-- Symbols are read as they were sent, whatever darkness ends the cycle. -/
lemma readSymbols_sentCode (hunit : 0 < unit) (hlast : unit ≤ last) (hshort : last < 2 * unit)
    {rest : Timeline Rat} (hrest : rest = [] ∨ rest = [unlit left color]) :
    readSymbols (sentCode unit last color xs ++ rest) = xs := by
  have hdark : readSymbols rest = [] := by
    rcases hrest with rfl | rfl <;> rfl
  induction xs with
  | nil => exact hdark
  | cons x xs ih =>
    cases xs with
    | nil =>
      rw [sentCode, List.cons_append, List.cons_append, List.nil_append,
        readSymbols_lit_unlit hunit hlast hshort, hdark]
    | cons y xs =>
      rw [sentCode, List.cons_append, List.cons_append,
        readSymbols_lit_unlit hunit (le_refl unit) (by linarith), ih]

lemma closing_cases (left : Rat) (color : String) (xs : List Symbol) :
    closing left color xs = [] ∨ closing left color xs = [unlit left color] := by
  rw [closing]
  split_ifs
  · exact shown_unlit_cases left color
  · exact .inl rfl

/-- The symbols of a cycle can be read off it. -/
lemma readSymbols_codeCycle (period : Rat) (color : String) (xs : List Symbol) :
    readSymbols (codeCycle period color xs) = xs := by
  have hfloor := floor_le_codeUnit period xs
  have hlast := lastGap_bounds hfloor (timeLeft period xs)
  exact readSymbols_sentCode (by linarith) hlast.1 hlast.2 (closing_cases _ _ _)

/-- A cycle sends symbols in one colour by one unit. -/
structure IsSending (color : String) (xs : List Symbol) (unit last : Rat)
    (rest cycle : Timeline Rat) : Prop where
  /-- The unit is long enough to be seen. -/
  floor : 1 / 20 ≤ unit
  /-- The gap after the last symbol may be longer, but never by a whole unit. -/
  last_gap : unit ≤ last ∧ last < 2 * unit
  /-- After it there is one more piece of darkness at most. -/
  closed : rest = [] ∨ ∃ left, rest = [unlit left color]
  /-- Every symbol is a light and the gap after it. -/
  cycle_eq : cycle = sentCode unit last color xs ++ rest
  /-- There is one light for each symbol, and its length tells which. -/
  lights : cycle.filter (·.lit) = xs.map fun x => lit (x.units * unit) color

lemma codeCycle_isSending (period : Rat) (color : String) (xs : List Symbol) :
    IsSending color xs (codeUnit period xs) (lastGap (codeUnit period xs) (timeLeft period xs))
      (closing (timeLeft period xs) color xs) (codeCycle period color xs) where
  floor := floor_le_codeUnit period xs
  last_gap := lastGap_bounds (floor_le_codeUnit period xs) _
  closed := (closing_cases _ _ _).imp_right fun h => ⟨_, h⟩
  cycle_eq := rfl
  lights := by
    have hdark : (closing (timeLeft period xs) color xs).filter (·.lit) = [] := by
      rcases closing_cases (timeLeft period xs) color xs with h | h <;> rw [h] <;> rfl
    rw [codeCycle, List.filter_append, filter_lit_sentCode, hdark, List.append_nil]

variable {c : Characteristic Rat}

/-- A Morse light with a colour shows the cycle of the code that it sends. -/
lemma compile_eq_codeCycle (hrule : c.type ∉ compiler.withoutRule) (htype : c.type = .morse)
    (hcolors : c.colors ≠ []) {code : String}
    (hcode : SendsCode compiler (compiler.tableWith shared) c.group code) :
    compiler.compile shared (some c) = .ok (codeCycle (Setup.of compiler c).safePeriod
      (colorAt c.colors 0) (symbols code)) := by
  have hsubject : (Setup.of compiler c).subject = c := rfl
  rw [compile_eq_applyRule shared hrule]
  simp only [applyRule, hsubject, htype]
  exact morse_eq_codeCycle hcolors hcode

/-- **A Morse light can be read.**  It shows the symbols of the code that it sends, each lit for one
unit or three and followed by a gap of one unit, of which only the last may be longer, and then one
piece of darkness at most.  The symbols come back when the cycle is read, so that a group for which
other symbols are sent never makes the same cycle. -/
theorem compile_sends_symbols (shared : Table String) (hrule : c.type ∉ compiler.withoutRule)
    (htype : c.type = .morse) (hcolors : c.colors ≠ []) :
    ∃ code unit last rest cycle,
      SendsCode compiler (compiler.tableWith shared) c.group code ∧
        compiler.compile shared (some c) = .ok cycle ∧
        IsSending (colorAt c.colors 0) (symbols code) unit last rest cycle ∧
        readSymbols cycle = symbols code ∧
        ∀ group other, SendsCode compiler (compiler.tableWith shared) group other →
          symbols other ≠ symbols code →
            compiler.compile shared (some { c with group := group }) ≠ .ok cycle := by
  have hcode : SendsCode compiler (compiler.tableWith shared) c.group
      (lookup (compiler.tableWith shared) (sentCharacter compiler (Setup.of compiler c))) :=
    (sendsCode_iff (s := Setup.of compiler c)).mpr rfl
  refine ⟨_, _, _, _, _, hcode, compile_eq_codeCycle hrule htype hcolors hcode,
    codeCycle_isSending _ _ _, readSymbols_codeCycle _ _ _, ?_⟩
  intro group other hother hne hsame
  have hcycle := compile_eq_codeCycle (c := { c with group := group }) hrule htype hcolors hother
  have hequal := Except.ok.inj (hcycle.symm.trans hsame)
  apply hne
  rw [← readSymbols_codeCycle _ _ (symbols other), hequal, readSymbols_codeCycle]

/-- The letter E in a small letter, with too little time left after its dot for a segment: the gap
of the dot is longer.  The letter T makes another cycle. -/
theorem stretched_dot_read :
    Compiler.standard.compile Morse.builtin (some ⟨.morse, some " e", ["W"], some (1 / 8 : Rat)⟩) =
        .ok [lit (1 / 20) "W", unlit (3 / 40) "W"] ∧
      readSymbols [lit (1 / 20) "W", unlit (3 / 40) "W"] = [.dot] ∧
      Compiler.standard.compile Morse.builtin (some ⟨.morse, some "T", ["W"], some (1 / 8 : Rat)⟩) ≠
        .ok [lit (1 / 20) "W", unlit (3 / 40) "W"] := by
  have hrule : .morse ∉ (Compiler.standard : Compiler Rat).withoutRule := by
    simp [Compiler.standard]
  have hcompile : Compiler.standard.compile Morse.builtin
      (some ⟨.morse, some " e", ["W"], some (1 / 8 : Rat)⟩) =
        .ok [lit (1 / 20) "W", unlit (3 / 40) "W"] := by decide +kernel
  have hsent : SendsCode (Compiler.standard : Compiler Rat) Morse.builtin (some " e") "." :=
    ⟨"e", .named (by decide) (by decide +kernel), .capital (by decide +kernel) (by decide +kernel)⟩
  have hother : SendsCode (Compiler.standard : Compiler Rat) Morse.builtin (some "T") "-" :=
    ⟨"T", .named (by decide) (by decide +kernel), .entry (by decide +kernel)⟩
  obtain ⟨code, unit, last, rest, cycle, hcode, hcycle, -, hread, hothers⟩ :=
    compile_sends_symbols (c := ⟨.morse, some " e", ["W"], some (1 / 8)⟩) Morse.builtin hrule rfl
      (by simp)
  obtain rfl : [lit (1 / 20) "W", unlit (3 / 40) "W"] = cycle :=
    Except.ok.inj (hcompile.symm.trans hcycle)
  have hdot : readSymbols [lit (1 / 20) "W", unlit (3 / 40) "W"] = [.dot] := by decide +kernel
  have hsymbols : symbols code = [.dot] := hread.symm.trans hdot
  exact ⟨hcompile, hdot, hothers _ _ hother (by rw [hsymbols]; decide)⟩

end Compiler

end Seamark
