import Mathlib
import Seamark.Proofs.Compiler.Cycle

/-!
# The flashes of a quick light

With exact times, a quick light repeats one flash, which takes its beat together with the darkness
after it.  Without a group the flash is the whole cycle, whatever the period is; otherwise a number
of flashes are followed by a break (`flashesBeforeBreak`).

The two rules differ in a period that the flashes fill or overrun: a quick light has no break then,
and an interrupted one breaks for four beats all the same.  In both, the break is what `brokenTime`
leaves after the flashes, and it is lost only if it is too short to be shown.
-/

namespace Seamark

/-- The types of lights that flash at an even rate. -/
def LightType.isQuick : LightType → Bool
  | quick | veryQuick | ultraQuick | interruptedQuick => true
  | _ => false

namespace Compiler

/-- How many flashes a quick light shows before it breaks, none if it never does.  A group tells it
by its first count; without one, interrupted lights break after nine flashes. -/
def flashesBeforeBreak (c : Characteristic Rat) : Except TooManyDigits (Option Nat) :=
  if c.group.getD "" = "" then .ok (if c.type = .interruptedQuick then some 9 else none)
  else (fun counts => counts.head?) <$> Group.counts c.group

/-- The time from one flash to the next. -/
def flashBeat : LightType → Rat
  | .veryQuick => 1 / 2
  | .ultraQuick => 1 / 4
  | _ => 1

/-- The bound on the length of a flash. -/
def longestFlash : LightType → Rat
  | .interruptedQuick => 3 / 5
  | _ => 3 / 10

/-- How long a cycle of so many flashes and a break should last. -/
def brokenTime (type : LightType) (count : Nat) : Option Rat → Rat
  | none => (count + 4) * flashBeat type
  | some period =>
    if type = .interruptedQuick then if count < period then period else count + 4
    else max period (count * flashBeat type)

/-- The time of the break after so many flashes. -/
def breakTime (type : LightType) (count : Nat) (timing : Option Rat) : Rat :=
  brokenTime type count timing - count * flashBeat type

/-- One flash and the darkness after it.  The flash takes three fifths of the beat within its bound.
-/
def oneFlash (type : LightType) (color : String) : Timeline Rat :=
  [lit (min (longestFlash type) (3 / 5 * flashBeat type)) color,
    unlit (flashBeat type - min (longestFlash type) (3 / 5 * flashBeat type)) color]

variable {type : LightType} {color : String} {count : Nat} {timing : Option Rat}
  {p : Segment Rat}

/-- No part of a flash is too short to be shown. -/
lemma shortest_lt_of_mem_oneFlash (hp : p ∈ oneFlash type color) : shortest < p.duration := by
  simp only [oneFlash, List.mem_cons, List.not_mem_nil, or_false] at hp
  rcases hp with rfl | rfl <;> cases type <;> norm_num [lit, unlit, longestFlash, flashBeat,
    shortest_rat]

lemma flashBeat_pos (type : LightType) : 0 < flashBeat type := by
  cases type <;> norm_num [flashBeat]

lemma shown_repeated_oneFlash (count : Nat) (type : LightType) (color : String) :
    shown (repeated count (oneFlash type color)) = repeated count (oneFlash type color) := by
  rw [shown_repeated, shown_eq_self fun _ => shortest_lt_of_mem_oneFlash]

lemma total_oneFlash (type : LightType) (color : String) :
    (oneFlash type color).total = flashBeat type := by
  simp [oneFlash, Timeline.total_rat, lit, unlit]

/-! ### The break -/

/-- The flashes fit into the time of the cycle. -/
lemma flashes_le_brokenTime (type : LightType) (count : Nat) (timing : Option Rat) :
    count * flashBeat type ≤ brokenTime type count timing := by
  cases timing with
  | none =>
    rw [brokenTime]
    linarith [flashBeat_pos type]
  | some period =>
    rw [brokenTime]
    split_ifs with htype hfits
    · rw [htype, flashBeat, mul_one]
      · exact hfits.le
      all_goals simp
    · rw [htype, flashBeat, mul_one]
      · linarith
      all_goals simp
    · exact le_max_right _ _

/-- The period never ends before the cycle should. -/
lemma period_le_brokenTime (type : LightType) (count : Nat) (period : Rat) :
    period ≤ brokenTime type count (some period) := by
  rw [brokenTime]
  split_ifs with htype hfits
  · exact le_refl period
  · linarith [not_lt.mp hfits]
  · exact le_max_left _ _

lemma quickBreak_eq (htype : type ≠ .interruptedQuick) (timing : Option Rat) (count : Nat) :
    quickBreak timing (flashBeat type) count = .ok (breakTime type count timing) := by
  have hzero : (0.0 : Rat) = 0 := by norm_num
  have hfour : (breakBeats : Rat) = 4 := by norm_num [breakBeats]
  cases timing with
  | none =>
    rw [quickBreak, breakTime, brokenTime, hfour]
    exact congrArg Except.ok (by ring)
  | some period =>
    have hmax : max 0 (period - count * flashBeat type) =
        max period (count * flashBeat type) - count * flashBeat type := by
      rw [max_comm, ← max_sub_sub_right, sub_self]
    rw [quickBreak, breakTime, brokenTime, if_neg htype, countNumber_eq, ← hmax, ← greater_rat,
      ← hzero]
    rfl

lemma interruptedBreak_eq (timing : Option Rat) (count : Nat) :
    interruptedBreak timing (count * 1) 1 = breakTime .interruptedQuick count timing := by
  have hfour : (breakBeats : Rat) = 4 := by norm_num [breakBeats]
  have hbeat : flashBeat .interruptedQuick = 1 := rfl
  rw [breakTime, hbeat, mul_one]
  cases timing with
  | none =>
    rw [interruptedBreak, brokenTime, hfour, hbeat]
    ring
  | some period =>
    rw [interruptedBreak, brokenTime, if_pos rfl, hfour]
    split_ifs
    · rfl
    · ring

/-! ### What the rules ask for -/

variable {compiler : Compiler Rat} {c : Characteristic Rat}

lemma isGrouped_iff : (Setup.of compiler c).isGrouped = true ↔ c.group.getD "" ≠ "" := by
  have hsubject : (Setup.of compiler c).subject = c := rfl
  rw [Setup.isGrouped, hsubject]
  cases c.group <;> simp

/-- Only a light that is not interrupted and has no group never breaks. -/
lemma flashesBeforeBreak_eq_none_iff :
    flashesBeforeBreak c = .ok none ↔ c.group.getD "" = "" ∧ c.type ≠ .interruptedQuick := by
  rw [flashesBeforeBreak]
  split_ifs with hgroup htype
  · simp [htype]
  · simp [hgroup, htype]
  · simp only [hgroup, false_and, iff_false, map_eq_ok_iff, not_exists, not_and]
    exact fun counts hcounts hhead =>
      Group.counts_ne_nil hcounts (List.head?_eq_none_iff.mp hhead)

/-- The flashes of a light with a group are its first count. -/
lemma exists_counts_of_isGrouped (hgrouped : (Setup.of compiler c).isGrouped = true)
    (h : flashesBeforeBreak c = .ok (some count)) :
    ∃ counts, (Setup.of compiler c).counts = .ok counts ∧ counts.headD 1 = count := by
  rw [flashesBeforeBreak, if_neg (isGrouped_iff.mp hgrouped), map_eq_ok_iff] at h
  obtain ⟨counts, hcounts, hhead⟩ := h
  have hfirst : counts.headD 1 = count := by
    rw [List.headD_eq_head?_getD, hhead, Option.getD_some]
  exact ⟨counts, counts_eq_ok_iff.mpr hcounts, hfirst⟩

/-- The pieces of a flash in the rule for quick lights. -/
lemma quickFlashPieces_eq (htype : type ≠ .interruptedQuick) (color : String) :
    quickFlashPieces (flashBeat type) (lesser maxFlash (flashBeat type * quickShare)) color =
      oneFlash type color := by
  have hlongest : longestFlash type = maxFlash := by
    have hmax : (maxFlash : Rat) = 3 / 10 := by norm_num [maxFlash]
    rw [hmax]
    cases type <;> first | rfl | exact absurd rfl htype
  have hshare : (quickShare : Rat) = 3 / 5 := by norm_num [quickShare]
  rw [oneFlash, hlongest, lesser_rat, hshare, mul_comm]
  rfl

lemma quickBeat_eq (type : LightType) : (quickBeat type : Rat) = flashBeat type := by
  cases type <;> norm_num [quickBeat, flashBeat]

section

variable (htype : c.type ≠ .interruptedQuick) (hcolors : c.colors ≠ [])
include htype hcolors

/-- A quick light that never breaks asks for one flash. -/
lemma quickPieces_of_endless (h : flashesBeforeBreak c = .ok none) :
    quickPieces (Setup.of compiler c) = .ok (oneFlash c.type (colorAt c.colors 0)) := by
  have hfirst : (Setup.of compiler c).firstColor = .ok (colorAt c.colors 0) := firstColor_eq hcolors
  have hgrouped : ¬ (Setup.of compiler c).isGrouped = true := by
    rw [isGrouped_iff, not_not]
    exact (flashesBeforeBreak_eq_none_iff.mp h).1
  have hflash := quickFlashPieces_eq htype (colorAt c.colors 0)
  simp only [quickPieces, hfirst, bind, Except.bind, hgrouped, quickBeat_eq]
  exact congrArg Except.ok hflash

/-- A quick light that breaks asks for its flashes and a break that fills up their time. -/
lemma quickPieces_of_breaks (h : flashesBeforeBreak c = .ok (some count)) :
    quickPieces (Setup.of compiler c) =
      .ok (repeated count (oneFlash c.type (colorAt c.colors 0)) ++
        [unlit (breakTime c.type count c.timing) (colorAt c.colors 0)]) := by
  have hfirst : (Setup.of compiler c).firstColor = .ok (colorAt c.colors 0) := firstColor_eq hcolors
  have hgrouped : (Setup.of compiler c).isGrouped = true := by
    refine isGrouped_iff.mpr fun hgroup => ?_
    rw [flashesBeforeBreak_eq_none_iff.mpr ⟨hgroup, htype⟩] at h
    cases h
  obtain ⟨counts, hread, hhead⟩ := exists_counts_of_isGrouped hgrouped h
  have htiming : (Setup.of compiler c).period = c.timing := rfl
  have hsubject : (Setup.of compiler c).subject = c := rfl
  simp only [quickPieces, hfirst, bind, Except.bind, hgrouped, if_true, hread,
    hhead, htiming, hsubject, quickBeat_eq, quickBreak_eq htype, quickFlashPieces_eq htype]
  rfl

end

/-- An interrupted light asks for its flashes and a break that fills up their time. -/
lemma interruptedQuickPieces_of_breaks (htype : c.type = .interruptedQuick)
    (hcolors : c.colors ≠ []) (h : flashesBeforeBreak c = .ok (some count)) :
    interruptedQuickPieces (Setup.of compiler c) =
      .ok (repeated count (oneFlash c.type (colorAt c.colors 0)) ++
        [unlit (breakTime c.type count c.timing) (colorAt c.colors 0)]) := by
  have hfirst : (Setup.of compiler c).firstColor = .ok (colorAt c.colors 0) := firstColor_eq hcolors
  have hcount : interruptedCount (Setup.of compiler c) = .ok count := by
    rw [interruptedCount]
    split_ifs with hgrouped
    · obtain ⟨counts, hread, hhead⟩ := exists_counts_of_isGrouped hgrouped h
      rw [hread]
      exact congrArg Except.ok hhead
    · have hgroup : c.group.getD "" = "" := not_not.mp (mt isGrouped_iff.mpr hgrouped)
      rw [flashesBeforeBreak, if_pos hgroup, if_pos htype] at h
      exact congrArg Except.ok (Option.some.inj (Except.ok.inj h))
  have hone : (1.0 : Rat) = 1 := by norm_num
  have htiming : (Setup.of compiler c).period = c.timing := rfl
  have hflash : quickFlashPieces 1 (1 * quickShare) (colorAt c.colors 0) =
      oneFlash .interruptedQuick (colorAt c.colors 0) := by
    have hshare : (quickShare : Rat) = 3 / 5 := by norm_num [quickShare]
    have hbeat : flashBeat .interruptedQuick = 1 := rfl
    have hlongest : longestFlash .interruptedQuick = 3 / 5 := rfl
    rw [hshare, oneFlash, hbeat, hlongest, quickFlashPieces, one_mul, mul_one, min_self]
  simp only [interruptedQuickPieces, hfirst, bind, Except.bind, hcount, countNumber_eq, hone,
    htiming, hflash, interruptedBreak_eq, htype]
  rfl

/-! ### What is shown -/

/-- A cycle of flashes with a break. -/
structure BreaksAfter (c : Characteristic Rat) (count : Nat) (flash cycle : Timeline Rat) :
    Prop where
  /-- The flash is repeated, and there is one break at most. -/
  repeats : ∃ pause, cycle = repeated count flash ++ pause ∧
    (pause = [] ∨ ∃ left, pause = [unlit left (colorAt c.colors 0)])
  /-- There are as many lights as are counted. -/
  lights : cycle.countP (·.lit) = count
  /-- The cycle is no longer than it should be. -/
  total_le : cycle.total ≤ brokenTime c.type count c.timing
  /-- It is no shorter, but for a break too short to be shown. -/
  le_total : brokenTime c.type count c.timing ≤ cycle.total + shortest
  /-- It does not end before the period. -/
  period_le : ∀ period, c.period = some period → period ≤ cycle.total + shortest

/-- A cycle of a quick light that repeats a flash. -/
structure FlashesQuickly (c : Characteristic Rat) (flash cycle : Timeline Rat) : Prop where
  /-- A flash and the darkness after it take one beat. -/
  flash_eq : ∃ on off, flash = [lit on (colorAt c.colors 0), unlit off (colorAt c.colors 0)] ∧
    on + off = flashBeat c.type
  /-- No light is too long. -/
  short : ∀ p ∈ cycle, p.lit = true → p.duration ≤ longestFlash c.type
  /-- Without breaks the flash is the cycle. -/
  endless : flashesBeforeBreak c = .ok none → cycle = flash
  /-- With breaks there are so many flashes in a cycle. -/
  breaks : ∀ count, flashesBeforeBreak c = .ok (some count) → BreaksAfter c count flash cycle

lemma duration_le_of_mem_oneFlash (hp : p ∈ oneFlash type color) (hlit : p.lit = true) :
    p.duration ≤ longestFlash type := by
  simp only [oneFlash, List.mem_cons, List.not_mem_nil, or_false] at hp
  rcases hp with rfl | rfl
  · exact min_le_left _ _
  · cases hlit

/-- What is shown of a break takes up its time, unless it is too short to be shown. -/
lemma total_shown_break_bounds {pause : Rat} (hpause : 0 ≤ pause) (color : String) :
    Timeline.total (shown [unlit pause color]) ≤ pause ∧
      pause ≤ Timeline.total (shown [unlit pause color]) + shortest := by
  have hfills := (Shares.single (p := unlit pause color) hpause).fills
  have hlower : pause - (1 : Nat) * shortest ≤ Timeline.total (shown [unlit pause color]) :=
    hfills.lower
  rw [Nat.cast_one, one_mul] at hlower
  exact ⟨hfills.upper, sub_le_iff_le_add.mp hlower⟩

lemma oneFlash_flash_eq (type : LightType) (color : String) :
    ∃ on off, oneFlash type color = [lit on color, unlit off color] ∧ on + off = flashBeat type :=
  ⟨_, _, rfl, add_sub_cancel _ _⟩

/-- The cycle of so many flashes and what is shown of the break after them. -/
def breakingCycle (c : Characteristic Rat) (count : Nat) : Timeline Rat :=
  repeated count (oneFlash c.type (colorAt c.colors 0)) ++
    shown [unlit (breakTime c.type count c.timing) (colorAt c.colors 0)]

lemma total_breakingCycle (c : Characteristic Rat) (count : Nat) :
    (breakingCycle c count).total = count * flashBeat c.type +
      Timeline.total (shown [unlit (breakTime c.type count c.timing) (colorAt c.colors 0)]) := by
  rw [breakingCycle, Timeline.total_append, total_repeated, total_oneFlash]

/-- The break fills up the time of the cycle, unless it is too short to be shown. -/
lemma total_breakingCycle_bounds (c : Characteristic Rat) (count : Nat) :
    (breakingCycle c count).total ≤ brokenTime c.type count c.timing ∧
      brokenTime c.type count c.timing ≤ (breakingCycle c count).total + shortest := by
  have hnonneg : 0 ≤ breakTime c.type count c.timing :=
    sub_nonneg.mpr (flashes_le_brokenTime _ _ _)
  have htime : brokenTime c.type count c.timing =
      count * flashBeat c.type + breakTime c.type count c.timing := (add_sub_cancel _ _).symm
  have hbreak := total_shown_break_bounds hnonneg (colorAt c.colors 0)
  rw [total_breakingCycle, htime]
  constructor <;> linarith [hbreak.1, hbreak.2]

/-- A period of zero is over at once, and any other one not before the cycle should end. -/
lemma period_le_total_breakingCycle {period : Rat} (hperiod : c.period = some period)
    (count : Nat) : period ≤ (breakingCycle c count).total + shortest := by
  by_cases hzero : period = 0
  · have hpositive : (0 : Rat) < shortest := shortest_pos
    have hflashes : 0 ≤ (count : Rat) * flashBeat c.type :=
      mul_nonneg (Nat.cast_nonneg _) (flashBeat_pos _).le
    rw [hzero, total_breakingCycle]
    linarith [total_shown_nonneg [unlit (breakTime c.type count c.timing) (colorAt c.colors 0)]]
  · have hlower := (total_breakingCycle_bounds c count).2
    rw [timing_eq_some_iff.mpr ⟨hperiod, hzero⟩] at hlower
    exact (period_le_brokenTime _ _ _).trans hlower

lemma breakingCycle_breaksAfter (c : Characteristic Rat) (count : Nat) :
    BreaksAfter c count (oneFlash c.type (colorAt c.colors 0)) (breakingCycle c count) where
  repeats := ⟨_, rfl, (shown_unlit_cases _ _).imp_right fun h => ⟨_, h⟩⟩
  lights := by
    rw [breakingCycle, List.countP_append, countP_repeated, countP_shown_unlit]
    simp [oneFlash, lit, unlit]
  total_le := (total_breakingCycle_bounds c count).1
  le_total := (total_breakingCycle_bounds c count).2
  period_le _ hperiod := period_le_total_breakingCycle hperiod count

/-- One flash is what a quick light without breaks should show. -/
lemma oneFlash_flashesQuickly (h : flashesBeforeBreak c = .ok none) :
    FlashesQuickly c (oneFlash c.type (colorAt c.colors 0))
      (oneFlash c.type (colorAt c.colors 0)) where
  flash_eq := oneFlash_flash_eq _ _
  short _ := duration_le_of_mem_oneFlash
  endless _ := rfl
  breaks count hcount := by
    rw [h] at hcount
    cases hcount

/-- Flashes and the break after them are what a quick light with breaks should show. -/
lemma breakingCycle_flashesQuickly (h : flashesBeforeBreak c = .ok (some count)) :
    FlashesQuickly c (oneFlash c.type (colorAt c.colors 0)) (breakingCycle c count) where
  flash_eq := oneFlash_flash_eq _ _
  short p hp hlit := by
    rcases List.mem_append.mp hp with hp | hp
    · exact duration_le_of_mem_oneFlash (mem_repeated_iff.mp hp).2 hlit
    · have hdark := List.mem_singleton.mp (mem_shown.mp hp).1
      rw [hdark] at hlit
      cases hlit
  endless hnone := by
    rw [h] at hnone
    cases hnone
  breaks count' hcount := by
    obtain rfl : count = count' := Option.some.inj (Except.ok.inj (h.symm.trans hcount))
    exact breakingCycle_breaksAfter c count

/-! ### The cycle -/

/-- The only reason for which the flashes are not known is a count with too many digits. -/
lemma counts_of_flashesBeforeBreak_eq_error {e : TooManyDigits}
    (h : flashesBeforeBreak c = .error e) : Group.counts c.group = .error e := by
  rw [flashesBeforeBreak] at h
  split_ifs at h
  cases hcounts : Group.counts c.group with
  | error e' =>
    rw [hcounts] at h
    exact congrArg Except.error (Except.error.inj h)
  | ok counts =>
    rw [hcounts] at h
    cases h

section

variable {shared : Table String} (hrule : c.type ∉ compiler.withoutRule)
  (htype : c.type.isQuick = true)
include hrule htype

/-- One rule is for quick lights of any rate and another for interrupted ones. -/
lemma compile_eq_shown_of_isQuick :
    compiler.compile shared (some c) =
      shown <$> if c.type = .interruptedQuick then interruptedQuickPieces (Setup.of compiler c)
        else quickPieces (Setup.of compiler c) := by
  have hsubject : (Setup.of compiler c).subject = c := rfl
  have hmorse : c.type ≠ .morse := by
    intro hmorse
    rw [hmorse] at htype
    cases htype
  rw [compile_eq_shown shared hrule hmorse, pieces, hsubject]
  cases h : c.type <;> rw [h] at htype <;> first | rfl | cases htype

/-- The cycle of a quick light that never breaks is one flash. -/
lemma compile_of_endless (hcolors : c.colors ≠ []) (h : flashesBeforeBreak c = .ok none) :
    compiler.compile shared (some c) = .ok (oneFlash c.type (colorAt c.colors 0)) := by
  have hquick := (flashesBeforeBreak_eq_none_iff.mp h).2
  rw [compile_eq_shown_of_isQuick hrule htype, if_neg hquick,
    quickPieces_of_endless hquick hcolors h]
  exact congrArg Except.ok (shown_eq_self fun _ => shortest_lt_of_mem_oneFlash)

/-- The cycle of a quick light that breaks is its flashes and what is shown of the break. -/
lemma compile_of_breaks (hcolors : c.colors ≠ []) (h : flashesBeforeBreak c = .ok (some count)) :
    compiler.compile shared (some c) = .ok (breakingCycle c count) := by
  have hpieces : (if c.type = .interruptedQuick then interruptedQuickPieces (Setup.of compiler c)
      else quickPieces (Setup.of compiler c)) =
        .ok (repeated count (oneFlash c.type (colorAt c.colors 0)) ++
          [unlit (breakTime c.type count c.timing) (colorAt c.colors 0)]) := by
    split_ifs with hquick
    · exact interruptedQuickPieces_of_breaks hquick hcolors h
    · exact quickPieces_of_breaks hquick hcolors h
  rw [compile_eq_shown_of_isQuick hrule htype, hpieces]
  refine congrArg Except.ok ?_
  rw [shown_append, shown_repeated_oneFlash, breakingCycle]

end

/-- **The flashes of quick lights.**  A quick light with a colour has a timeline unless a count of
its group has too many digits, and the timeline repeats one flash as its type, group and period tell.
-/
theorem compile_quick_flashes (shared : Table String) (hrule : c.type ∉ compiler.withoutRule)
    (htype : c.type.isQuick = true) (hcolors : c.colors ≠ []) :
    (∃ e, Group.counts c.group = .error e ∧
        compiler.compile shared (some c) = .error (.tooManyDigits e)) ∨
      ∃ before flash cycle, flashesBeforeBreak c = .ok before ∧
        compiler.compile shared (some c) = .ok cycle ∧ FlashesQuickly c flash cycle := by
  have hreads : c.type.readsCounts = true := by
    cases h : c.type <;> rw [h] at htype <;> first | rfl | cases htype
  cases hbefore : flashesBeforeBreak c with
  | error e =>
    have hcounts := counts_of_flashesBeforeBreak_eq_error hbefore
    exact .inl ⟨e, hcounts, compile_eq_error_of_counts hrule hcolors hreads hcounts⟩
  | ok before =>
    cases before with
    | none =>
      exact .inr ⟨_, _, _, rfl, compile_of_endless hrule htype hcolors hbefore,
        oneFlash_flashesQuickly hbefore⟩
    | some count =>
      exact .inr ⟨_, _, _, rfl, compile_of_breaks hrule htype hcolors hbefore,
        breakingCycle_flashesQuickly hbefore⟩

/-- An interrupted light whose nine flashes fill its period breaks for four seconds after it. -/
theorem filled_period_flashes_quickly :
    Compiler.standard.compile Morse.builtin
        (some ⟨.interruptedQuick, none, ["W"], some (9 : Rat)⟩) =
      .ok (repeated 9 [lit (3 / 5) "W", unlit (2 / 5) "W"] ++ [unlit 4 "W"]) ∧
      ∃ flash, FlashesQuickly ⟨.interruptedQuick, none, ["W"], some 9⟩ flash
        (repeated 9 [lit (3 / 5) "W", unlit (2 / 5) "W"] ++ [unlit 4 "W"]) := by
  have hrule : .interruptedQuick ∉ (Compiler.standard : Compiler Rat).withoutRule := by
    simp [Compiler.standard]
  have hcompile : Compiler.standard.compile Morse.builtin
      (some ⟨.interruptedQuick, none, ["W"], some (9 : Rat)⟩) =
        .ok (repeated 9 [lit (3 / 5) "W", unlit (2 / 5) "W"] ++ [unlit 4 "W"]) := by
    decide +kernel
  rcases compile_quick_flashes (c := ⟨.interruptedQuick, none, ["W"], some 9⟩) Morse.builtin hrule
      rfl (by simp) with ⟨e, herror, -⟩ | ⟨before, flash, cycle, -, hcycle, hflashes⟩
  · cases herror
  · obtain rfl := Except.ok.inj (hcompile.symm.trans hcycle)
    exact ⟨hcompile, flash, hflashes⟩

/-- A quick light shows no flashes if its second count has too many digits, although its first count
is one and no other is used. -/
theorem overlong_second_group_has_no_quick_flashes :
    ∃ rest, Text.splitAt '+' ('1' :: '+' :: List.replicate 4301 '1') = ['1'] :: rest ∧
      Group.entryCounts ['1'] = .ok [1] ∧
      ∀ ts : Timeline Rat, Compiler.standard.compile Morse.builtin
        (some ⟨.quick, some (String.ofList ('1' :: '+' :: List.replicate 4301 '1')), ["W"], none⟩) ≠
          .ok ts := by
  have hplus : '+' ∉ List.replicate 4301 '1' := fun hmem =>
    absurd (List.eq_of_mem_replicate hmem) (by decide)
  have hentries : Text.splitAt '+' ('1' :: '+' :: List.replicate 4301 '1') =
      [['1'], List.replicate 4301 '1'] := by
    have hone : '+' ∉ ['1'] := by decide
    have happend := Text.splitAt_append hone (List.replicate 4301 '1')
    rwa [Text.splitAt_of_not_mem hplus] at happend
  have hlong : Group.IsOverlong (List.replicate 4301 '1') := by
    have htrim : Text.trim (List.replicate 4301 '1') = List.replicate 4301 '1' :=
      Text.trim_of_forall fun d hd =>
        Group.not_isBlank_of_isPlainDigit (Group.isPlainDigit_of_mem_ones d hd)
    rw [Group.IsOverlong, htrim, List.length_replicate]
    exact ⟨List.all_eq_true.mpr Group.isPlainDigit_of_mem_ones, by decide⟩
  have hmem : List.replicate 4301 '1' ∈ Text.splitAt '+'
      (String.ofList ('1' :: '+' :: List.replicate 4301 '1')).toList := by
    rw [String.toList_ofList, hentries]
    exact List.mem_cons_of_mem _ (List.mem_singleton_self _)
  obtain ⟨e, hcounts⟩ := Group.exists_counts_eq_error_iff.mpr ⟨_, rfl, _, hmem, hlong⟩
  refine ⟨_, hentries, by decide +kernel, fun ts hts => ?_⟩
  have hcompile : (Compiler.standard : Compiler Rat).compile Morse.builtin
      (some ⟨.quick, some (String.ofList ('1' :: '+' :: List.replicate 4301 '1')), ["W"], none⟩) =
        .error (.tooManyDigits e) :=
    compile_of_counts_eq_error rfl (by simp) rfl hcounts
  rw [hcompile] at hts
  cases hts

end Compiler

end Seamark
