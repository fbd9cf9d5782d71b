import Mathlib
import Seamark.Proofs.Compiler.Pieces
import Seamark.Proofs.Double.Size

/-!
# What a timeline is made of

Every segment of a timeline is long enough to be shown, is dim only where a fixed light lies behind
flashes, and has a colour of its light.  The only colour that is none of them is the composite one
of a flash that shows several colours at once.  A rule makes its pieces so (`pieces_proper`),
leaving out the short ones keeps them so, and so does the longer last gap of a Morse light: the sum
of two durations that are long enough is long enough, in doubles too.
-/

namespace Seamark

variable {α : Type} [Scalar α]

/-- A single flash of several colours, which shows them all at once. -/
def Characteristic.ShowsAtOnce (c : Characteristic α) : Prop :=
  c.type = .flashing ∧ (∃ counts, Group.counts c.group = .ok counts ∧ addedUp counts = 1) ∧
    1 < c.colors.length

/-- The types with a fixed light behind the flashes. -/
def LightType.IsDimmed (t : LightType) : Prop :=
  t = .fixedAndFlashing ∨ t = .flashingFixed

/-- The types that are never dark, with a period or without. -/
def LightType.IsNeverDark (t : LightType) : Prop :=
  t.isContinuous = true ∨ t.IsDimmed

namespace Segment

/-- A segment as a light may show it. -/
structure Proper (c : Characteristic α) (p : Segment α) : Prop where
  /-- Darkness is not dimmed. -/
  dark_full : p.lit = false → p.intensity = 1.0
  /-- Only the light behind flashes is dim. -/
  dim : p.intensity ≠ 1.0 → p.intensity = 0.4 ∧ p.lit = true ∧ c.type.IsDimmed
  /-- Some types are never dark. -/
  never_dark : c.type.IsNeverDark → p.lit = true
  /-- A flash of all colours at once has their composite colour. -/
  at_once : c.ShowsAtOnce → p.lit = true → p.color = Compiler.composite c.colors
  /-- Everything else has a colour of the light. -/
  own_color : ¬ (c.ShowsAtOnce ∧ p.lit = true) → p.color ∈ c.colors

/-- A segment remains proper when it is made longer. -/
lemma Proper.withDuration {c : Characteristic α} {p : Segment α} (h : p.Proper c) (duration : α) :
    { p with duration := duration }.Proper c :=
  ⟨h.dark_full, h.dim, h.never_dark, h.at_once, h.own_color⟩

/-- A segment at full brightness in one of some colours. -/
def Plain (colors : List String) (p : Segment α) : Prop :=
  p.intensity = 1.0 ∧ p.color ∈ colors

end Segment

open Segment

section

variable {colors : List String} {color : String}

lemma plain_lit (hcolor : color ∈ colors) (duration : α) : (lit duration color).Plain colors :=
  ⟨rfl, hcolor⟩

lemma plain_unlit (hcolor : color ∈ colors) (duration : α) :
    (unlit duration color).Plain colors :=
  ⟨rfl, hcolor⟩

/-- A flash and the darkness after it. -/
lemma plain_lit_unlit (hcolor : color ∈ colors) (on off : α) :
    ∀ p ∈ [lit on color, unlit off color], p.Plain colors := by
  intro p hp
  simp only [List.mem_cons, List.not_mem_nil, or_false] at hp
  rcases hp with rfl | rfl
  · exact plain_lit hcolor on
  · exact plain_unlit hcolor off

omit [Scalar α] in
lemma firstColor_mem {s : Setup α} (h : s.firstColor = .ok color) : color ∈ s.subject.colors := by
  rw [Setup.firstColor] at h
  split at h
  · cases h
  · rename_i first rest hcolors
    cases h
    rw [hcolors]
    exact List.mem_cons_self

lemma colorInTurn_mem {place : Nat} (h : colorInTurn colors place = .ok color) :
    color ∈ colors := by
  rw [colorInTurn] at h
  split at h
  · rename_i found hfound
    cases h
    exact List.mem_of_getElem? hfound
  · cases h

end

namespace Compiler

variable {compiler : Compiler α} {table : Table String} {s : Setup α} {ps : Timeline α}

/-! ### The pieces of the rules -/

lemma steadyPieces_plain (h : steadyPieces compiler s = .ok ps) :
    ∀ p ∈ ps, p.Plain s.subject.colors ∧ p.lit = true := by
  obtain ⟨duration, -, rfl⟩ := exists_of_steadyPieces h
  intro p hp
  obtain ⟨color, hcolor, rfl⟩ := List.mem_map.mp hp
  exact ⟨plain_lit hcolor duration, rfl⟩

lemma longFlashingPieces_plain (h : longFlashingPieces s = .ok ps) :
    ∀ p ∈ ps, p.Plain s.subject.colors := by
  obtain ⟨color, on, hcolor, -, rfl⟩ := exists_of_longFlashingPieces h
  exact plain_lit_unlit (firstColor_mem hcolor) _ _

lemma isophasePieces_plain (h : isophasePieces s = .ok ps) :
    ∀ p ∈ ps, p.Plain s.subject.colors := by
  obtain ⟨color, half, hcolor, -, rfl⟩ := exists_of_isophasePieces h
  exact plain_lit_unlit (firstColor_mem hcolor) _ _

/-- Flashes with a break after them. -/
lemma plain_repeated_break {colors : List String} {color : String} (hcolor : color ∈ colors)
    (count : Nat) (on off pause : α) :
    ∀ p ∈ repeated count [lit on color, unlit off color] ++ [unlit pause color],
      p.Plain colors := by
  intro p hp
  rcases List.mem_append.mp hp with hp | hp
  · exact plain_lit_unlit hcolor on off p (mem_repeated_iff.mp hp).2
  · obtain rfl := List.mem_singleton.mp hp
    exact plain_unlit hcolor pause

lemma quickPieces_plain (h : quickPieces s = .ok ps) : ∀ p ∈ ps, p.Plain s.subject.colors := by
  obtain ⟨color, flash, hcolor, rfl, rfl | ⟨counts, pause, -, rfl⟩⟩ := exists_of_quickPieces h
  · exact plain_lit_unlit (firstColor_mem hcolor) _ _
  · exact plain_repeated_break (firstColor_mem hcolor) _ _ _ _

lemma interruptedQuickPieces_plain (h : interruptedQuickPieces s = .ok ps) :
    ∀ p ∈ ps, p.Plain s.subject.colors := by
  obtain ⟨color, count, pause, hcolor, -, rfl⟩ := exists_of_interruptedQuickPieces h
  exact plain_repeated_break (firstColor_mem hcolor) _ _ _ _

lemma occultingGroupPieces_plain {slot on : α} {colors : List String} {color : String}
    (hcolor : color ∈ colors) (closed : Bool) (counts : List Nat) :
    ∀ p ∈ occultingGroupPieces slot on color closed counts, p.Plain colors := by
  induction counts with
  | nil => simp [occultingGroupPieces]
  | cons count counts ih =>
    cases counts with
    | nil =>
      intro p hp
      rcases List.mem_append.mp hp with hp | hp
      · exact plain_lit_unlit hcolor _ _ p (mem_repeated_iff.mp hp).2
      · cases closed with
        | false => simp at hp
        | true =>
          obtain rfl := List.mem_singleton.mp hp
          exact plain_unlit hcolor slot
    | cons next counts =>
      intro p hp
      rw [occultingGroupPieces] at hp
      · rcases List.mem_append.mp hp with hp | hp
        · exact plain_repeated_break hcolor _ _ _ _ p hp
        · exact ih p hp
      · simp

lemma occultingPieces_plain (h : occultingPieces s = .ok ps) :
    ∀ p ∈ ps, p.Plain s.subject.colors := by
  obtain ⟨color, counts, n, slot, groups, hcolor, -, -, -, rfl, rfl⟩ := exists_of_occultingPieces h
  have hmem := firstColor_mem hcolor
  intro p hp
  rcases List.mem_append.mp hp with hp | hp
  · exact occultingGroupPieces_plain hmem _ _ p hp
  · obtain ⟨left, rfl⟩ := restPieces_mem hp
    exact plain_unlit hmem left

lemma styledSlotPieces_plain {style : SlotStyle} {slot : α} {colors : List String} {color : String}
    {count : Nat} (hcolor : color ∈ colors)
    (h : styledSlotPieces style slot color count = .ok ps) : ∀ p ∈ ps, p.Plain colors := by
  cases style with
  | flashes =>
    obtain ⟨n, on, gap, used, -, rfl⟩ := exists_of_flashSlotPieces h
    intro p hp
    rcases List.mem_append.mp hp with hp | hp
    · exact plain_lit_unlit hcolor _ _ p (mem_repeated_iff.mp hp).2
    · exact plain_lit_unlit hcolor _ _ p hp
  | eclipses =>
    obtain ⟨n, beat, on, -, -, -, rfl⟩ := exists_of_eclipseSlotPieces h
    exact fun p hp => plain_lit_unlit hcolor _ _ p (mem_repeated_iff.mp hp).2
  | gaps =>
    obtain ⟨n, beat, gap, -, -, -, rfl⟩ := exists_of_gapSlotPieces h
    exact fun p hp => plain_lit_unlit hcolor _ _ p (mem_repeated_iff.mp hp).2

lemma slotPiecesFrom_plain {style : SlotStyle} {slot : α} {colors : List String} {place : Nat}
    {counts : List Nat} (h : slotPiecesFrom style slot colors place counts = .ok ps) :
    ∀ p ∈ ps, p.Plain colors := by
  induction counts generalizing place ps with
  | nil =>
    obtain rfl := Except.ok.inj h
    simp
  | cons count counts ih =>
    obtain ⟨color, first, rest, hcolor, hfirst, hrest, rfl⟩ := exists_of_slotPiecesFrom_cons h
    intro p hp
    rcases List.mem_append.mp hp with hp | hp
    · exact styledSlotPieces_plain (colorInTurn_mem hcolor) hfirst p hp
    · exact ih hrest p hp

lemma alternatingPieces_plain (h : alternatingPieces s = .ok ps) :
    ∀ p ∈ ps, p.Plain s.subject.colors := by
  obtain ⟨counts, slots, n, -, -, -, -, hps⟩ := exists_of_alternatingPieces h
  exact slotPiecesFrom_plain hps

lemma morsePieces_plain (h : morsePieces compiler table s = .ok ps) :
    ∀ p ∈ ps, p.Plain s.subject.colors := by
  obtain ⟨color, symbols, n, unit, left, hcolor, -, -, rfl⟩ := exists_of_morsePieces h
  have hmem := firstColor_mem hcolor
  intro p hp
  rcases List.mem_append.mp hp with hp | hp
  · obtain ⟨symbol, -, hp⟩ := List.mem_flatMap.mp hp
    exact plain_lit_unlit hmem _ _ p hp
  · rw [closingPieces] at hp
    split at hp
    · obtain rfl := List.mem_singleton.mp hp
      exact plain_unlit hmem _
    · simp at hp

lemma fixedFlashingPieces_mem (h : fixedFlashingPieces s = .ok ps) :
    ∀ p ∈ ps, p.lit = true ∧ p.color ∈ s.subject.colors ∧
      (p.intensity = 1.0 ∨ p.intensity = 0.4) := by
  obtain ⟨color, flash, hcolor, -, rfl⟩ := exists_of_fixedFlashingPieces h
  have hmem := firstColor_mem hcolor
  intro p hp
  simp only [List.mem_cons, List.not_mem_nil, or_false] at hp
  rcases hp with rfl | rfl
  · exact ⟨rfl, hmem, Or.inl rfl⟩
  · exact ⟨rfl, hmem, Or.inr rfl⟩

/-! ### Flash patterns -/

lemma mem_groupBeats {base color : String} {count : Nat} {b : Beat α}
    (hb : b ∈ groupBeats base color count) :
    b.lit = true ∧ b.color = color ∨ b.lit = false ∧ b.color = base := by
  induction count with
  | zero => simp [groupBeats] at hb
  | succ count ih =>
    cases count with
    | zero =>
      obtain rfl := List.mem_singleton.mp hb
      exact Or.inl ⟨rfl, rfl⟩
    | succ count =>
      -- a flash and a gap before the other flashes
      rcases List.mem_cons.mp hb with rfl | hb
      · exact Or.inl ⟨rfl, rfl⟩
      rcases List.mem_cons.mp hb with rfl | hb
      · exact Or.inr ⟨rfl, rfl⟩
      · exact ih hb

lemma mem_patternFrom {base : String} {colors : List String} {place : Nat} {counts : List Nat}
    {beats : List (Beat α)} (h : patternFrom base colors place counts = .ok beats) {b : Beat α}
    (hb : b ∈ beats) : b.lit = true ∧ b.color ∈ colors ∨ b.lit = false ∧ b.color = base := by
  induction counts generalizing place beats with
  | nil =>
    obtain rfl := Except.ok.inj h
    simp at hb
  | cons count counts ih =>
    have hgroup {color : String} (hcolor : colorInTurn colors place = .ok color)
        (hb : b ∈ groupBeats base color count) :
        b.lit = true ∧ b.color ∈ colors ∨ b.lit = false ∧ b.color = base := by
      rcases mem_groupBeats hb with ⟨hlit, rfl⟩ | hgap
      · exact Or.inl ⟨hlit, colorInTurn_mem hcolor⟩
      · exact Or.inr hgap
    cases counts with
    | nil =>
      simp only [patternFrom, bind_eq_ok_iff] at h
      obtain ⟨color, hcolor, hbeats⟩ := h
      obtain rfl := Except.ok.inj hbeats
      exact hgroup hcolor hb
    | cons next counts =>
      rw [patternFrom] at h
      · simp only [bind_eq_ok_iff] at h
        obtain ⟨color, hcolor, rest, hrest, hbeats⟩ := h
        obtain rfl := Except.ok.inj hbeats
        rcases List.mem_append.mp hb with hb | hb
        · exact hgroup hcolor hb
        rcases List.mem_cons.mp hb with rfl | hb
        · exact Or.inr ⟨rfl, rfl⟩
        · exact ih hrest hb
      · simp

/-- Flashes take the colours of the groups, darkness the first colour. -/
lemma flashingPieces_mem (h : flashingPieces s = .ok ps) {p : Segment α} (hp : p ∈ ps) :
    ∃ counts, s.counts = .ok counts ∧ p.intensity = 1.0 ∧
      (p.lit = true ∧ p.color ∈ groupColors s counts ∨
        p.lit = false ∧ p.color ∈ s.subject.colors) := by
  obtain ⟨counts, base, beats, weight, scale, hcounts, hbase, hbeats, -, -, rfl⟩ :=
    exists_of_flashingPieces h
  have hmem := firstColor_mem hbase
  refine ⟨counts, hcounts, ?_⟩
  rcases List.mem_append.mp hp with hp | hp
  · obtain ⟨b, hb, rfl⟩ := List.mem_map.mp hp
    refine ⟨rfl, ?_⟩
    rcases mem_patternFrom hbeats hb with hflash | ⟨hdark, hcolor⟩
    · exact Or.inl hflash
    · exact Or.inr ⟨hdark, by rwa [← hcolor] at hmem⟩
  · obtain ⟨left, rfl⟩ := restPieces_mem hp
    exact ⟨rfl, Or.inr ⟨rfl, hmem⟩⟩

/-! ### Every piece is proper -/

section

variable {p : Segment α}

/-- Plain pieces are proper for every light that does not show its colours at once. -/
lemma proper_of_plain {c : Characteristic α} (hplain : p.Plain c.colors)
    (htype : c.type ≠ .flashing) (hdark : c.type.IsNeverDark → p.lit = true) : p.Proper c where
  dark_full _ := hplain.1
  dim hdim := absurd hplain.1 hdim
  never_dark := hdark
  at_once hshows := absurd hshows.1 htype
  own_color _ := hplain.2

/-- The pieces of a flashing light are proper. -/
lemma flashingPieces_proper (htype : s.subject.type = .flashing ∨ s.subject.type = .groupFlashing)
    (h : flashingPieces s = .ok ps) (hp : p ∈ ps) : p.Proper s.subject := by
  obtain ⟨counts, hcounts, hfull, hcolor⟩ := flashingPieces_mem h hp
  rw [counts_eq_ok_iff] at hcounts
  -- the colours of the groups are composed exactly for a single flash of several colours
  have hiff : (s.subject.type = .flashing ∧ addedUp counts = 1 ∧ 1 < s.subject.colors.length) ↔
      s.subject.ShowsAtOnce := by
    simp only [Characteristic.ShowsAtOnce, hcounts, Except.ok.injEq, exists_eq_left']
  have hnever : ¬ s.subject.type.IsNeverDark := by
    rcases htype with htype | htype <;>
      simp [LightType.IsNeverDark, LightType.IsDimmed, LightType.isContinuous, htype]
  refine ⟨fun _ => hfull, fun hdim => absurd hfull hdim, fun hdark => absurd hdark hnever, ?_, ?_⟩
  · intro hshows hlit
    rcases hcolor with ⟨-, hcolor⟩ | ⟨hdark, -⟩
    · rw [groupColors, if_pos (hiff.mpr hshows)] at hcolor
      exact List.mem_singleton.mp hcolor
    · rw [hlit] at hdark
      cases hdark
  · intro hother
    rcases hcolor with ⟨hlit, hcolor⟩ | ⟨-, hcolor⟩
    · rwa [groupColors, if_neg fun hshows => hother ⟨hiff.mp hshows, hlit⟩] at hcolor
    · exact hcolor

/-- The pieces of a fixed and flashing light are proper. -/
lemma fixedFlashingPieces_proper (htype : s.subject.type.IsDimmed)
    (h : fixedFlashingPieces s = .ok ps) (hp : p ∈ ps) : p.Proper s.subject := by
  obtain ⟨hlit, hcolor, hintensity⟩ := fixedFlashingPieces_mem h p hp
  have hflashing : s.subject.type ≠ .flashing := by
    rcases htype with htype | htype <;> simp [htype]
  refine ⟨?_, ?_, fun _ => hlit, fun hshows => absurd hshows.1 hflashing, fun _ => hcolor⟩
  · intro hdark
    rw [hlit] at hdark
    cases hdark
  · intro hdim
    exact ⟨hintensity.resolve_left hdim, hlit, htype⟩

/-- Every piece that a rule asks for is proper. -/
lemma pieces_proper (h : pieces compiler table s = .ok ps) (hp : p ∈ ps) : p.Proper s.subject := by
  cases htype : s.subject.type <;> simp only [pieces, htype] at h
  case fixed | directional | directionalFixed =>
    obtain ⟨hplain, hlit⟩ := steadyPieces_plain h p hp
    exact proper_of_plain hplain (by simp [htype]) fun _ => hlit
  case flashing => exact flashingPieces_proper (Or.inl htype) h hp
  case groupFlashing => exact flashingPieces_proper (Or.inr htype) h hp
  case fixedAndFlashing => exact fixedFlashingPieces_proper (Or.inl htype) h hp
  case flashingFixed => exact fixedFlashingPieces_proper (Or.inr htype) h hp
  -- the other types are neither composed nor dimmed, and they may be dark
  all_goals
    refine proper_of_plain ?_ (by simp [htype])
      (by simp [htype, LightType.IsNeverDark, LightType.IsDimmed, LightType.isContinuous])
  case longFlashing => exact longFlashingPieces_plain h p hp
  case quick | veryQuick | ultraQuick => exact quickPieces_plain h p hp
  case interruptedQuick => exact interruptedQuickPieces_plain h p hp
  case occulting | groupOcculting => exact occultingPieces_plain h p hp
  case isophase => exact isophasePieces_plain h p hp
  case alternating | alternatingFlashing | alternatingOcculting | alternatingIsophase =>
    exact alternatingPieces_plain h p hp
  case morse => exact morsePieces_plain h p hp

/-! ### Every segment is proper and long enough -/

/-- A longer last segment is as it was but for its duration. -/
lemma mem_stretchLast {extra : α} {ts : Timeline α} (hp : p ∈ stretchLast extra ts) :
    p ∈ ts ∨ ∃ q ∈ ts, p = { q with duration := q.duration + extra } := by
  induction ts with
  | nil => simp [stretchLast] at hp
  | cons q ts ih =>
    cases ts with
    | nil =>
      obtain rfl := List.mem_singleton.mp hp
      exact Or.inr ⟨q, List.mem_singleton_self q, rfl⟩
    | cons next ts =>
      rw [stretchLast] at hp
      · rcases List.mem_cons.mp hp with rfl | hp
        · exact Or.inl List.mem_cons_self
        rcases ih hp with hmem | ⟨q', hq', rfl⟩
        · exact Or.inl (List.mem_cons_of_mem q hmem)
        · exact Or.inr ⟨q', List.mem_cons_of_mem q hq', rfl⟩
      · simp

/-- What a rule shows is proper and long enough, if the durations that are long enough can be added
up. -/
lemma applyRule_proper
    (hadd : ∀ x y : α, shortest < x → shortest < y → shortest < x + y) {ts : Timeline α}
    (h : applyRule compiler table s = .ok ts) (hp : p ∈ ts) :
    shortest < p.duration ∧ p.Proper s.subject := by
  obtain ⟨ps, hps, rfl | ⟨-, extra, hextra, rfl⟩⟩ := exists_pieces h
  · obtain ⟨hmem, hlong⟩ := mem_shown.mp hp
    exact ⟨hlong, pieces_proper hps hmem⟩
  rcases mem_stretchLast hp with hp | ⟨q, hq, rfl⟩
  · obtain ⟨hmem, hlong⟩ := mem_shown.mp hp
    exact ⟨hlong, pieces_proper hps hmem⟩
  · obtain ⟨hmem, hlong⟩ := mem_shown.mp hq
    exact ⟨hadd _ _ hlong hextra, (pieces_proper hps hmem).withDuration _⟩

end

/-- The unpacked double below which nothing is shown. -/
lemma unpack_shortest :
    ∃ hm, (shortest : Float).toModel.unpack = .finite .positive 4835703278458517 (-82) hm :=
  ⟨by decide, rfl⟩

/-- Two durations that are long enough make one that is. -/
lemma shortest_lt_add {x y : Float} (hx : shortest < x) (hy : shortest < y) :
    shortest < x + y := by
  obtain ⟨hm, hunpack⟩ := unpack_shortest
  have hreaches : Double.Reaches (-82 + 1) (x + y) :=
    (Double.reaches_of_lt hunpack (by decide) hx).add (by decide)
      (Double.reaches_of_lt hunpack (by decide) hy)
  exact Double.lt_of_reaches hunpack hreaches

/-- **Timelines are well formed.**  Every segment that a compiler with all its rules gives is longer
than the shortest one, and proper: darkness is not dimmed, only the light behind flashes is dim,
steady lights are never dark, and a segment has a colour of its light, or their composite colour if
it is a flash that shows them at once. -/
theorem compile_proper {compiler : Compiler Float} {shared : Table String}
    {c : Characteristic Float} {ts : Timeline Float} (hrules : compiler.withoutRule = [])
    (h : compiler.compile shared (some c) = .ok ts) :
    ∀ p ∈ ts, shortest < p.duration ∧ p.Proper c := by
  intro p hp
  simp only [compile, hrules, List.not_mem_nil, if_false] at h
  exact applyRule_proper (fun _ _ => shortest_lt_add) h hp

/-- A dot with too little time left after it for a gap of its own: the gap of the dot is longer. -/
theorem stretched_dot_proper :
    (Compiler.standard : Compiler Float).withoutRule = [] ∧
      Compiler.standard.compile Morse.builtin (some ⟨.morse, some "E", ["W"], some 0.125⟩) =
        .ok [⟨true, 0.05, "W", 1.0⟩, ⟨false, 0.075, "W", 1.0⟩] ∧
      ∀ p ∈ ([⟨true, 0.05, "W", 1.0⟩, ⟨false, 0.075, "W", 1.0⟩] : Timeline Float),
        shortest < p.duration ∧ p.Proper ⟨.morse, some "E", ["W"], some 0.125⟩ := by
  have hts : (Compiler.standard : Compiler Float).compile Morse.builtin
      (some ⟨.morse, some "E", ["W"], some 0.125⟩) =
        .ok [⟨true, 0.05, "W", 1.0⟩, ⟨false, 0.075, "W", 1.0⟩] := by
    decide +kernel
  exact ⟨rfl, hts, compile_proper rfl hts⟩

end Compiler

end Seamark
