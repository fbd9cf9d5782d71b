import Mathlib
import Seamark.Proofs.Compiler.Cycle

/-!
# The slots of an occulting light

With exact times, an occulting light shows its groups one after the other, each as many counted
slots as it counts and one dark slot after them (`eclipseCycle`).  The dark slot of a group comes
about in three ways: as the gap before the next group, as the slot that closes a lone group, or as
what is left of the period after all that is shown.  Exactly one of the last two makes the dark slot
of the last group (`restPieces_occulting`), so that none is missing and none is there twice.
-/

namespace Seamark

namespace Compiler

variable {slot : Rat} {color : String} {counts : List Nat} {p : Segment Rat}

/-- The slots of a group: those that are counted are lit for a quarter, and a dark one follows. -/
def eclipseGroup (slot : Rat) (color : String) (count : Nat) : Timeline Rat :=
  repeated count [lit (1 / 4 * slot) color, unlit (3 / 4 * slot) color] ++ [unlit slot color]

/-- The cycle of an occulting light: its groups in a row. -/
def eclipseCycle (slot : Rat) (color : String) (counts : List Nat) : Timeline Rat :=
  counts.flatMap (eclipseGroup slot color)

/-! ### What a cycle is made of -/

lemma mem_eclipseCycle (hp : p ∈ eclipseCycle slot color counts) :
    p = lit (1 / 4 * slot) color ∨ p = unlit (3 / 4 * slot) color ∨ p = unlit slot color := by
  obtain ⟨count, -, hp⟩ := List.mem_flatMap.mp hp
  rcases List.mem_append.mp hp with hp | hp
  · have hpair := (mem_repeated_iff.mp hp).2
    simp only [List.mem_cons, List.not_mem_nil, or_false] at hpair
    exact hpair.imp_right .inl
  · exact .inr (.inr (List.mem_singleton.mp hp))

lemma shortest_lt_of_mem_eclipseCycle (hslot : shortest < 1 / 4 * slot)
    (hp : p ∈ eclipseCycle slot color counts) : shortest < p.duration := by
  have hpositive : (0 : Rat) < shortest := shortest_pos
  rcases mem_eclipseCycle hp with rfl | rfl | rfl
  · exact hslot
  · show shortest < 3 / 4 * slot
    linarith
  · show shortest < slot
    linarith

/-- There is a light for every counted slot. -/
lemma countP_eclipseCycle (slot : Rat) (color : String) (counts : List Nat) :
    (eclipseCycle slot color counts).countP (·.lit) = counts.sum := by
  induction counts with
  | nil => rfl
  | cons count counts ih =>
    have hgroup : (eclipseGroup slot color count).countP (·.lit) = count := by
      rw [eclipseGroup, List.countP_append, countP_repeated]
      simp [lit, unlit]
    rw [eclipseCycle, List.flatMap_cons, List.countP_append, ← eclipseCycle, hgroup, ih,
      List.sum_cons]

/-- The lights take a quarter of the counted slots. -/
lemma total_filter_lit_eclipseCycle (slot : Rat) (color : String) (counts : List Nat) :
    Timeline.total ((eclipseCycle slot color counts).filter (·.lit)) =
      counts.sum * (1 / 4 * slot) := by
  induction counts with
  | nil => simp [eclipseCycle, Timeline.total_rat]
  | cons count counts ih =>
    have hgroup : Timeline.total ((eclipseGroup slot color count).filter (·.lit)) =
        count * (1 / 4 * slot) := by
      rw [eclipseGroup, List.filter_append, filter_repeated, Timeline.total_append, total_repeated]
      simp [lit, unlit, Timeline.total_rat]
    rw [eclipseCycle, List.flatMap_cons, List.filter_append, Timeline.total_append, ← eclipseCycle,
      hgroup, ih, List.sum_cons]
    push_cast
    ring

/-- The cycle lasts for its counted slots and a dark one for each group. -/
lemma total_eclipseCycle (slot : Rat) (color : String) (counts : List Nat) :
    Timeline.total (eclipseCycle slot color counts) =
      (counts.sum + counts.length : Nat) * slot := by
  induction counts with
  | nil => simp [eclipseCycle, Timeline.total_rat]
  | cons count counts ih =>
    have hgroup : Timeline.total (eclipseGroup slot color count) = (count + 1) * slot := by
      rw [eclipseGroup, Timeline.total_append, total_repeated]
      simp only [Timeline.total_rat, List.map_cons, List.map_nil, List.sum_cons, List.sum_nil, lit,
        unlit]
      ring
    rw [eclipseCycle, List.flatMap_cons, Timeline.total_append, ← eclipseCycle, hgroup, ih,
      List.sum_cons, List.length_cons]
    push_cast
    ring

/-- A cycle in which every counted slot is lit for a quarter and is followed by a dark slot for each
group. -/
structure ShowsEclipses (slot : Rat) (color : String) (counts : List Nat) (cycle : Timeline Rat) :
    Prop where
  slots : cycle = eclipseCycle slot color counts
  /-- There are as many lights as the counts add up to. -/
  lights : cycle.countP (·.lit) = counts.sum
  /-- The light is on for less than a quarter of the cycle. -/
  minority : Timeline.total (cycle.filter (·.lit)) < cycle.total / 4

lemma eclipseCycle_showsEclipses (hslot : 0 < slot) (color : String) (hne : counts ≠ []) :
    ShowsEclipses slot color counts (eclipseCycle slot color counts) where
  slots := rfl
  lights := countP_eclipseCycle slot color counts
  minority := by
    have hlength : (0 : Rat) < counts.length := by exact_mod_cast List.length_pos_of_ne_nil hne
    have hdark : 0 < (counts.length : Rat) * slot := mul_pos hlength hslot
    rw [total_filter_lit_eclipseCycle, total_eclipseCycle]
    push_cast
    linarith

/-! ### What the rule shows -/

/-- The dark slot of the last group, where the group itself does not bring it. -/
def lastSlot (slot : Rat) (color : String) (closed : Bool) : Timeline Rat :=
  if closed then [] else [unlit slot color]

/-- The groups of the rule and the dark slot of the last one are all the groups. -/
lemma occultingGroupPieces_append (slot : Rat) (color : String) (closed : Bool)
    (hne : counts ≠ []) :
    occultingGroupPieces slot (slot * occultingShare) color closed counts
      ++ lastSlot slot color closed = eclipseCycle slot color counts := by
  have hon : slot * occultingShare = 1 / 4 * slot := by rw [occultingShare_rat, mul_comm]
  have hoff : slot - 1 / 4 * slot = 3 / 4 * slot := by ring
  rw [hon]
  induction counts with
  | nil => exact absurd rfl hne
  | cons count counts ih =>
    rw [eclipseCycle, List.flatMap_cons, ← eclipseCycle]
    cases counts with
    | nil =>
      rw [occultingGroupPieces, hoff, eclipseGroup]
      cases closed <;> simp [lastSlot, eclipseCycle]
    | cons next counts =>
      rw [occultingGroupPieces, hoff, List.append_assoc, ih (by simp), eclipseGroup]
      simp

/-- What is left of the period is the dark slot of the last group, unless the group is closed. -/
lemma restPieces_occulting {period : Rat} {closed : Bool} (hslot : 0 < slot)
    (hperiod : period = (counts.sum + counts.length : Nat) * slot) (hne : counts ≠ []) :
    restPieces (some period)
        (Timeline.total (occultingGroupPieces slot (slot * occultingShare) color closed counts))
        color = lastSlot slot color closed := by
  have htotal := congrArg Timeline.total (occultingGroupPieces_append slot color closed hne)
  rw [Timeline.total_append, total_eclipseCycle, ← hperiod] at htotal
  rw [restPieces]
  cases closed with
  | true =>
    have hnone : Timeline.total (lastSlot slot color true) = 0 := by
      simp [lastSlot, Timeline.total_rat]
    rw [if_neg (by linarith)]
    rfl
  | false =>
    have hlast : Timeline.total (lastSlot slot color false) = slot := by
      simp [lastSlot, unlit, Timeline.total_rat]
    have hleft : period - Timeline.total
        (occultingGroupPieces slot (slot * occultingShare) color false counts) = slot := by
      linarith
    rw [if_pos (by linarith), hleft]
    rfl

variable {compiler : Compiler Rat} {c : Characteristic Rat}

/-- The rule shows all its groups, each with its dark slot. -/
lemma occulting_eq_eclipseCycle (hcolors : c.colors ≠ [])
    (hcounts : Group.counts c.group = .ok counts)
    (hshare : slot = (Setup.of compiler c).safePeriod / (counts.sum + counts.length : Nat))
    (hslot : shortest < 1 / 4 * slot) :
    occulting (Setup.of compiler c) = .ok (eclipseCycle slot (colorAt c.colors 0) counts) := by
  have hread : (Setup.of compiler c).counts = .ok counts := counts_eq_ok_iff.mpr hcounts
  have hne := Group.counts_ne_nil hcounts
  have hpositive : 0 < slot := by linarith [shortest_pos]
  have hslots : (0 : Rat) < (counts.sum + counts.length : Nat) := by
    exact_mod_cast Nat.add_pos_right _ (List.length_pos_of_ne_nil hne)
  have hperiod : (Setup.of compiler c).safePeriod =
      (counts.sum + counts.length : Nat) * slot := by
    rw [hshare, mul_div_cancel₀ _ hslots.ne']
  obtain ⟨closed, hclosed⟩ :
      ∃ closed, closed = (counts.length == 1 && (Setup.of compiler c).isGrouped) := ⟨_, rfl⟩
  have happend := occultingGroupPieces_append slot (colorAt c.colors 0) closed hne
  -- nothing is left out, so that the rest is measured by all the pieces
  have hshown : shown (occultingGroupPieces slot (slot * occultingShare) (colorAt c.colors 0) closed
      counts) = occultingGroupPieces slot (slot * occultingShare) (colorAt c.colors 0) closed
        counts := by
    refine shown_eq_self fun p hp => ?_
    exact shortest_lt_of_mem_eclipseCycle hslot (happend ▸ List.mem_append_left _ hp)
  have hcycle : shown (eclipseCycle slot (colorAt c.colors 0) counts) =
      eclipseCycle slot (colorAt c.colors 0) counts :=
    shown_eq_self fun p hp => shortest_lt_of_mem_eclipseCycle hslot hp
  have hfirst : (Setup.of compiler c).firstColor = .ok (colorAt c.colors 0) := firstColor_eq hcolors
  rw [occulting_eq_shown, occultingPieces, hfirst, hread]
  simp only [bind, Except.bind, countNumber_eq, addedUp_eq_sum, ← hshare, ← hclosed, hshown]
  rw [restPieces_occulting hpositive hperiod hne, happend]
  exact congrArg Except.ok hcycle

/-- **The slots of an occulting light.**  The period is shared by the counted slots and one dark
slot for each group.  If a quarter of a slot is long enough to be shown, the light shows the groups
in order, each counted slot lit for a quarter and dark for the rest, and after each group its dark
slot, whatever the group in the notation is.  So there are as many lights as the counts add up to,
and they take less than a quarter of the cycle.  Only a group that cannot be read is in the way. -/
theorem compile_eclipses (shared : Table String) (hrule : c.type ∉ compiler.withoutRule)
    (htype : c.type = .occulting ∨ c.type = .groupOcculting) (hcolors : c.colors ≠ []) :
    (∃ e, Group.counts c.group = .error e ∧
        compiler.compile shared (some c) = .error (.tooManyDigits e)) ∨
      ∃ counts slot, Group.counts c.group = .ok counts ∧
        slot = (Setup.of compiler c).safePeriod / (counts.sum + counts.length : Nat) ∧
        (shortest < 1 / 4 * slot → ∃ cycle, compiler.compile shared (some c) = .ok cycle ∧
          ShowsEclipses slot (colorAt c.colors 0) counts cycle) := by
  have hsubject : (Setup.of compiler c).subject = c := rfl
  cases hgroup : Group.counts c.group with
  | error e =>
    have hreads : c.type.readsCounts = true := by
      rcases htype with htype | htype <;> rw [htype] <;> rfl
    exact .inl ⟨e, rfl, compile_eq_error_of_counts hrule hcolors hreads hgroup⟩
  | ok counts =>
    refine .inr ⟨counts, _, rfl, rfl, fun hslot => ⟨_, ?_, eclipseCycle_showsEclipses ?_ _ ?_⟩⟩
    · have happly : applyRule compiler (compiler.tableWith shared) (Setup.of compiler c) =
          occulting (Setup.of compiler c) := by
        rcases htype with htype | htype <;> simp only [applyRule, hsubject, htype]
      rw [compile_eq_applyRule shared hrule, happly]
      exact occulting_eq_eclipseCycle hcolors hgroup rfl hslot
    · linarith [shortest_pos]
    · exact Group.counts_ne_nil hgroup

/-- Two groups with an entry between them that is no number. -/
theorem mixed_group_eclipses :
    Compiler.standard.compile Morse.builtin
        (some ⟨.groupOcculting, some "2+x+1", ["R"], some (10 : Rat)⟩) =
      .ok [lit (1 / 2) "R", unlit (3 / 2) "R", lit (1 / 2) "R", unlit (3 / 2) "R", unlit 2 "R",
        lit (1 / 2) "R", unlit (3 / 2) "R", unlit 2 "R"] ∧
      shortest < (1 / 4 * 2 : Rat) ∧
      ShowsEclipses 2 "R" [2, 1] [lit (1 / 2) "R", unlit (3 / 2) "R", lit (1 / 2) "R",
        unlit (3 / 2) "R", unlit 2 "R", lit (1 / 2) "R", unlit (3 / 2) "R", unlit 2 "R"] := by
  have hgroup : Group.counts (some "2+x+1") = .ok [2, 1] := by decide +kernel
  have hrule : .groupOcculting ∉ (Compiler.standard : Compiler Rat).withoutRule := by
    simp [Compiler.standard]
  have hcompile : Compiler.standard.compile Morse.builtin
      (some ⟨.groupOcculting, some "2+x+1", ["R"], some (10 : Rat)⟩) =
        .ok [lit (1 / 2) "R", unlit (3 / 2) "R", lit (1 / 2) "R", unlit (3 / 2) "R", unlit 2 "R",
          lit (1 / 2) "R", unlit (3 / 2) "R", unlit 2 "R"] := by decide +kernel
  have hlong : shortest < (1 / 4 * 2 : Rat) := by decide +kernel
  rcases compile_eclipses (c := ⟨.groupOcculting, some "2+x+1", ["R"], some 10⟩) Morse.builtin hrule
      (.inr rfl) (by simp) with ⟨e, herror, -⟩ | ⟨counts, slot, hcounts, hslot, hshows⟩
  · rw [hgroup] at herror
    cases herror
  · obtain rfl : [2, 1] = counts := Except.ok.inj (hgroup.symm.trans hcounts)
    obtain rfl : slot = 2 := hslot.trans (by decide +kernel)
    obtain ⟨cycle, hcycle, hshown⟩ := hshows hlong
    obtain rfl : _ = cycle := Except.ok.inj (hcompile.symm.trans hcycle)
    exact ⟨hcompile, hlong, hshown⟩

/-- An occulting light shows no slots if its group has too many digits, even if they are all zeros
and so no count: there would be one counted slot of four seconds. -/
theorem zero_group_has_no_eclipses :
    Text.digitsValue (List.replicate 4301 '0') = 0 ∧ shortest < (1 / 4 * (8 / 2) : Rat) ∧
      ∀ ts : Timeline Rat, Compiler.standard.compile Morse.builtin
        (some ⟨.occulting, some (String.ofList (List.replicate 4301 '0')), ["W"], some 8⟩) ≠
          .ok ts := by
  have hdigits : ∀ d ∈ List.replicate 4301 '0', Group.isPlainDigit d = true := by
    intro d hd
    rw [List.eq_of_mem_replicate hd]
    rfl
  have hcompile : (Compiler.standard : Compiler Rat).compile Morse.builtin
      (some ⟨.occulting, some (String.ofList (List.replicate 4301 '0')), ["W"], some 8⟩) =
        .error (.tooManyDigits ⟨4301⟩) := by
    have hlong : maxDigits < (List.replicate 4301 '0').length := by
      rw [List.length_replicate]
      decide
    have hcounts := Group.counts_of_digits hdigits hlong
    rw [List.length_replicate] at hcounts
    exact compile_of_counts_eq_error rfl (by decide) rfl hcounts
  refine ⟨by decide +kernel, by decide +kernel, fun ts hts => ?_⟩
  rw [hcompile] at hts
  cases hts

end Compiler

end Seamark
