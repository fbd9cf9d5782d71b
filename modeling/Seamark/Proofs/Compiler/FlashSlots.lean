import Mathlib
import Seamark.Proofs.Compiler.Slots

/-!
# The slots of an alternating flashing light

A slot of flashes has a floor under its flashes, so that it can take longer than its share of the
cycle.  With exact times, three cases decide how long it is.  The set gaps leave room, or the gaps
shrink to what the flashes leave, and the slot takes its share; or the flashes alone take longer
than the share, the gaps are gone, and the flashes are all there is (`usedTime_cases`).  The last
case is the one where a twentieth of a second for each flash is more than the share.

So a cycle of such slots is never shorter than its period, but for what is left out, and as long as
its period exactly if no slot overruns.
-/

namespace Seamark

/-- A sum of numbers that are no less than `a` is no less than so many times `a`, and equal to that
only if all of them are `a`. -/
lemma sum_eq_length_mul_iff {xs : List Rat} {a : Rat} (h : ∀ x ∈ xs, a ≤ x) :
    xs.length * a ≤ xs.sum ∧ (xs.sum = xs.length * a ↔ ∀ x ∈ xs, x = a) := by
  induction xs with
  | nil => simp
  | cons x xs ih =>
    obtain ⟨hle, heq⟩ := ih fun y hy => h y (List.mem_cons_of_mem x hy)
    have hx : a ≤ x := h x List.mem_cons_self
    have hlength : ((x :: xs).length : Rat) * a = a + xs.length * a := by
      rw [List.length_cons]
      push_cast
      ring
    rw [hlength, List.sum_cons, List.forall_mem_cons, ← heq]
    refine ⟨by linarith, fun hsum => ⟨by linarith, by linarith⟩, fun hboth => ?_⟩
    rw [hboth.1, hboth.2]

namespace Compiler

variable {slot : Rat} {count : Nat}

/-! ### The time of a slot -/

lemma slotLight_flashes_bounds (slot : Rat) (count : Nat) :
    1 / 20 ≤ slotLight .flashes slot count ∧ slotLight .flashes slot count ≤ 3 / 10 := by
  rw [slotLight]
  exact ⟨le_min (by norm_num) (le_max_left _ _), min_le_left _ _⟩

/-- The flashes fit into the slot exactly if the shortest ones do. -/
lemma flashes_fit_iff (hcount : 0 < count) :
    count * slotLight .flashes slot count ≤ slot ↔ 1 / 20 * count ≤ slot := by
  have hpos : (0 : Rat) < count := by exact_mod_cast hcount
  have hfloor := (slotLight_flashes_bounds slot count).1
  refine ⟨fun hfit => ?_, fun hfit => ?_⟩
  · calc 1 / 20 * (count : Rat) ≤ slotLight .flashes slot count * count :=
          mul_le_mul_of_nonneg_right hfloor hpos.le
      _ = count * slotLight .flashes slot count := mul_comm _ _
      _ ≤ slot := hfit
  · -- each flash is no longer than its beat
    have hbeat : 1 / 20 ≤ slot / count := (le_div_iff₀ hpos).mpr hfit
    have hlight : slotLight .flashes slot count ≤ slot / count := by
      rw [slotLight]
      exact (min_le_right _ _).trans (max_le hbeat (by linarith))
    calc count * slotLight .flashes slot count ≤ count * (slot / count) :=
          mul_le_mul_of_nonneg_left hlight hpos.le
      _ = slot := mul_div_cancel₀ _ hpos.ne'

lemma slotGap_flashes_nonneg (slot : Rat) (count : Nat) : 0 ≤ slotGap .flashes slot count := by
  rw [slotGap]
  split_ifs
  · exact le_max_left _ _
  · norm_num

/-- The flashes and gaps of a slot fit into it, or the flashes take all the time and there is none
for gaps. -/
lemma usedTime_cases (hcount : 0 < count) (slot : Rat) :
    usedTime slot count ≤ slot ∨ usedTime slot count = count * slotLight .flashes slot count ∧
      (1 < count → slotGap .flashes slot count = 0) := by
  by_cases hseveral : 1 < count
  · have hgaps : (0 : Rat) < (count - 1 : Nat) := by exact_mod_cast Nat.sub_pos_of_lt hseveral
    by_cases hwide : slot < wideTime slot count
    · -- the gaps shrink to what the flashes leave
      have hgap : slotGap .flashes slot count =
          max 0 ((slot - count * slotLight .flashes slot count) / (count - 1 : Nat)) := by
        rw [slotGap, if_pos ⟨hwide, hseveral⟩]
      rcases le_total (count * slotLight .flashes slot count) slot with hfit | hfull
      · left
        have hleft : 0 ≤ (slot - count * slotLight .flashes slot count) / (count - 1 : Nat) :=
          div_nonneg (sub_nonneg.mpr hfit) hgaps.le
        rw [usedTime, hgap, max_eq_right hleft, mul_div_cancel₀ _ hgaps.ne', sub_add_cancel]
      · right
        have hnone : slotGap .flashes slot count = 0 := by
          rw [hgap]
          exact max_eq_left (div_nonpos_of_nonpos_of_nonneg (sub_nonpos.mpr hfull) hgaps.le)
        exact ⟨by rw [usedTime, hnone, mul_zero, zero_add], fun _ => hnone⟩
    · -- there is room for the set gaps
      left
      have hgap : slotGap .flashes slot count = 7 / 10 := by
        rw [slotGap, if_neg fun h => hwide h.1]
      rw [usedTime, hgap, ← wideTime_eq hcount]
      exact not_lt.mp hwide
  · -- a single flash has no gaps
    right
    obtain rfl : count = 1 := by omega
    exact ⟨by simp [usedTime], fun h => absurd h hseveral⟩

lemma flashes_le_usedTime (slot : Rat) (count : Nat) :
    count * slotLight .flashes slot count ≤ usedTime slot count := by
  have hgaps : 0 ≤ ((count - 1 : Nat) : Rat) * slotGap .flashes slot count :=
    mul_nonneg (Nat.cast_nonneg _) (slotGap_flashes_nonneg slot count)
  rw [usedTime]
  linarith

lemma usedTime_nonneg (slot : Rat) (count : Nat) : 0 ≤ usedTime slot count := by
  have hfloor := (slotLight_flashes_bounds slot count).1
  have hlit : 0 ≤ (count : Rat) * slotLight .flashes slot count :=
    mul_nonneg (Nat.cast_nonneg _) (by linarith)
  exact hlit.trans (flashes_le_usedTime slot count)

/-- A slot of flashes asks for its share of the cycle, or for its flashes if they take longer. -/
lemma askedTime_slotRun_flashes (hcount : 0 < count) (slot : Rat) (color : String) :
    askedTime (slotRun .flashes slot color count) =
      max slot (count * slotLight .flashes slot count) := by
  have hfloor := (slotLight_flashes_bounds slot count).1
  have hlight : 0 ≤ slotLight .flashes slot count := by linarith
  have hasked : askedTime (slotRun .flashes slot color count) =
      usedTime slot count + max 0 (slot - usedTime slot count) := by
    rw [slotRun, askedTime_flashRun hcount, max_eq_right hlight,
      max_eq_right (slotGap_flashes_nonneg slot count), slotRest, usedTime]
    ring
  rw [hasked]
  rcases usedTime_cases hcount slot with hfit | ⟨hfull, -⟩
  · rw [max_eq_right (sub_nonneg.mpr hfit), add_sub_cancel,
      max_eq_left ((flashes_le_usedTime slot count).trans hfit)]
  · rw [← hfull, ← max_add_add_left, add_zero, add_sub_cancel, max_comm]

/-- Darkness in a slot of flashes is no longer than the slot. -/
lemma dark_le_slot {color : String} {p : Segment Rat} (hcount : 0 < count)
    (hp : p ∈ shown (slotRun .flashes slot color count)) (hdark : p.lit = false) :
    p.duration ≤ slot := by
  obtain ⟨hmem, hlong⟩ := mem_shown.mp hp
  rcases mem_flashRun hmem with rfl | ⟨hseveral, rfl⟩ | rfl
  · cases hdark
  · have hgap : 0 < slotGap .flashes slot count := shortest_pos.trans hlong
    show slotGap .flashes slot count ≤ slot
    rcases usedTime_cases hcount slot with hfit | ⟨-, hnone⟩
    · have hone : (1 : Rat) ≤ (count - 1 : Nat) := by exact_mod_cast Nat.le_sub_one_of_lt hseveral
      have hlit : 0 ≤ (count : Rat) * slotLight .flashes slot count :=
        mul_nonneg (Nat.cast_nonneg _) (by linarith [slotLight_flashes_bounds slot count])
      calc slotGap .flashes slot count
          ≤ (count - 1 : Nat) * slotGap .flashes slot count := le_mul_of_one_le_left hgap.le hone
        _ ≤ usedTime slot count := le_add_of_nonneg_right hlit
        _ ≤ slot := hfit
    · exact absurd (hnone hseveral) hgap.ne'
  · show slot - usedTime slot count ≤ slot
    exact sub_le_self _ (usedTime_nonneg slot count)

/-- What is shown in a slot of flashes that has some share of the cycle. -/
structure IsFlashSlot (slot : Rat) (color : String) (count : Nat) (on : Rat) (run : Timeline Rat) :
    Prop where
  is_slot : IsSlot color count on (slotGap .flashes slot count) run
  /-- A flash takes three fifths of its beat within set bounds. -/
  light : on = min (3 / 10) (max (1 / 20) (3 / 5 * (slot / count)))
  bounds : 1 / 20 ≤ on ∧ on ≤ 3 / 10
  dark_le : ∀ p ∈ shown run, p.lit = false → p.duration ≤ slot
  /-- But for what is left out, the slot takes its share or, if that is longer, its flashes. -/
  lasts : (shown run).total + (leftOut run).total = max slot (count * on)
  /-- The slot overruns exactly if the shortest flashes would. -/
  overruns_iff : slot < (shown run).total ↔ slot < 1 / 20 * count

lemma slotRun_isFlashSlot (hcount : 0 < count) (slot : Rat) (color : String) :
    IsFlashSlot slot color count (slotLight .flashes slot count)
      (slotRun .flashes slot color count) := by
  have hbounds := slotLight_flashes_bounds slot count
  have hon : shortest < slotLight .flashes slot count := by
    have hshort : (shortest : Rat) < 1 / 20 := by norm_num [shortest_rat]
    exact hshort.trans_le hbounds.1
  have hlasts := (total_shown_add_leftOut (slotRun .flashes slot color count)).trans
    (askedTime_slotRun_flashes hcount slot color)
  refine ⟨flashRun_isSlot hcount hon, rfl, hbounds, fun p hp => dark_le_slot hcount hp, hlasts, ?_⟩
  have hfits : slot < count * slotLight .flashes slot count ↔ slot < 1 / 20 * count := by
    rw [← not_le, ← not_le, flashes_fit_iff hcount]
  rw [← hfits]
  refine ⟨fun hlong => ?_, fun hlong => hlong.trans_le (flashes_le_total hcount hon)⟩
  -- what is shown is no longer than what is asked for
  by_contra hshort
  rw [max_eq_left (not_lt.mp hshort)] at hlasts
  linarith [total_leftOut_nonneg (slotRun .flashes slot color count)]

/-! ### The time of a cycle -/

variable {slots : List Nat}

lemma askedTime_flatten (runs : List (Timeline Rat)) :
    askedTime runs.flatten = (runs.map askedTime).sum := by
  induction runs with
  | nil => rfl
  | cons run runs ih => rw [List.flatten_cons, askedTime_append, ih, List.map_cons, List.sum_cons]

lemma map_askedTime_slotRuns (hslots : ∀ count ∈ slots, 0 < count) (slot : Rat)
    (colors : List String) :
    (slotRuns .flashes slot colors slots).map askedTime =
      slots.map fun count => max slot (count * slotLight .flashes slot count) := by
  refine List.ext_getElem (by simp [slotRuns]) fun place hplace _ => ?_
  have hlt : place < slots.length := by simpa [slotRuns] using hplace
  have hpos : 0 < slots[place] := hslots _ (List.getElem_mem _)
  simp [slotRuns, askedTime_slotRun_flashes hpos]

/-- A cycle of flashes asks for its period at least, and for no more exactly if no slot overruns. -/
lemma askedTime_slotRuns (hne : slots ≠ []) (hslots : ∀ count ∈ slots, 0 < count) (period : Rat)
    (colors : List String) :
    period ≤ askedTime (slotRuns .flashes (period / slots.length) colors slots).flatten ∧
      (askedTime (slotRuns .flashes (period / slots.length) colors slots).flatten = period ↔
        ∀ count ∈ slots, 1 / 20 * count ≤ period / slots.length) := by
  have hlength : (slots.length : Rat) ≠ 0 := by
    exact_mod_cast (List.length_pos_of_ne_nil hne).ne'
  obtain ⟨slot, hslot⟩ : ∃ slot, slot = period / slots.length := ⟨_, rfl⟩
  have hperiod : slots.length * slot = period := by rw [hslot, mul_div_cancel₀ _ hlength]
  have hshares : ∀ time ∈ slots.map fun count => max slot (count * slotLight .flashes slot count),
      slot ≤ time := by
    intro time htime
    obtain ⟨count, -, rfl⟩ := List.mem_map.mp htime
    exact le_max_left _ _
  obtain ⟨hle, heq⟩ := sum_eq_length_mul_iff hshares
  rw [List.length_map, hperiod] at hle heq
  rw [← hslot, askedTime_flatten, map_askedTime_slotRuns hslots, heq, List.forall_mem_map]
  refine ⟨hle, forall₂_congr fun count hcount => ?_⟩
  rw [max_eq_left_iff, flashes_fit_iff (hslots count hcount)]

variable {compiler : Compiler Rat} {c : Characteristic Rat}

/-- **The slots of an alternating flashing light.**  Each slot has its flashes, all of one length
within set bounds, and no darkness longer than its share of the cycle.  It takes that share or, if
this is longer, the time of its flashes, but for what is left out; and it overruns exactly if the
shortest flashes would.  So the cycle is never shorter than its period, but for what is left out,
and as long exactly if no slot overruns.  Only a group that cannot be read is in the way. -/
theorem compile_flashSlots (shared : Table String) (hrule : c.type ∉ compiler.withoutRule)
    (htype : c.type = .alternatingFlashing) (hcolors : c.colors ≠ []) :
    (∃ e, Group.counts c.group = .error e ∧
        compiler.compile shared (some c) = .error (.tooManyDigits e)) ∨
      ∃ slots slot cycle left, ShowsSlots compiler shared c slots slot ∧
        (∀ place count, slots[place]? = some count →
          IsFlashSlot slot (colorAt c.colors place) count (slotLight .flashes slot count)
            (slotRun .flashes slot (colorAt c.colors place) count)) ∧
        compiler.compile shared (some c) = .ok cycle ∧
        left = leftOut (slotRuns .flashes slot c.colors slots).flatten ∧
        (Setup.of compiler c).safePeriod ≤ cycle.total + left.total ∧
        (cycle.total + left.total = (Setup.of compiler c).safePeriod ↔
          ∀ count ∈ slots, 1 / 20 * count ≤ slot) := by
  refine (exists_showsSlots shared hrule (by rw [htype]; rfl) hcolors).imp_right ?_
  rintro ⟨slots, slot, h⟩
  have hstyle : slotStyle c.type = .flashes := h.styled.trans (if_pos htype)
  have hcycle : compiler.compile shared (some c) =
      .ok (shown (slotRuns .flashes slot c.colors slots).flatten) := by
    rw [h.compiled, hstyle]
    exact congrArg Except.ok (List.filter_flatten ..).symm
  refine ⟨slots, slot, _, _, h, fun place count hplace => ?_, hcycle, rfl, ?_⟩
  · exact slotRun_isFlashSlot (h.pos count (List.mem_of_getElem? hplace)) slot _
  · rw [total_shown_add_leftOut, h.share]
    exact askedTime_slotRuns (h.ne_nil hcolors) h.pos _ c.colors

/-- Two slots of a tenth of a second: three flashes take longer than that, and one does not. -/
theorem crowded_flashSlots :
    Compiler.standard.compile Morse.builtin
        (some ⟨.alternatingFlashing, some "3+1", ["W", "R"], some (1 / 5 : Rat)⟩) =
      .ok [lit (1 / 20) "W", lit (1 / 20) "W", lit (1 / 20) "W", lit (3 / 50) "R",
        unlit (1 / 25) "R"] ∧
      IsFlashSlot (1 / 10) "W" 3 (1 / 20) (slotRun .flashes (1 / 10) "W" 3) ∧
      IsFlashSlot (1 / 10) "R" 1 (3 / 50) (slotRun .flashes (1 / 10) "R" 1) := by
  have hgroup : Group.counts (some "3+1") = .ok [3, 1] := by decide +kernel
  have hrule : .alternatingFlashing ∉ (Compiler.standard : Compiler Rat).withoutRule := by
    simp [Compiler.standard]
  rcases compile_flashSlots (c := ⟨.alternatingFlashing, some "3+1", ["W", "R"], some (1 / 5)⟩)
      Morse.builtin hrule rfl (by simp) with
    ⟨e, herror, -⟩ | ⟨slots, slot, cycle, left, h, hslots, -⟩
  · rw [hgroup] at herror
    cases herror
  · obtain ⟨counts, hcounts, rfl⟩ := h.counted
    obtain rfl : [3, 1] = counts := Except.ok.inj (hgroup.symm.trans hcounts)
    obtain rfl : slot = 1 / 10 := h.share.trans (by decide +kernel)
    have hcycle : ((slotRuns .flashes (1 / 10) ["W", "R"] [3, 1]).map shown).flatten =
        [lit (1 / 20) "W", lit (1 / 20) "W", lit (1 / 20) "W", lit (3 / 50) "R",
          unlit (1 / 25) "R"] := by decide +kernel
    have hfloor : slotLight .flashes (1 / 10) 3 = 1 / 20 := by decide +kernel
    have hshare : slotLight .flashes (1 / 10) 1 = 3 / 50 := by decide +kernel
    exact ⟨h.compiled.trans (congrArg Except.ok hcycle), hfloor ▸ hslots 0 3 rfl,
      hshare ▸ hslots 1 1 rfl⟩

/-- An alternating flashing light has no flashes if its group has a number of too many digits, even
though a single group does not count them: there would be one slot of eight seconds. -/
theorem overlong_group_has_no_flashes :
    ¬ ∃ ts : Timeline Rat, Compiler.standard.compile Morse.builtin
      (some ⟨.alternatingFlashing, some (String.ofList (List.replicate 4301 '1')), ["W"],
        some 8⟩) = .ok ts := by
  rintro ⟨ts, hts⟩
  have hcompile : (Compiler.standard : Compiler Rat).compile Morse.builtin
      (some ⟨.alternatingFlashing, some (String.ofList (List.replicate 4301 '1')), ["W"], some 8⟩) =
        .error (.tooManyDigits ⟨4301⟩) :=
    compile_of_counts_eq_error rfl (by decide) rfl (Group.counts_ones (by decide))
  rw [hcompile] at hts
  cases hts

end Compiler

end Seamark
