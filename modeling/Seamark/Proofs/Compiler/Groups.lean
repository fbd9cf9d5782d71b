import Mathlib
import Seamark.Proofs.Compiler.Cycle
import Seamark.Proofs.List

/-!
# The groups of a flashing light

With exact times, the cycle of a flashing light is told by its counts: a group of flashes for each
count, three tenths of a second each with seven tenths between two, two seconds between two groups,
all of it shortened by one factor if it does not fit the period, and the rest of the period dark
(`flashCycle`).  The rule builds this pattern place by place; here it is the groups in a row with a
gap between two of them (`patternFrom_eq`), and if a shortened flash is long enough to be shown then
nothing of it is left out.  So the counts can be read off the cycle again, by cutting it at the gaps
between the groups (`flashCounts_flashCycle`).
-/

namespace Seamark

/-- The flashes in a timeline, counted by the parts into which gaps of some length cut it.  A part
without a flash, like the one after a gap at the end, does not count. -/
def flashCounts (gap : Rat) (ts : Timeline Rat) : List Nat :=
  ((ts.splitOnP fun p => !p.lit && decide (p.duration = gap)).map (·.countP (·.lit))).filter (0 < ·)

namespace Compiler

/-- The factor by which a pattern that takes some time is shortened: what makes it fit the period,
and never longer. -/
def commonScale (period : Option Rat) (time : Rat) : Rat :=
  period.elim 1 fun p => min 1 (p / time)

/-- The colours that the groups of a light take in turn: all its colours at once if it is a flashing
light with a single flash. -/
def flashColors (c : Characteristic Rat) (counts : List Nat) : List String :=
  if c.type = .flashing ∧ counts.sum = 1 ∧ 1 < c.colors.length then [composite c.colors]
  else c.colors

/-- A group of flashes with darkness between two of them. -/
def flashGroup (scale : Rat) (base color : String) (count : Nat) : Timeline Rat :=
  (List.replicate count (lit (3 / 10 * scale) color)).intersperse (unlit (7 / 10 * scale) base)

/-- The groups of a light, each in its colour. -/
def flashGroups (scale : Rat) (base : String) (colors : List String) (counts : List Nat) :
    List (Timeline Rat) :=
  counts.mapIdx fun place count => flashGroup scale base (colorAt colors place) count

/-- The darkness that is left of a period, if it is long enough to be shown. -/
def flashRest (period : Option Rat) (used : Rat) (base : String) : Timeline Rat :=
  period.elim [] fun p => shown [unlit (p - used) base]

/-- The cycle of a flashing light: its groups with a gap between two of them, then the rest of the
period.  Darkness has the first colour. -/
def flashCycle (c : Characteristic Rat) (counts : List Nat) : Timeline Rat :=
  let scale := commonScale c.timing (patternTime counts)
  let base := colorAt c.colors 0
  [unlit (2 * scale) base].intercalate (flashGroups scale base (flashColors c counts) counts)
    ++ flashRest c.timing (patternTime counts * scale) base

/-! ### The pattern -/

/-- The beats of a group are a group of flashes once they are shortened. -/
lemma map_groupBeats (scale : Rat) (base color : String) (count : Nat) :
    (groupBeats base color count).map (Beat.piece scale) = flashGroup scale base color count := by
  rw [groupBeats, List.map_intersperse, List.map_replicate, flashWeight_rat, flashGapWeight_rat]
  rfl

/-- The groups of a pattern in a row, shortened. -/
lemma map_patternFrom {base : String} {colors : List String} {counts : List Nat}
    {beats : List (Beat Rat)} (hcolors : colors ≠ [])
    (h : patternFrom base colors 0 counts = .ok beats) (scale : Rat) :
    beats.map (Beat.piece scale) =
      [unlit (2 * scale) base].intercalate (flashGroups scale base colors counts) := by
  rw [patternFrom_eq hcolors] at h
  rw [← Except.ok.inj h, List.map_intercalate, groupGapWeight_rat]
  congr 1
  refine List.ext_getElem (by simp [flashGroups]) fun place _ _ => ?_
  simp [flashGroups, map_groupBeats]

/-! ### What a cycle is made of -/

lemma mem_flashGroup {scale : Rat} {base color : String} {count : Nat} {p : Segment Rat}
    (hp : p ∈ flashGroup scale base color count) :
    p = lit (3 / 10 * scale) color ∨ p = unlit (7 / 10 * scale) base := by
  rcases List.mem_intersperse hp with rfl | hp
  · exact Or.inr rfl
  · exact Or.inl (List.eq_of_mem_replicate hp)

/-- A group has as many flashes as it counts. -/
lemma countP_flashGroup (scale : Rat) (base color : String) (count : Nat) :
    (flashGroup scale base color count).countP (·.lit) = count := by
  induction count with
  | zero => rfl
  | succ count ih =>
    cases count with
    | zero => rfl
    | succ count =>
      -- a flash and a gap before the other flashes
      have hcons : flashGroup scale base color (count + 2) =
          lit (3 / 10 * scale) color :: unlit (7 / 10 * scale) base ::
            flashGroup scale base color (count + 1) := rfl
      rw [hcons, List.countP_cons, List.countP_cons, ih]
      rfl

lemma mem_flashGroups {scale : Rat} {base : String} {colors : List String} {counts : List Nat}
    {group : Timeline Rat} (h : group ∈ flashGroups scale base colors counts) :
    ∃ color, ∃ count ∈ counts, group = flashGroup scale base color count := by
  obtain ⟨place, hplace, rfl⟩ := List.mem_mapIdx.mp h
  exact ⟨_, _, List.getElem_mem hplace, rfl⟩

lemma map_countP_flashGroups (scale : Rat) (base : String) (colors : List String)
    (counts : List Nat) :
    (flashGroups scale base colors counts).map (·.countP (·.lit)) = counts := by
  refine List.ext_getElem (by simp [flashGroups]) fun place _ _ => ?_
  simp [flashGroups, countP_flashGroup]

lemma countP_intercalate (gap : Rat) (base : String) (groups : List (Timeline Rat)) :
    ([unlit gap base].intercalate groups).countP (·.lit) =
      (groups.map (·.countP (·.lit))).sum := by
  induction groups with
  | nil => rfl
  | cons group groups ih =>
    cases groups with
    | nil => simp
    | cons next groups =>
      rw [List.intercalate_cons_cons, List.countP_append, List.countP_append, ih, List.map_cons,
        List.sum_cons]
      simp [unlit]

/-- What is left of a period is one piece of darkness at most. -/
lemma flashRest_eq (period : Option Rat) (used : Rat) (base : String) :
    flashRest period used base = [] ∨ ∃ left, flashRest period used base = [unlit left base] := by
  cases period with
  | none => exact Or.inl rfl
  | some p => exact (shown_unlit_cases _ _).imp_right fun h => ⟨_, h⟩

/-! ### Cutting a cycle at its gaps -/

section

variable {gap : Rat} {base : String} {group rest ts : Timeline Rat}

/-- The first gap cuts off the group before it. -/
lemma flashCounts_append_gap (hgroup : ∀ p ∈ group, p.lit = true ∨ p.duration ≠ gap)
    (hflash : 0 < group.countP (·.lit)) :
    flashCounts gap (group ++ unlit gap base :: ts) =
      group.countP (·.lit) :: flashCounts gap ts := by
  have hinner : ∀ p ∈ group, (!p.lit && decide (p.duration = gap)) = false := by
    intro p hp
    rcases hgroup p hp with hlit | hne
    · simp [hlit]
    · simp [hne]
  rw [flashCounts, List.splitOnP_append_cons_of_forall_mem hinner _ (by simp [unlit]),
    List.map_cons, List.filter_cons_of_pos (by simpa using hflash)]
  rfl

/-- Darkness after the last group does not count, whether it lasts as long as a gap or not. -/
lemma flashCounts_append_rest (hgroup : ∀ p ∈ group, p.lit = true ∨ p.duration ≠ gap)
    (hflash : 0 < group.countP (·.lit)) (hrest : rest = [] ∨ ∃ left, rest = [unlit left base]) :
    flashCounts gap (group ++ rest) = [group.countP (·.lit)] := by
  obtain ⟨left, hleft⟩ | hne : (∃ left, rest = [unlit left base] ∧ left = gap) ∨
      ∀ p ∈ rest, p.lit = false ∧ p.duration ≠ gap := by
    rcases hrest with rfl | ⟨left, rfl⟩
    · exact Or.inr (by simp)
    · by_cases h : left = gap
      · exact Or.inl ⟨left, rfl, h⟩
      · exact Or.inr (by simpa [unlit] using h)
  · obtain ⟨rfl, rfl⟩ := hleft
    rw [flashCounts_append_gap hgroup hflash]
    rfl
  · have hinner : ∀ p ∈ group ++ rest, (!p.lit && decide (p.duration = gap)) = false := by
      intro p hp
      rcases List.mem_append.mp hp with hp | hp
      · rcases hgroup p hp with hlit | hne
        · simp [hlit]
        · simp [hne]
      · simp [(hne p hp).2]
    have hdark : rest.countP (·.lit) = 0 :=
      List.countP_eq_zero.mpr fun p hp => by simp [(hne p hp).1]
    rw [flashCounts, List.splitOnP_eq_singleton hinner, List.map_singleton, List.countP_append,
      hdark, Nat.add_zero, List.filter_cons_of_pos (by simpa using hflash)]
    rfl

/-- Groups with gaps between them are told apart by the gaps. -/
lemma flashCounts_intercalate {groups : List (Timeline Rat)} (hne : groups ≠ [])
    (hgroups : ∀ group ∈ groups, (∀ p ∈ group, p.lit = true ∨ p.duration ≠ gap) ∧
      0 < group.countP (·.lit))
    (hrest : rest = [] ∨ ∃ left, rest = [unlit left base]) :
    flashCounts gap ([unlit gap base].intercalate groups ++ rest) =
      groups.map (·.countP (·.lit)) := by
  induction groups with
  | nil => exact absurd rfl hne
  | cons group groups ih =>
    obtain ⟨hgroup, hflash⟩ := hgroups group List.mem_cons_self
    cases groups with
    | nil =>
      rw [List.intercalate_singleton, List.map_singleton]
      exact flashCounts_append_rest hgroup hflash hrest
    | cons next groups =>
      have hothers := ih (by simp) fun other hother => hgroups other (List.mem_cons_of_mem _ hother)
      rw [List.intercalate_cons_cons, List.append_assoc, List.append_assoc, List.singleton_append,
        flashCounts_append_gap hgroup hflash, hothers]
      rfl

end

/-! ### The cycle -/

section

variable {compiler : Compiler Rat} {c : Characteristic Rat} {counts : List Nat}

/-- A pattern with a flash takes some time. -/
lemma patternTime_pos (hne : counts ≠ []) (hpos : ∀ n ∈ counts, 0 < n) :
    0 < patternTime counts := by
  have hgroups : 0 < (counts.map groupTime).sum := by
    refine List.sum_pos _ ?_ (by simpa using hne)
    intro time htime
    obtain ⟨n, hn, rfl⟩ := List.mem_map.mp htime
    have hflashes : (0 : Rat) < n := by exact_mod_cast hpos n hn
    rw [groupTime]
    positivity
  rw [patternTime]
  positivity

lemma timeScale_eq_commonScale {time : Rat} (htime : 0 < time) (period : Option Rat) :
    timeScale period time = commonScale period time := by
  have hone : (1.0 : Rat) = 1 := by norm_num
  cases period with
  | none => exact hone
  | some p =>
    rw [timeScale, commonScale, Option.elim_some, hone]
    split
    case isTrue hlong => rw [min_eq_right ((div_le_one htime).mpr hlong.le)]
    case isFalse hshort => rw [min_eq_left ((one_le_div htime).mpr (not_lt.mp hshort))]

lemma commonScale_le_one (period : Option Rat) (time : Rat) : commonScale period time ≤ 1 := by
  cases period with
  | none => exact le_refl 1
  | some p => exact min_le_left _ _

/-- The pieces of the groups of a pattern are all long enough if a shortened flash is. -/
lemma shortest_lt_of_mem_groups {scale : Rat} {base : String} {colors : List String}
    (hscale : shortest < 3 / 10 * scale) {p : Segment Rat}
    (hp : p ∈ [unlit (2 * scale) base].intercalate (flashGroups scale base colors counts)) :
    shortest < p.duration := by
  have hpositive : (0 : Rat) < shortest := shortest_pos
  rcases List.mem_intercalate hp with hp | ⟨group, hgroup, hp⟩
  · rw [List.mem_singleton.mp hp]
    show shortest < 2 * scale
    linarith
  · obtain ⟨color, count, -, rfl⟩ := mem_flashGroups hgroup
    rcases mem_flashGroup hp with rfl | rfl
    · exact hscale
    · show shortest < 7 / 10 * scale
      linarith

lemma shown_restPieces (period : Option Rat) (used : Rat) (base : String) :
    shown (restPieces period used base) = flashRest period used base := by
  cases period with
  | none => rfl
  | some p =>
    rw [restPieces, flashRest, Option.elim_some]
    split
    case isTrue => rfl
    case isFalse hfull =>
      have hshort : ¬ shortest < p - used := by linarith [not_lt.mp hfull, shortest_pos]
      rw [shown_unlit_of_not_lt hshort, shown_nil]

/-- The rule for flashing lights shows the groups and the rest of the period. -/
lemma flashing_eq_flashCycle (hcounts : Group.counts c.group = .ok counts) (hcolors : c.colors ≠ [])
    (hscale : shortest < 3 / 10 * commonScale c.timing (patternTime counts)) :
    flashing (Setup.of compiler c) = .ok (flashCycle c counts) := by
  have hread : (Setup.of compiler c).counts = .ok counts := counts_eq_ok_iff.mpr hcounts
  have hgroupColors : groupColors (Setup.of compiler c) counts = flashColors c counts := by
    rw [groupColors, flashColors, addedUp_eq_sum]
    rfl
  obtain ⟨ps, hps⟩ := (exists_flashingPieces_iff (s := Setup.of compiler c) hcolors).mpr ⟨_, hread⟩
  obtain ⟨counts', base, beats, weight, scale, hcounts', hbase, hbeats, hweight, hscaleEq, rfl⟩ :=
    exists_of_flashingPieces hps
  obtain rfl : counts = counts' := Except.ok.inj (hread.symm.trans hcounts')
  have hfirst : (Setup.of compiler c).firstColor = .ok (colorAt c.colors 0) := firstColor_eq hcolors
  obtain rfl : base = colorAt c.colors 0 := Except.ok.inj (hbase.symm.trans hfirst)
  have htime : weight = patternTime counts := by
    rw [hweight, Timeline.sumOf_rat, (patternFrom_share hbeats).2]
  have hpos := patternTime_pos (Group.counts_ne_nil hcounts) (Group.counts_pos hcounts)
  have hperiod : (Setup.of compiler c).period = c.timing := rfl
  rw [htime, timeScale_eq_commonScale hpos, hperiod] at hscaleEq
  have hnonempty : flashColors c counts ≠ [] := hgroupColors ▸ groupColors_ne_nil hcolors counts
  rw [hgroupColors] at hbeats
  rw [flashing_eq_shown, hps]
  refine congrArg Except.ok ?_
  rw [shown_append, map_patternFrom hnonempty hbeats, shown_restPieces, hscaleEq, htime, hperiod,
    shown_eq_self fun p hp => shortest_lt_of_mem_groups hscale hp]
  rfl

/-- A group of a pattern has a flash, and no darkness in it lasts as long as a gap. -/
lemma flashGroups_apart {scale : Rat} {base : String} {colors : List String} (hscale : 0 < scale)
    (hpos : ∀ n ∈ counts, 0 < n) {group : Timeline Rat}
    (h : group ∈ flashGroups scale base colors counts) :
    (∀ p ∈ group, p.lit = true ∨ p.duration ≠ 2 * scale) ∧ 0 < group.countP (·.lit) := by
  obtain ⟨color, count, hcount, rfl⟩ := mem_flashGroups h
  refine ⟨fun p hp => ?_, by rw [countP_flashGroup]; exact hpos count hcount⟩
  rcases mem_flashGroup hp with rfl | rfl
  · exact Or.inl rfl
  · right
    show 7 / 10 * scale ≠ 2 * scale
    linarith

/-- A cycle has as many flashes as its groups count. -/
lemma countP_flashCycle (c : Characteristic Rat) (counts : List Nat) :
    (flashCycle c counts).countP (·.lit) = counts.sum := by
  rw [flashCycle, List.countP_append, countP_intercalate, map_countP_flashGroups]
  rcases flashRest_eq c.timing (patternTime counts * commonScale c.timing (patternTime counts))
      (colorAt c.colors 0) with h | ⟨left, h⟩ <;> rw [h] <;> rfl

/-- No flash of a cycle is longer than one that is not shortened. -/
lemma flash_le_of_mem_flashCycle {p : Segment Rat} (hp : p ∈ flashCycle c counts)
    (hlit : p.lit = true) : p.duration ≤ 3 / 10 := by
  have hdark {left : Rat} {base : String} (h : p = unlit left base) : False := by
    rw [h] at hlit
    cases hlit
  rw [flashCycle] at hp
  rcases List.mem_append.mp hp with hp | hp
  · rcases List.mem_intercalate hp with hp | ⟨group, hgroup, hp⟩
    · exact (hdark (List.mem_singleton.mp hp)).elim
    · obtain ⟨color, count, -, rfl⟩ := mem_flashGroups hgroup
      rcases mem_flashGroup hp with rfl | rfl
      · show 3 / 10 * commonScale c.timing (patternTime counts) ≤ 3 / 10
        linarith [commonScale_le_one c.timing (patternTime counts)]
      · exact (hdark rfl).elim
  · rcases flashRest_eq c.timing (patternTime counts * commonScale c.timing (patternTime counts))
        (colorAt c.colors 0) with h | ⟨left, h⟩ <;> rw [h] at hp
    · simp at hp
    · exact (hdark (List.mem_singleton.mp hp)).elim

/-- The counts of a light can be read off its cycle. -/
lemma flashCounts_flashCycle (hscale : 0 < commonScale c.timing (patternTime counts))
    (hne : counts ≠ []) (hpos : ∀ n ∈ counts, 0 < n) :
    flashCounts (2 * commonScale c.timing (patternTime counts)) (flashCycle c counts) = counts := by
  have hgroups : flashGroups (commonScale c.timing (patternTime counts)) (colorAt c.colors 0)
      (flashColors c counts) counts ≠ [] := by
    simpa [flashGroups] using hne
  rw [flashCycle, flashCounts_intercalate hgroups (fun _ h => flashGroups_apart hscale hpos h)
    (flashRest_eq _ _ _), map_countP_flashGroups]

/-- **The groups of a flashing light.**  If a shortened flash is long enough to be shown, the light
shows its groups of flashes one after the other, each in its colour, with darkness of set lengths
between two flashes and between two groups, all shortened by the one factor that makes them fit the
period, and then the rest of the period.  So no flash is longer than three tenths of a second, there
are as many as the counts add up to, and the counts come back when the cycle is cut at the gaps
between the groups. -/
theorem compile_groups (shared : Table String) (hrule : c.type ∉ compiler.withoutRule)
    (htype : c.type = .flashing ∨ c.type = .groupFlashing)
    (hcounts : Group.counts c.group = .ok counts) (hcolors : c.colors ≠ [])
    (hscale : shortest < 3 / 10 * commonScale c.timing (patternTime counts)) :
    compiler.compile shared (some c) = .ok (flashCycle c counts) ∧
      (∀ p ∈ flashCycle c counts, p.lit = true → p.duration ≤ 3 / 10) ∧
      (flashCycle c counts).countP (·.lit) = counts.sum ∧
      flashCounts (2 * commonScale c.timing (patternTime counts)) (flashCycle c counts) =
        counts := by
  have hpositive : (0 : Rat) < shortest := shortest_pos
  refine ⟨?_, fun p hp => flash_le_of_mem_flashCycle hp, countP_flashCycle c counts,
    flashCounts_flashCycle (by linarith) (Group.counts_ne_nil hcounts) (Group.counts_pos hcounts)⟩
  have happly : applyRule compiler (compiler.tableWith shared) (Setup.of compiler c) =
      flashing (Setup.of compiler c) := by
    have hsubject : (Setup.of compiler c).subject = c := rfl
    rcases htype with htype | htype <;> simp only [applyRule, hsubject, htype]
  simp only [compile, hrule, if_false, happly]
  exact flashing_eq_flashCycle hcounts hcolors hscale

/-- Two groups that take more than their three seconds: all is shortened by a sixth. -/
theorem hurried_groups :
    Group.counts (some "2+1") = .ok [2, 1] ∧
      shortest < 3 / 10 * commonScale (some 3) (patternTime [2, 1]) ∧
      Compiler.standard.compile Morse.builtin
          (some ⟨.groupFlashing, some "2+1", ["W", "G"], some (3 : Rat)⟩) =
        .ok [lit (1 / 4) "W", unlit (7 / 12) "W", lit (1 / 4) "W", unlit (5 / 3) "W",
          lit (1 / 4) "G"] ∧
      flashCounts (5 / 3) [lit (1 / 4) "W", unlit (7 / 12) "W", lit (1 / 4) "W",
        unlit (5 / 3) "W", lit (1 / 4) "G"] = [2, 1] := by
  have hcounts : Group.counts (some "2+1") = .ok [2, 1] := by decide +kernel
  have htiming : (⟨.groupFlashing, some "2+1", ["W", "G"], some 3⟩ : Characteristic Rat).timing =
      some 3 := timing_eq_some_iff.mpr ⟨rfl, by norm_num⟩
  have hsixth : commonScale (some 3) (patternTime [2, 1]) = 5 / 6 := by decide +kernel
  have hscale : shortest < 3 / 10 * commonScale (some 3) (patternTime [2, 1]) := by
    rw [hsixth, shortest_rat]
    norm_num
  have hcycle : flashCycle ⟨.groupFlashing, some "2+1", ["W", "G"], some 3⟩ [2, 1] =
      [lit (1 / 4) "W", unlit (7 / 12) "W", lit (1 / 4) "W", unlit (5 / 3) "W",
        lit (1 / 4) "G"] := by decide +kernel
  have hrule : .groupFlashing ∉ (Compiler.standard : Compiler Rat).withoutRule := by
    simp [Compiler.standard]
  obtain ⟨hcompile, -, -, hread⟩ :=
    compile_groups (c := ⟨.groupFlashing, some "2+1", ["W", "G"], some 3⟩) Morse.builtin hrule
      (Or.inr rfl) hcounts (by simp) (by rw [htiming]; exact hscale)
  rw [hcycle] at hcompile hread
  rw [htiming, hsixth] at hread
  have hgap : (2 * (5 / 6) : Rat) = 5 / 3 := by norm_num
  rw [hgap] at hread
  exact ⟨hcounts, hscale, hcompile, hread⟩

end

end Compiler

end Seamark
