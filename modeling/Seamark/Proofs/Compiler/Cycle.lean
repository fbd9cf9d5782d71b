import Mathlib
import Seamark.Proofs.Compiler.Slots

/-!
# The length of a cycle

With exact times, a rule that shares a cycle out asks for pieces that make up the whole cycle.  What
is shown of them lasts as long, but for the pieces that are too short to be shown: at most the
shortest length for each piece.

The rules share by proportion, by repetition and by filling up.  The last is the one for occulting
lights, whose last piece takes what is left after the pieces *shown* before it, so that there only
the shown part has the right length.
-/

namespace Seamark

variable {ps : Timeline Rat} {a b : Rat}

namespace Compiler

open Timeline

variable {s : Setup Rat} {compiler : Compiler Rat}

/-! ### Fixed proportions -/

lemma steadyPieces_shares {duration : Rat} (hduration : 0 ≤ duration) (colors : List String) :
    Shares (colors.map (lit duration)) (colors.length * duration) := by
  induction colors with
  | nil => simpa using Shares.nil
  | cons color colors ih =>
    have hlength : ((color :: colors).length : Rat) * duration =
        duration + colors.length * duration := by
      rw [List.length_cons]
      push_cast
      ring
    rw [hlength]
    exact (Shares.single (p := lit duration color) hduration).append ih

lemma longFlashingPieces_shares (h : longFlashingPieces s = .ok ps) (hperiod : 0 ≤ s.safePeriod) :
    Shares ps s.safePeriod := by
  obtain ⟨color, on, -, hon, rfl⟩ := exists_of_longFlashingPieces h
  have hshare : (longFlashShare : Rat) = 4 / 5 := by norm_num [longFlashShare]
  rw [hshare] at hon
  exact Shares.lit_unlit (by linarith) (by linarith) color

lemma isophasePieces_shares (h : isophasePieces s = .ok ps) (hperiod : 0 ≤ s.safePeriod) :
    Shares ps s.safePeriod := by
  obtain ⟨color, half, -, hhalf, rfl⟩ := exists_of_isophasePieces h
  have htwo : (2.0 : Rat) = 2 := by norm_num
  rw [htwo] at hhalf
  exact Shares.lit_unlit (by linarith) (by linarith) color

lemma fixedFlashingPieces_shares (h : fixedFlashingPieces s = .ok ps)
    (hperiod : 0 ≤ s.safePeriod) : Shares ps s.safePeriod := by
  obtain ⟨color, flash, -, hflash, rfl⟩ := exists_of_fixedFlashingPieces h
  have hshare : (fixedFlashShare : Rat) = 1 / 10 := by norm_num [fixedFlashShare]
  rw [hshare] at hflash
  constructor
  · intro p hp
    simp only [List.mem_cons, List.not_mem_nil, or_false] at hp
    rcases hp with rfl | rfl <;> simp only [lit] <;> linarith
  · rw [total_cons, total_cons]
    simp [lit, total_rat]

/-! ### Flash patterns -/

/-- The time of the flashes of a group and the gaps between them. -/
def groupTime (count : Nat) : Rat := count * (3 / 10) + (count - 1 : Nat) * (7 / 10)

/-- The time of a pattern: the groups and two seconds between two of them. -/
def patternTime (counts : List Nat) : Rat :=
  (counts.map groupTime).sum + (counts.length - 1 : Nat) * 2

/-- Beats that are not negative and add up to a time. -/
def BeatsShare (beats : List (Beat Rat)) (time : Rat) : Prop :=
  (∀ b ∈ beats, 0 ≤ b.weight) ∧ (beats.map (·.weight)).sum = time

lemma BeatsShare.append {bs cs : List (Beat Rat)} (hb : BeatsShare bs a) (hc : BeatsShare cs b) :
    BeatsShare (bs ++ cs) (a + b) := by
  refine ⟨fun x hx => ?_, by rw [List.map_append, List.sum_append, hb.2, hc.2]⟩
  rcases List.mem_append.mp hx with hx | hx
  · exact hb.1 x hx
  · exact hc.1 x hx

lemma beatsShare_single {x : Beat Rat} (hx : 0 ≤ x.weight) : BeatsShare [x] x.weight :=
  ⟨by simpa using hx, by simp⟩

lemma groupBeats_share (base color : String) (count : Nat) :
    BeatsShare (groupBeats base color count) (groupTime count) := by
  have hone : BeatsShare [⟨true, flashWeight, color⟩] (3 / 10) := by
    rw [← flashWeight_rat]
    exact beatsShare_single (by norm_num [flashWeight_rat])
  induction count with
  | zero => exact ⟨by simp [groupBeats], by simp [groupBeats, groupTime]⟩
  | succ count ih =>
    cases count with
    | zero => simpa [groupTime, groupBeats] using hone
    | succ count =>
      -- a flash and a gap before the other flashes
      have hcons : (groupBeats base color (count + 2) : List (Beat Rat)) =
          ([⟨true, flashWeight, color⟩] ++ [⟨false, flashGapWeight, base⟩]) ++
            groupBeats base color (count + 1) := rfl
      have hbreak : BeatsShare [⟨false, flashGapWeight, base⟩] (7 / 10) := by
        rw [← flashGapWeight_rat]
        exact beatsShare_single (by norm_num [flashGapWeight_rat])
      have htime : groupTime (count + 2) = 3 / 10 + 7 / 10 + groupTime (count + 1) := by
        simp only [groupTime, Nat.add_sub_cancel, Nat.add_succ_sub_one]
        push_cast
        ring
      rw [hcons, htime]
      exact (hone.append hbreak).append ih

lemma patternFrom_share {base : String} {colors : List String} {place : Nat} {counts : List Nat}
    {beats : List (Beat Rat)} (h : patternFrom base colors place counts = .ok beats) :
    BeatsShare beats (patternTime counts) := by
  induction counts generalizing place beats with
  | nil =>
    obtain rfl := Except.ok.inj h
    exact ⟨by simp, by simp [patternTime]⟩
  | cons count counts ih =>
    cases counts with
    | nil =>
      simp only [patternFrom, bind_eq_ok_iff] at h
      obtain ⟨color, -, hbeats⟩ := h
      obtain rfl := Except.ok.inj hbeats
      simpa [patternTime] using groupBeats_share base color count
    | cons next counts =>
      rw [patternFrom] at h
      · simp only [bind_eq_ok_iff] at h
        obtain ⟨color, -, rest, hrest, hbeats⟩ := h
        obtain rfl := Except.ok.inj hbeats
        have hbreak : BeatsShare [⟨false, groupGapWeight, base⟩] (2 : Rat) := by
          rw [← groupGapWeight_rat]
          exact beatsShare_single (by norm_num [groupGapWeight_rat])
        have htime : patternTime (count :: next :: counts) =
            groupTime count + (2 + patternTime (next :: counts)) := by
          simp only [patternTime, List.map_cons, List.sum_cons, List.length_cons,
            Nat.add_succ_sub_one, Nat.add_zero]
          push_cast
          ring
        rw [htime]
        exact (groupBeats_share base color count).append (hbreak.append (ih hrest))
      · simp

/-- Beats keep their shares when they are scaled. -/
lemma BeatsShare.shares {beats : List (Beat Rat)} (h : BeatsShare beats a) {scale : Rat}
    (hscale : 0 ≤ scale) : Shares (beats.map (Beat.piece scale)) (a * scale) := by
  induction beats generalizing a with
  | nil =>
    obtain rfl := h.2
    simpa using Shares.nil
  | cons x beats ih =>
    have hx : 0 ≤ x.weight := h.1 x List.mem_cons_self
    have hrest : BeatsShare beats (beats.map (·.weight)).sum :=
      ⟨fun y hy => h.1 y (List.mem_cons_of_mem x hy), rfl⟩
    have htime : a * scale = x.weight * scale + (beats.map (·.weight)).sum * scale := by
      rw [← h.2, List.map_cons, List.sum_cons]
      ring
    rw [htime, List.map_cons]
    exact (Shares.single (p := Beat.piece scale x) (mul_nonneg hx hscale)).append (ih hrest)

/-- A pattern without a period takes its own time, and with one it is made to fit. -/
lemma flashingPieces_shares {counts : List Nat} (h : flashingPieces s = .ok ps)
    (hcounts : s.counts = .ok counts) (hperiod : ∀ p, s.period = some p → 0 < p) :
    Shares ps (s.period.getD (patternTime counts)) := by
  obtain ⟨counts', base, beats, weight, scale, hcounts', -, hbeats, hsum, rfl, rfl⟩ :=
    exists_of_flashingPieces h
  obtain rfl : counts' = counts := Except.ok.inj (hcounts'.symm.trans hcounts)
  have hshare := patternFrom_share hbeats
  have hweight : weight = patternTime counts' := by
    rw [hsum, sumOf_rat, hshare.2]
  have hnonneg : 0 ≤ patternTime counts' := by
    rw [← hshare.2]
    exact List.sum_nonneg fun x hx => by
      obtain ⟨b, hb, rfl⟩ := List.mem_map.mp hx
      exact hshare.1 b hb
  have hone : (1.0 : Rat) = 1 := by norm_num
  rw [hweight]
  cases hp : s.period with
  | none =>
    have hscale : timeScale (none : Option Rat) (patternTime counts') = 1 := hone
    rw [hscale, restPieces, List.append_nil, Option.getD_none]
    simpa using hshare.shares zero_le_one
  | some p =>
    have hpos : 0 < p := hperiod p hp
    by_cases hlong : p < patternTime counts'
    · -- the pattern is shortened
      have hscale : timeScale (some p) (patternTime counts') = p / patternTime counts' := by
        rw [timeScale, if_pos hlong]
      have hused : patternTime counts' * (p / patternTime counts') = p :=
        mul_div_cancel₀ p (by linarith)
      rw [hscale, hused, restPieces, if_neg (lt_irrefl p), List.append_nil, Option.getD_some]
      have hshares := hshare.shares (div_nonneg hpos.le hnonneg)
      rwa [hused] at hshares
    · -- the rest of the period is dark
      have hscale : timeScale (some p) (patternTime counts') = 1 := by
        rw [timeScale, if_neg hlong, hone]
      rw [hscale, mul_one, Option.getD_some]
      have hshares := hshare.shares zero_le_one
      rw [mul_one] at hshares
      rcases lt_or_eq_of_le (not_lt.mp hlong) with hless | heq
      · rw [restPieces, if_pos hless]
        have hrest : Shares [unlit (p - patternTime counts') base] (p - patternTime counts') :=
          Shares.single (p := unlit (p - patternTime counts') base) (sub_nonneg.mpr hless.le)
        have hall := hshares.append hrest
        rwa [add_sub_cancel] at hall
      · rw [restPieces, heq, if_neg (lt_irrefl p), List.append_nil]
        rwa [heq] at hshares

/-! ### Slots -/

lemma occultingGroupPieces_shares {slot on : Rat} (hon : 0 ≤ on) (hslot : on ≤ slot)
    (color : String) (closed : Bool) {counts : List Nat} (hne : counts ≠ []) :
    Shares (occultingGroupPieces slot on color closed counts)
      ((addedUp counts + (counts.length - 1) + closed.toNat : Nat) * slot) := by
  have hcounted (count : Nat) := (Shares.lit_unlit hon hslot color).repeated count
  have hdark : Shares [unlit slot color] slot :=
    Shares.single (p := unlit slot color) (hon.trans hslot)
  induction counts with
  | nil => exact absurd rfl hne
  | cons count counts ih =>
    cases counts with
    | nil =>
      rw [occultingGroupPieces]
      cases closed with
      | false => simpa [addedUp] using hcounted count
      | true =>
        have hlength : ((addedUp [count] + ([count].length - 1) + true.toNat : Nat) : Rat) * slot =
            count * slot + slot := by
          simp only [addedUp, List.length_singleton, Bool.toNat_true, Nat.sub_self, Nat.add_zero]
          push_cast
          ring
        rw [hlength]
        exact (hcounted count).append hdark
    | cons next counts =>
      have hlength : ((addedUp (count :: next :: counts) + ((count :: next :: counts).length - 1) +
          closed.toNat : Nat) : Rat) * slot = count * slot + slot +
            ((addedUp (next :: counts) + ((next :: counts).length - 1) + closed.toNat : Nat) : Rat)
              * slot := by
        simp only [addedUp, List.length_cons, Nat.add_succ_sub_one, Nat.add_zero]
        push_cast
        ring
      rw [occultingGroupPieces, hlength]
      · exact ((hcounted count).append hdark).append (ih (by simp))
      · simp

lemma occultingPieces_fill (h : occultingPieces s = .ok ps) (hperiod : 0 < s.safePeriod)
    (hcounts : ∀ counts, s.counts = .ok counts → counts ≠ []) : Fills ps s.safePeriod := by
  obtain ⟨color, counts, n, slot, groups, -, hread, hn, hslot, rfl, rfl⟩ :=
    exists_of_occultingPieces h
  rw [countNumber_rat hn] at hslot
  have hne := hcounts counts hread
  have hlength : 0 < counts.length := List.length_pos_of_ne_nil hne
  have hslots : (0 : Rat) < (addedUp counts + counts.length : Nat) := by
    exact_mod_cast Nat.add_pos_right _ hlength
  have hpos : 0 < slot := by
    rw [hslot]
    positivity
  have hlit : 0 ≤ slot * occultingShare := by
    rw [occultingShare_rat]
    positivity
  have hdark : slot * occultingShare ≤ slot := by
    rw [occultingShare_rat]
    linarith
  refine (occultingGroupPieces_shares hlit hdark color _ hne).filled_up ?_ color
  -- the last group has its dark slot only if it is closed
  have hclosed : (counts.length == 1 && s.isGrouped).toNat ≤ 1 := Bool.toNat_le _
  have hcount : ((addedUp counts + (counts.length - 1) +
      (counts.length == 1 && s.isGrouped).toNat : Nat) : Rat) ≤
        (addedUp counts + counts.length : Nat) := by
    exact_mod_cast (by omega)
  calc _ ≤ ((addedUp counts + counts.length : Nat) : Rat) * slot :=
        mul_le_mul_of_nonneg_right hcount hpos.le
    _ = s.safePeriod := by rw [hslot, mul_div_cancel₀ _ hslots.ne']

lemma alternatingPieces_shares (h : alternatingPieces s = .ok ps) (hperiod : 0 ≤ s.safePeriod)
    (hstyle : slotStyle s.subject.type ≠ .flashes)
    (hcounts : ∀ counts, s.counts = .ok counts → ∀ n ∈ counts, 0 < n) :
    Shares ps s.safePeriod := by
  obtain ⟨counts, slots, n, hread, rfl, hne, -, hps⟩ := exists_of_alternatingPieces h
  have hcolors : s.subject.colors ≠ [] := by
    intro hnil
    obtain ⟨count, slots, hslots⟩ := List.exists_cons_of_ne_nil hne
    rw [hslots, hnil] at hps
    obtain ⟨color, -, -, hcolor, -⟩ := exists_of_slotPiecesFrom_cons hps
    cases hcolor
  have hlength : (0 : Rat) < (slotCounts counts s.subject.colors).length := by
    exact_mod_cast List.length_pos_of_ne_nil hne
  have hslot : 0 ≤ s.safePeriod / (slotCounts counts s.subject.colors).length := by positivity
  have hshares := slotRuns_shares hstyle hslot s.subject.colors
    (slotCounts_pos (hcounts counts hread) s.subject.colors)
  obtain rfl := Except.ok.inj (h.symm.trans (alternatingPieces_eq hread hcolors))
  rwa [mul_div_cancel₀ _ hlength.ne'] at hshares

end Compiler

/-! ### The whole cycle -/

/-- The types whose rule shares a given cycle out. -/
def LightType.isProportional : LightType → Bool
  | quick | veryQuick | ultraQuick | interruptedQuick | alternatingFlashing | morse => false
  | _ => true

namespace Compiler

variable {c : Characteristic Rat}

/-- How long a cycle lasts when the characteristic has no period. -/
def naturalLength (compiler : Compiler Rat) (c : Characteristic Rat) : Except TooManyDigits Rat :=
  match c.type with
  | .fixed | .directional | .directionalFixed => .ok (c.colors.length * compiler.dwell)
  | .flashing | .groupFlashing => patternTime <$> Group.counts c.group
  | _ => .ok compiler.fallbackPeriod

/-- How long a cycle should last. -/
def cycleLength (compiler : Compiler Rat) (c : Characteristic Rat) : Except TooManyDigits Rat :=
  match c.timing with
  | some p => .ok p
  | none => naturalLength compiler c

lemma timing_eq_some_iff {p : Rat} : c.timing = some p ↔ c.period = some p ∧ p ≠ 0 := by
  have hzero : isZero p = decide (p = 0.0) := rfl
  rw [Characteristic.timing, Option.filter_eq_some_iff, hzero]
  norm_num

lemma timing_pos (hperiod : ∀ p, c.period = some p → 0 ≤ p) {p : Rat} (h : c.timing = some p) :
    0 < p := by
  obtain ⟨hp, hne⟩ := timing_eq_some_iff.mp h
  exact lt_of_le_of_ne (hperiod p hp) hne.symm

lemma safePeriod_pos (hfallback : 0 < compiler.fallbackPeriod)
    (hperiod : ∀ p, c.period = some p → 0 ≤ p) : 0 < (Setup.of compiler c).safePeriod := by
  rw [Setup.of]
  cases htiming : c.timing with
  | none => exact hfallback
  | some p => exact timing_pos hperiod htiming

/-- Without a rule of its own for lights without a period, a type takes the fallback. -/
lemma cycleLength_eq_safePeriod
    (h : naturalLength compiler c = .ok compiler.fallbackPeriod) :
    cycleLength compiler c = .ok (Setup.of compiler c).safePeriod := by
  rw [cycleLength, Setup.of]
  cases htiming : c.timing with
  | none => exact h
  | some p => rfl

lemma steadyPieces_fill (htype : c.type.isContinuous = true)
    (hnatural : naturalLength compiler c = .ok (c.colors.length * compiler.dwell))
    (hdwell : 0 < compiler.dwell) (hperiod : ∀ p, c.period = some p → 0 ≤ p)
    (h : steadyPieces compiler (Setup.of compiler c) = .ok ps) :
    ∃ time, cycleLength compiler c = .ok time ∧ Fills ps time := by
  obtain ⟨duration, hduration, rfl⟩ := exists_of_steadyPieces h
  rw [cycleLength]
  cases htiming : c.timing with
  | none =>
    have hdwelling : colorTime compiler (Setup.of compiler c) = .ok compiler.dwell := by
      rw [colorTime, if_pos (by rw [Setup.of, htype, htiming]; rfl)]
    obtain rfl : compiler.dwell = duration := Except.ok.inj (hdwelling.symm.trans hduration)
    exact ⟨_, hnatural, (steadyPieces_shares hdwell.le c.colors).fills⟩
  | some p =>
    have hpos : 0 < p := timing_pos hperiod htiming
    have hnot : (Setup.of compiler c).isContinuous ≠ true := by
      rw [Setup.of, htiming]
      simp
    rw [colorTime, if_neg hnot] at hduration
    split at hduration
    · cases hduration
    rename_i hcolors
    obtain ⟨n, hn, hshare⟩ := bind_eq_ok_iff.mp hduration
    obtain rfl := countNumber_rat hn
    obtain rfl := Except.ok.inj hshare
    have hsafe : (Setup.of compiler c).safePeriod = p := by rw [Setup.of, htiming]; rfl
    have hlength : (0 : Rat) < (Setup.of compiler c).subject.colors.length := by
      have hne : (Setup.of compiler c).subject.colors ≠ [] := by simpa using hcolors
      exact_mod_cast List.length_pos_of_ne_nil hne
    have hturn : 0 ≤ p / (Setup.of compiler c).subject.colors.length := by positivity
    have hshares := steadyPieces_shares hturn (Setup.of compiler c).subject.colors
    rw [mul_div_cancel₀ _ hlength.ne'] at hshares
    rw [hsafe]
    exact ⟨p, rfl, hshares.fills⟩

/-- What is shown of the pieces of a proportional type fills its cycle. -/
lemma pieces_fill {table : Table String} (hfallback : 0 < compiler.fallbackPeriod)
    (hdwell : 0 < compiler.dwell) (hperiod : ∀ p, c.period = some p → 0 ≤ p)
    (htype : c.type.isProportional = true)
    (h : pieces compiler table (Setup.of compiler c) = .ok ps) :
    ∃ time, cycleLength compiler c = .ok time ∧ Fills ps time := by
  have hsafe := safePeriod_pos hfallback hperiod
  have hread {counts : List Nat} (hcounts : (Setup.of compiler c).counts = .ok counts) :
      counts ≠ [] ∧ ∀ n ∈ counts, 0 < n := by
    have hgroup : Group.counts c.group = .ok counts := counts_eq_ok_iff.mp hcounts
    exact ⟨Group.counts_ne_nil hgroup, Group.counts_pos hgroup⟩
  have hsubject : (Setup.of compiler c).subject = c := rfl
  cases ht : c.type <;> rw [ht] at htype <;> simp only [pieces, hsubject, ht] at h
  case quick | veryQuick | ultraQuick | interruptedQuick | alternatingFlashing | morse =>
    cases htype
  case fixed | directional | directionalFixed =>
    exact steadyPieces_fill (by rw [ht]; rfl) (by rw [naturalLength, ht]) hdwell hperiod h
  case flashing | groupFlashing =>
    obtain ⟨counts, -, -, -, -, hcounts, -⟩ := exists_of_flashingPieces h
    have hgroup : Group.counts c.group = .ok counts := counts_eq_ok_iff.mp hcounts
    have hshares := flashingPieces_shares h hcounts fun p hp => timing_pos hperiod hp
    refine ⟨_, ?_, hshares.fills⟩
    have htiming : (Setup.of compiler c).period = c.timing := rfl
    rw [cycleLength, htiming]
    cases c.timing with
    | none => simp only [naturalLength, ht, hgroup, Option.getD_none]; rfl
    | some p => rfl
  -- the other types take the period or the fallback
  all_goals
    refine ⟨_, cycleLength_eq_safePeriod (by rw [naturalLength, ht]), ?_⟩
  case longFlashing => exact (longFlashingPieces_shares h hsafe.le).fills
  case isophase => exact (isophasePieces_shares h hsafe.le).fills
  case fixedAndFlashing | flashingFixed => exact (fixedFlashingPieces_shares h hsafe.le).fills
  case occulting | groupOcculting =>
    exact occultingPieces_fill h hsafe fun counts hcounts => (hread hcounts).1
  case alternating | alternatingOcculting | alternatingIsophase =>
    refine (alternatingPieces_shares h hsafe.le ?_ fun counts hcounts => (hread hcounts).2).fills
    rw [hsubject, ht]
    simp [slotStyle]

/-- **The length of a cycle.**  A proportional light has a timeline that fills its cycle, but for
the pieces too short to be shown, unless its rule reads a group that cannot be read. -/
theorem compile_fills_cycle (shared : Table String) (hrules : compiler.withoutRule = [])
    (hfallback : 0 < compiler.fallbackPeriod) (hdwell : 0 < compiler.dwell)
    (hcolors : c.colors ≠ []) (hperiod : ∀ p, c.period = some p → 0 ≤ p)
    (htype : c.type.isProportional = true) :
    (∃ e, c.type.readsCounts = true ∧ Group.counts c.group = .error e ∧
        compiler.compile shared (some c) = .error (.tooManyDigits e)) ∨
      ∃ time ps, cycleLength compiler c = .ok time ∧
        pieces compiler (compiler.tableWith shared) (Setup.of compiler c) = .ok ps ∧
        compiler.compile shared (some c) = .ok (shown ps) ∧ Fills ps time := by
  by_cases hfails : ∃ e, c.type.readsCounts = true ∧ Group.counts c.group = .error e
  · obtain ⟨e, hreads, hgroup⟩ := hfails
    exact Or.inl ⟨e, hreads, hgroup, compile_of_counts_eq_error hrules hcolors hreads hgroup⟩
  right
  have hcounts (hreads : (Setup.of compiler c).subject.type.readsCounts = true) :
      ∃ counts, (Setup.of compiler c).counts = .ok counts := by
    cases hgroup : Group.counts c.group with
    | ok counts => exact ⟨counts, counts_eq_ok_iff.mpr hgroup⟩
    | error e => exact absurd ⟨e, hreads, hgroup⟩ hfails
  obtain ⟨ns, hns⟩ : ∃ ns, conversions compiler (compiler.tableWith shared)
      (Setup.of compiler c) = .ok ns := exists_conversions hcounts
  obtain ⟨ps, hps⟩ := (exists_pieces_iff hcolors).mpr ⟨ns, hns, fun n _ => ⟨(n : Rat), rfl⟩⟩
  obtain ⟨time, htime, hfills⟩ := pieces_fill hfallback hdwell hperiod htype hps
  have hmorse : (Setup.of compiler c).subject.type ≠ .morse := by
    intro hmorse
    have ht : c.type = .morse := hmorse
    rw [ht] at htype
    cases htype
  refine ⟨time, ps, htime, hps, ?_, hfills⟩
  simp only [compile, hrules, List.not_mem_nil, if_false]
  rw [applyRule_eq_shown hmorse, hps]
  rfl

/-- Two groups of flashes fill their ten seconds. -/
theorem grouped_flashes_fill_cycle :
    ∃ ps, pieces Compiler.standard Morse.builtin (Setup.of Compiler.standard
        ⟨.groupFlashing, some "2+1", ["W", "G"], some (10 : Rat)⟩) = .ok ps ∧
      Compiler.standard.compile Morse.builtin
        (some ⟨.groupFlashing, some "2+1", ["W", "G"], some (10 : Rat)⟩) = .ok (shown ps) ∧
      Fills ps 10 := by
  have hperiod : ∀ p, some (10 : Rat) = some p → 0 ≤ p := by
    intro p hp
    obtain rfl := Option.some.inj hp
    norm_num
  have hgroup : Group.counts (some "2+1") = .ok [2, 1] := by decide +kernel
  have hfallback : (0 : Rat) < Compiler.standard.fallbackPeriod := by norm_num [Compiler.standard]
  have hdwell : (0 : Rat) < Compiler.standard.dwell := by norm_num [Compiler.standard]
  rcases compile_fills_cycle (c := ⟨.groupFlashing, some "2+1", ["W", "G"], some 10⟩)
      Morse.builtin rfl hfallback hdwell (by decide) hperiod rfl with
    ⟨e, -, herror, -⟩ | ⟨time, ps, htime, hps, hts, hfills⟩
  · rw [hgroup] at herror
    cases herror
  · have hten : cycleLength Compiler.standard
        ⟨.groupFlashing, some "2+1", ["W", "G"], some (10 : Rat)⟩ = .ok 10 := by
      rw [cycleLength, timing_eq_some_iff.mpr ⟨rfl, by norm_num⟩]
    obtain rfl : (10 : Rat) = time := Except.ok.inj (hten.symm.trans htime)
    exact ⟨ps, hps, hts, hfills⟩

/-- A proportional light has no cycle if its group has a number of too many digits. -/
theorem overlong_group_has_no_cycle :
    LightType.isProportional .alternating = true ∧
      ∀ ts : Timeline Rat, Compiler.standard.compile Morse.builtin
        (some ⟨.alternating, some (String.ofList (List.replicate 4301 '1')), ["W"], some 8⟩) ≠
          .ok ts := by
  have hcompile : (Compiler.standard : Compiler Rat).compile Morse.builtin
      (some ⟨.alternating, some (String.ofList (List.replicate 4301 '1')), ["W"], some 8⟩) =
        .error (.tooManyDigits ⟨4301⟩) :=
    compile_of_counts_eq_error rfl (by decide) rfl (Group.counts_ones (by decide))
  refine ⟨rfl, fun ts hts => ?_⟩
  rw [hcompile] at hts
  cases hts

end Compiler

end Seamark
