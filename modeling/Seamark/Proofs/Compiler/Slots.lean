import Mathlib
import Seamark.Proofs.Compiler.Shares

/-!
# The slots of an alternating light

With exact times, an alternating light shows one run of flashes for each slot, in the colour whose
turn it is, and a run is told by four numbers: how many flashes, how long they are, how long the
gaps between them, and how long the darkness at the end (`flashRun`).  The three styles of slots
only differ in these lengths.  What is shown of a run starts with a flash, has all its flashes, and
has darkness between any two of them unless the gap is too short (`flashRun_isSlot`).

Slots with eclipses or short gaps share out the cycle (`slotRuns_shares`), so that each of them lasts
as long as it should, but for the gaps that are left out.
-/

namespace Seamark

variable {ps : Timeline Rat} {p : Segment Rat}

/-! ### Runs of flashes -/

/-- A number of flashes with gaps between them and darkness at the end. -/
def flashRun (count : Nat) (on gap last : Rat) (color : String) : Timeline Rat :=
  repeated (count - 1) [lit on color, unlit gap color] ++ [lit on color, unlit last color]

/-- A run in which the darkness at the end is like the gaps. -/
lemma flashRun_of_even {count : Nat} (hcount : 0 < count) (on gap : Rat) (color : String) :
    flashRun count on gap gap color = repeated count [lit on color, unlit gap color] := by
  obtain ⟨n, rfl⟩ : ∃ n, count = n + 1 := ⟨count - 1, by omega⟩
  rw [flashRun, Nat.add_sub_cancel, repeated, repeated, List.replicate_succ', List.flatten_append,
    List.flatten_singleton]

/-- What is shown of a slot of so many flashes of one length, in one colour, with gaps of one length
between them. -/
structure IsSlot (color : String) (count : Nat) (on gap : Rat) (run : Timeline Rat) : Prop where
  /-- All of it is in the colour of the slot. -/
  own_color : ∀ p ∈ shown run, p.color = color
  /-- It starts with a flash. -/
  lit_first : ∃ p rest, shown run = p :: rest ∧ p.lit = true
  /-- It has all the flashes. -/
  flashes : (shown run).countP (·.lit) = count
  /-- Every flash has the same length. -/
  alike : ∀ p ∈ shown run, p.lit = true → p.duration = on
  /-- Two flashes only meet if the gap between them is too short. -/
  apart : shortest < gap → (shown run).IsChain fun p q => ¬ (p.lit = true ∧ q.lit = true)
  /-- What is left out are gaps. -/
  only_gaps : ∀ p ∈ leftOut run, p.lit = false

section

variable {count : Nat} {on gap last : Rat} {color : String}

/-- A piece of a run is a flash, a gap, or the darkness at the end. -/
lemma mem_flashRun (hp : p ∈ flashRun count on gap last color) :
    p = lit on color ∨ 1 < count ∧ p = unlit gap color ∨ p = unlit last color := by
  rcases List.mem_append.mp hp with hp | hp
  · obtain ⟨hseveral, hp⟩ := mem_repeated_iff.mp hp
    simp only [List.mem_cons, List.not_mem_nil, or_false] at hp
    exact hp.imp_right fun hgap => Or.inl ⟨by omega, hgap⟩
  · simp only [List.mem_cons, List.not_mem_nil, or_false] at hp
    exact hp.imp_right Or.inr

lemma shown_flashRun (hon : shortest < on) :
    shown (flashRun count on gap last color) =
      repeated (count - 1) (lit on color :: shown [unlit gap color])
        ++ lit on color :: shown [unlit last color] := by
  have hlit (ps : Timeline Rat) : shown (lit on color :: ps) = lit on color :: shown ps := by
    rw [shown_cons, if_pos]
    exact hon
  rw [flashRun, shown_append, shown_repeated, hlit, hlit]

lemma countP_shown_unlit (left : Rat) (color : String) :
    (shown [unlit left color]).countP (·.lit) = 0 := by
  refine List.countP_eq_zero.mpr fun p hp => ?_
  rw [List.mem_singleton.mp (mem_shown.mp hp).1]
  simp [unlit]

/-- Flashes with gaps that are shown do not meet, whatever is shown after the last one. -/
lemma isChain_repeated (hgap : shortest < gap) (n : Nat) :
    (repeated n (lit on color :: shown [unlit gap color])
      ++ lit on color :: shown [unlit last color]).IsChain
        fun p q => ¬ (p.lit = true ∧ q.lit = true) := by
  induction n with
  | zero =>
    rw [repeated, List.replicate_zero, List.flatten_nil, List.nil_append]
    by_cases hlast : shortest < last
    · rw [shown_unlit_of_lt hlast]
      exact List.isChain_pair.mpr fun h => by simp [unlit] at h
    · rw [shown_unlit_of_not_lt hlast]
      exact List.isChain_singleton _
  | succ n ih =>
    rw [shown_unlit_of_lt hgap] at ih ⊢
    rw [repeated_succ, List.append_assoc, List.cons_append, List.singleton_append]
    refine List.isChain_cons_cons.mpr ⟨fun h => by simp [unlit] at h, ?_⟩
    exact List.isChain_cons.mpr ⟨fun q _ h => by simp [unlit] at h, ih⟩

/-- What is shown of a run is a slot if its flashes are long enough. -/
lemma flashRun_isSlot (hcount : 0 < count) (hon : shortest < on) :
    IsSlot color count on gap (flashRun count on gap last color) where
  own_color := by
    intro p hp
    rcases mem_flashRun (mem_shown.mp hp).1 with rfl | ⟨-, rfl⟩ | rfl <;> rfl
  lit_first := by
    rw [shown_flashRun hon]
    cases count - 1 with
    | zero => exact ⟨_, _, rfl, rfl⟩
    | succ n =>
      rw [repeated_succ, List.append_assoc, List.cons_append]
      exact ⟨_, _, rfl, rfl⟩
  flashes := by
    have hlit : (lit on color).lit = true := rfl
    rw [shown_flashRun hon, List.countP_append, countP_repeated, List.countP_cons_of_pos hlit,
      List.countP_cons_of_pos hlit, countP_shown_unlit, countP_shown_unlit]
    omega
  alike := by
    intro p hp hlit
    rcases mem_flashRun (mem_shown.mp hp).1 with rfl | ⟨-, rfl⟩ | rfl
    · rfl
    · cases hlit
    · cases hlit
  apart := by
    intro hgap
    rw [shown_flashRun hon]
    exact isChain_repeated hgap _
  only_gaps := by
    intro p hp
    obtain ⟨hmem, -, hshort⟩ := mem_leftOut.mp hp
    rcases mem_flashRun hmem with rfl | ⟨-, rfl⟩ | rfl
    · exact absurd hon (not_lt.mpr hshort)
    · rfl
    · rfl

lemma askedTime_flashRun (hcount : 0 < count) :
    askedTime (flashRun count on gap last color) =
      count * max 0 on + (count - 1 : Nat) * max 0 gap + max 0 last := by
  have hpair (left : Rat) :
      askedTime [lit on color, unlit left color] = max 0 on + max 0 left := by
    simp [askedTime, lit, unlit]
  have hcast : ((count - 1 : Nat) : Rat) = count - 1 := Nat.cast_pred hcount
  rw [flashRun, askedTime_append, askedTime_repeated, hpair, hpair, hcast]
  ring

/-- The flashes alone are no longer than what is shown. -/
lemma flashes_le_total (hcount : 0 < count) (hon : shortest < on) :
    count * on ≤ (shown (flashRun count on gap last color)).total := by
  have hcast : ((count - 1 : Nat) : Rat) = count - 1 := Nat.cast_pred hcount
  have hlit : (lit on color).duration = on := rfl
  have hgaps : 0 ≤ ((count - 1 : Nat) : Rat) * (shown [unlit gap color]).total :=
    mul_nonneg (Nat.cast_nonneg _) (total_shown_nonneg _)
  have hlast := total_shown_nonneg [unlit last color]
  rw [shown_flashRun hon, Timeline.total_append, total_repeated, Timeline.total_cons,
    Timeline.total_cons, hlit, mul_add]
  rw [hcast] at hgaps ⊢
  linarith

end

/-! ### The lengths of a slot -/

namespace Compiler

variable {slot : Rat} {count : Nat} {color : String} {colors : List String}

/-- How long each flash of a slot is.  Flashes are a share of their beat within set bounds, eclipses
leave a quarter of it, and gaps take a share of it that is bounded. -/
def slotLight : SlotStyle → Rat → Nat → Rat
  | .flashes, slot, count => min (3 / 10) (max (1 / 20) (3 / 5 * (slot / count)))
  | .eclipses, slot, count => 1 / 4 * (slot / count)
  | .gaps, slot, count => slot / count - min (1 / 10 * (slot / count)) (1 / 5)

/-- The time that the flashes of a slot take with set gaps between them. -/
def wideTime (slot : Rat) (count : Nat) : Rat :=
  (count - 1 : Nat) * (slotLight .flashes slot count + 7 / 10) + slotLight .flashes slot count

/-- How long the gap between two flashes of a slot is.  Flashes have a set gap if it leaves room for
all of them; otherwise the gaps share what the flashes leave of the slot. -/
def slotGap : SlotStyle → Rat → Nat → Rat
  | .flashes, slot, count =>
    if slot < wideTime slot count ∧ 1 < count then
      max 0 ((slot - count * slotLight .flashes slot count) / (count - 1 : Nat))
    else 7 / 10
  | .eclipses, slot, count => slot / count - slotLight .eclipses slot count
  | .gaps, slot, count => min (1 / 10 * (slot / count)) (1 / 5)

/-- The time that the flashes of a slot take with the gaps between them. -/
def usedTime (slot : Rat) (count : Nat) : Rat :=
  (count - 1 : Nat) * slotGap .flashes slot count + count * slotLight .flashes slot count

/-- How long it is dark after the last flash of a slot: the rest of the slot after flashes, and
otherwise one more gap. -/
def slotRest : SlotStyle → Rat → Nat → Rat
  | .flashes, slot, count => slot - usedTime slot count
  | style, slot, count => slotGap style slot count

/-- The pieces of a slot. -/
def slotRun (style : SlotStyle) (slot : Rat) (color : String) (count : Nat) : Timeline Rat :=
  flashRun count (slotLight style slot count) (slotGap style slot count) (slotRest style slot count)
    color

/-- The slots of a light, each in the colour whose turn it is. -/
def slotRuns (style : SlotStyle) (slot : Rat) (colors : List String) (slots : List Nat) :
    List (Timeline Rat) :=
  slots.mapIdx fun place count => slotRun style slot (colorAt colors place) count

/-- A slot that is not filled with flashes repeats one flash and one gap. -/
lemma slotRun_of_ne_flashes {style : SlotStyle} (hstyle : style ≠ .flashes) (hcount : 0 < count)
    (slot : Rat) (color : String) : slotRun style slot color count =
      repeated count [lit (slotLight style slot count) color,
        unlit (slotGap style slot count) color] := by
  have hrest : slotRest style slot count = slotGap style slot count := by
    cases style with
    | flashes => exact absurd rfl hstyle
    | eclipses | gaps => rfl
  rw [slotRun, hrest, flashRun_of_even hcount]

/-- The time of the flashes and the set gaps, added up one after the other. -/
lemma wideTime_eq (hcount : 0 < count) (slot : Rat) :
    wideTime slot count = (count - 1 : Nat) * (7 / 10) + count * slotLight .flashes slot count := by
  rw [wideTime, Nat.cast_pred hcount]
  ring

lemma flashSlotPieces_eq (hcount : 0 < count) (slot : Rat) (color : String) :
    flashSlotPieces slot color count = .ok (slotRun .flashes slot color count) := by
  have hmax : (maxFlash : Rat) = 3 / 10 := by norm_num [maxFlash]
  have hmin : (minFlash : Rat) = 1 / 20 := by norm_num [minFlash]
  have hshare : (quickShare : Rat) = 3 / 5 := by norm_num [quickShare]
  have hgap : (alternatingFlashGap : Rat) = 7 / 10 := by norm_num [alternatingFlashGap]
  have hzero : (0.0 : Rat) = 0 := by norm_num
  have hon : lesser maxFlash (greater minFlash (slot / count * quickShare)) =
      slotLight .flashes slot count := by
    rw [lesser_rat, greater_rat, hmax, hmin, hshare, mul_comm, slotLight]
  have hwide : (count - 1 : Nat) * (slotLight .flashes slot count + 7 / 10)
      + slotLight .flashes slot count = wideTime slot count := rfl
  simp only [flashSlotPieces, countNumber_eq, bind, Except.bind, hon, hgap, hzero, hwide]
  rw [slotRun, flashRun, slotRest, usedTime, slotGap]
  by_cases hcrowded : slot < wideTime slot count ∧ 1 < count
  · simp only [if_pos hcrowded, greater_rat]
    rfl
  · simp only [if_neg hcrowded]
    rw [wideTime_eq hcount]
    rfl

lemma eclipseSlotPieces_eq (hcount : 0 < count) (slot : Rat) (color : String) :
    eclipseSlotPieces slot color count = .ok (slotRun .eclipses slot color count) := by
  rw [slotRun_of_ne_flashes (by simp) hcount, eclipseSlotPieces, countNumber_eq]
  simp only [bind, Except.bind, occultingShare_rat, slotGap, slotLight, mul_comm (slot / count)]
  rfl

lemma gapSlotPieces_eq (hcount : 0 < count) (slot : Rat) (color : String) :
    gapSlotPieces slot color count = .ok (slotRun .gaps slot color count) := by
  rw [slotRun_of_ne_flashes (by simp) hcount, gapSlotPieces, countNumber_eq]
  simp only [bind, Except.bind, alternatingGapShare_rat, maxAlternatingGap_rat, lesser_rat, slotGap,
    slotLight, mul_comm (slot / count)]
  rfl

lemma styledSlotPieces_eq (style : SlotStyle) (hcount : 0 < count) (slot : Rat) (color : String) :
    styledSlotPieces style slot color count = .ok (slotRun style slot color count) := by
  cases style with
  | flashes => exact flashSlotPieces_eq hcount slot color
  | eclipses => exact eclipseSlotPieces_eq hcount slot color
  | gaps => exact gapSlotPieces_eq hcount slot color

/-- The slots from a place on are in the colours from that place on. -/
lemma slotPiecesFrom_eq (style : SlotStyle) (slot : Rat) (hcolors : colors ≠ []) (place : Nat)
    {slots : List Nat} (hslots : ∀ count ∈ slots, 0 < count) :
    slotPiecesFrom style slot colors place slots =
      .ok (slots.mapIdx fun i count =>
        slotRun style slot (colorAt colors (place + i)) count).flatten := by
  induction slots generalizing place with
  | nil => rfl
  | cons count slots ih =>
    have hplace (i : Nat) : place + 1 + i = place + (i + 1) := by omega
    rw [slotPiecesFrom, colorInTurn_eq hcolors place,
      ih (place + 1) fun n hn => hslots n (List.mem_cons_of_mem count hn)]
    simp only [bind, Except.bind, styledSlotPieces_eq style (hslots count List.mem_cons_self),
      List.mapIdx_cons, List.flatten_cons, hplace]
    rfl

lemma alternatingPieces_eq {s : Setup Rat} {counts : List Nat} (hcounts : s.counts = .ok counts)
    (hcolors : s.subject.colors ≠ []) :
    alternatingPieces s = .ok (slotRuns (slotStyle s.subject.type)
      (s.safePeriod / (slotCounts counts s.subject.colors).length) s.subject.colors
      (slotCounts counts s.subject.colors)).flatten := by
  have hslots : (slotCounts counts s.subject.colors).isEmpty = false :=
    List.isEmpty_eq_false_iff.mpr (slotCounts_ne_nil hcolors counts)
  have hpos := slotCounts_pos (Group.counts_pos (counts_eq_ok_iff.mp hcounts)) s.subject.colors
  simp only [alternatingPieces, hcounts, bind, Except.bind, hslots, countNumber_eq,
    Bool.false_eq_true, if_false]
  rw [slotPiecesFrom_eq _ _ hcolors 0 hpos, slotRuns]
  simp only [Nat.zero_add]

/-! ### Slots that are shared out -/

section

variable {style : SlotStyle} (hstyle : style ≠ .flashes)
include hstyle

/-- Flash and gap share the beat. -/
lemma slotLight_add_slotGap (slot : Rat) (count : Nat) :
    slotLight style slot count + slotGap style slot count = slot / count := by
  cases style with
  | flashes => exact absurd rfl hstyle
  | eclipses => exact add_sub_cancel _ _
  | gaps => exact sub_add_cancel _ _

lemma slotRun_shares (hcount : 0 < count) (hslot : 0 ≤ slot) (color : String) :
    Shares (slotRun style slot color count) slot := by
  have hpos : (0 : Rat) < count := by exact_mod_cast hcount
  have hbeat : 0 ≤ slot / count := by positivity
  have hgap : 0 ≤ slotGap style slot count ∧ slotGap style slot count ≤ slot / count := by
    cases style with
    | flashes => exact absurd rfl hstyle
    | eclipses =>
      rw [slotGap, slotLight]
      exact ⟨by linarith, by linarith⟩
    | gaps =>
      rw [slotGap]
      exact ⟨le_min (by linarith) (by norm_num), (min_le_left _ _).trans (by linarith)⟩
  have hsum := slotLight_add_slotGap hstyle slot count
  have hlight : 0 ≤ slotLight style slot count := by linarith
  have hpair : Shares [lit (slotLight style slot count) color,
      unlit (slotGap style slot count) color] (slot / count) := by
    have hrest : slotGap style slot count = slot / count - slotLight style slot count := by
      linarith
    rw [hrest]
    exact Shares.lit_unlit hlight (by linarith) color
  have hrun := hpair.repeated count
  rw [mul_div_cancel₀ _ hpos.ne'] at hrun
  rwa [slotRun_of_ne_flashes hstyle hcount]

/-- The slots of a light share its cycle. -/
lemma slotRuns_shares (hslot : 0 ≤ slot) (colors : List String) {slots : List Nat}
    (hslots : ∀ count ∈ slots, 0 < count) :
    Shares (slotRuns style slot colors slots).flatten (slots.length * slot) := by
  have hlength : (slotRuns style slot colors slots).length = slots.length := List.length_mapIdx
  rw [← hlength]
  refine Shares.flatten fun run hrun => ?_
  obtain ⟨place, hplace, rfl⟩ := List.mem_mapIdx.mp hrun
  exact slotRun_shares hstyle (hslots _ (List.getElem_mem hplace)) hslot _

/-- Only a slot that takes some time has a flash that does. -/
lemma slot_nonneg_of_slotLight_pos (hcount : 0 < count) (hon : 0 < slotLight style slot count) :
    0 ≤ slot := by
  have hpos : (0 : Rat) < count := by exact_mod_cast hcount
  by_contra hneg
  have hbeat : slot / count < 0 := div_neg_of_neg_of_pos (not_le.mp hneg) hpos
  cases style with
  | flashes => exact absurd rfl hstyle
  | eclipses =>
    rw [slotLight] at hon
    linarith
  | gaps =>
    have hgap : min (1 / 10 * (slot / count)) (1 / 5) = 1 / 10 * (slot / count) :=
      min_eq_left (by linarith)
    rw [slotLight, hgap] at hon
    linarith

end

/-! ### What a light shows -/

end Compiler

/-- The types whose lights show their colours in slots. -/
def LightType.isAlternating : LightType → Bool
  | alternating | alternatingFlashing | alternatingOcculting | alternatingIsophase => true
  | _ => false

namespace Compiler

variable {compiler : Compiler Rat} {shared : Table String} {c : Characteristic Rat}

/-- A light shows so many flashes in each of its slots, and the slots share the cycle. -/
structure ShowsSlots (compiler : Compiler Rat) (shared : Table String) (c : Characteristic Rat)
    (slots : List Nat) (slot : Rat) : Prop where
  /-- There is a slot for each group if there are several, and else one for each colour, with one
  flash. -/
  counted : ∃ counts, Group.counts c.group = .ok counts ∧
    slots = if 1 < counts.length then counts else List.replicate c.colors.length 1
  /-- Flashing lights flash in their slots, occulting lights are eclipsed, and all others only have
  short gaps. -/
  styled : slotStyle c.type = if c.type = .alternatingFlashing then .flashes
    else if c.type = .alternatingOcculting then .eclipses else .gaps
  /-- All slots have the same share of the cycle. -/
  share : slot = (Setup.of compiler c).safePeriod / slots.length
  /-- The rule asks for the slots in a row. -/
  asked : pieces compiler (compiler.tableWith shared) (Setup.of compiler c) =
    .ok (slotRuns (slotStyle c.type) slot c.colors slots).flatten
  /-- The light shows what is long enough of each slot. -/
  compiled : compiler.compile shared (some c) =
    .ok ((slotRuns (slotStyle c.type) slot c.colors slots).map shown).flatten

lemma slotCounts_eq (counts : List Nat) (colors : List String) :
    slotCounts counts colors =
      if 1 < counts.length then counts else List.replicate colors.length 1 := by
  rw [slotCounts, List.map_const']

lemma slotStyle_eq (type : LightType) :
    slotStyle type = if type = .alternatingFlashing then .flashes
      else if type = .alternatingOcculting then .eclipses else .gaps := by
  cases type <;> rfl

lemma ShowsSlots.pos {slots : List Nat} (h : ShowsSlots compiler shared c slots slot) :
    ∀ count ∈ slots, 0 < count := by
  obtain ⟨counts, hcounts, rfl⟩ := h.counted
  rw [← slotCounts_eq]
  exact slotCounts_pos (Group.counts_pos hcounts) c.colors

lemma ShowsSlots.ne_nil {slots : List Nat} (h : ShowsSlots compiler shared c slots slot)
    (hcolors : c.colors ≠ []) : slots ≠ [] := by
  obtain ⟨counts, -, rfl⟩ := h.counted
  rw [← slotCounts_eq]
  exact slotCounts_ne_nil hcolors counts

/-- An alternating light with a colour shows slots, unless its group cannot be read. -/
lemma exists_showsSlots (shared : Table String) (hrule : c.type ∉ compiler.withoutRule)
    (htype : c.type.isAlternating = true) (hcolors : c.colors ≠ []) :
    (∃ e, Group.counts c.group = .error e ∧
        compiler.compile shared (some c) = .error (.tooManyDigits e)) ∨
      ∃ slots slot, ShowsSlots compiler shared c slots slot := by
  have hsubject : (Setup.of compiler c).subject = c := rfl
  have hmorse : c.type ≠ .morse := by
    intro hmorse
    rw [hmorse] at htype
    cases htype
  cases hgroup : Group.counts c.group with
  | error e =>
    have hreads : c.type.readsCounts = true := by
      cases ht : c.type <;> rw [ht] at htype <;> first | rfl | cases htype
    exact Or.inl ⟨e, rfl, compile_eq_error_of_counts hrule hcolors hreads hgroup⟩
  | ok counts =>
    have hread : (Setup.of compiler c).counts = .ok counts := counts_eq_ok_iff.mpr hgroup
    have hpieces : pieces compiler (compiler.tableWith shared) (Setup.of compiler c) =
        alternatingPieces (Setup.of compiler c) := by
      cases ht : c.type <;> rw [ht] at htype <;> simp only [pieces, hsubject, ht]
      all_goals cases htype
    have hasked := hpieces.trans (alternatingPieces_eq hread hcolors)
    refine Or.inr ⟨_, _, ⟨counts, hgroup, slotCounts_eq counts c.colors⟩, slotStyle_eq c.type, rfl,
      hasked, ?_⟩
    rw [compile_eq_shown shared hrule hmorse, hasked]
    exact congrArg Except.ok (List.filter_flatten ..)

/-- A slot that is shared out evenly: the same flash and gap again and again, which share its
time. -/
structure IsEvenSlot (slot : Rat) (color : String) (count : Nat) (on gap : Rat)
    (run : Timeline Rat) : Prop where
  repeats : run = repeated count [lit on color, unlit gap color]
  beat : on + gap = slot / count
  /-- The slot lasts as long as it should, but for what is left out. -/
  lasts : (shown run).total + (leftOut run).total = slot

/-- What is shown in a slot of a light of some type. -/
structure IsSlotOf (type : LightType) (slot : Rat) (color : String) (count : Nat)
    (run : Timeline Rat) : Prop where
  is_slot : IsSlot color count (slotLight (slotStyle type) slot count)
    (slotGap (slotStyle type) slot count) run
  /-- Only flashes do not share out their slot. -/
  even : type ≠ .alternatingFlashing → IsEvenSlot slot color count
    (slotLight (slotStyle type) slot count) (slotGap (slotStyle type) slot count) run
  /-- Eclipses leave a quarter of each beat. -/
  quarter : type = .alternatingOcculting →
    slotLight (slotStyle type) slot count = 1 / 4 * (slot / count)
  /-- The other lights are on for nine tenths of each beat, and never off for long. -/
  nine_tenths : type = .alternating ∨ type = .alternatingIsophase →
    9 / 10 * (slot / count) ≤ slotLight (slotStyle type) slot count ∧
      slotGap (slotStyle type) slot count ≤ 1 / 5

lemma slotRun_isEvenSlot {style : SlotStyle} (hstyle : style ≠ .flashes) (hcount : 0 < count)
    (hon : shortest < slotLight style slot count) (color : String) :
    IsEvenSlot slot color count (slotLight style slot count) (slotGap style slot count)
      (slotRun style slot color count) where
  repeats := slotRun_of_ne_flashes hstyle hcount slot color
  beat := slotLight_add_slotGap hstyle slot count
  lasts := (slotRun_shares hstyle hcount
    (slot_nonneg_of_slotLight_pos hstyle hcount (shortest_pos.trans hon)) color).shown_add_leftOut

lemma slotRun_isSlotOf {type : LightType} (hcount : 0 < count)
    (hon : shortest < slotLight (slotStyle type) slot count) (color : String) :
    IsSlotOf type slot color count (slotRun (slotStyle type) slot color count) where
  is_slot := flashRun_isSlot hcount hon
  even := by
    intro htype
    refine slotRun_isEvenSlot ?_ hcount hon color
    cases type <;> first | exact absurd rfl htype | simp [slotStyle]
  quarter := by
    rintro rfl
    rfl
  nine_tenths := by
    intro htype
    have hstyle : slotStyle type = .gaps := by
      rcases htype with rfl | rfl <;> rfl
    rw [hstyle, slotLight, slotGap]
    refine ⟨?_, min_le_right _ _⟩
    linarith [min_le_left (1 / 10 * (slot / count)) (1 / 5)]

/-- **The slots of an alternating light.**  If no flash is too short to be shown, the light shows
its slots one after the other, each in the colour whose turn it is.  A slot starts with a flash and
has as many flashes as it counts, which only meet if the gap between them is too short.  Eclipses
and short gaps share out the slot, so that it lasts as long as it should but for what is left out.
Only a group that cannot be read is in the way. -/
theorem compile_slots (shared : Table String) (hrule : c.type ∉ compiler.withoutRule)
    (htype : c.type.isAlternating = true) (hcolors : c.colors ≠ []) :
    (∃ e, Group.counts c.group = .error e ∧
        compiler.compile shared (some c) = .error (.tooManyDigits e)) ∨
      ∃ slots slot, ShowsSlots compiler shared c slots slot ∧
        ((∀ count ∈ slots, shortest < slotLight (slotStyle c.type) slot count) →
          ∀ place count, slots[place]? = some count →
            IsSlotOf c.type slot (colorAt c.colors place) count
              (slotRun (slotStyle c.type) slot (colorAt c.colors place) count)) := by
  refine (exists_showsSlots shared hrule htype hcolors).imp_right ?_
  rintro ⟨slots, slot, hslots⟩
  refine ⟨slots, slot, hslots, fun hon place count hplace => ?_⟩
  have hmem : count ∈ slots := List.mem_of_getElem? hplace
  exact slotRun_isSlotOf (hslots.pos count hmem) (hon count hmem) _

/-- Two slots of four and a half seconds, with two eclipses and with one. -/
theorem eclipsed_slots :
    Compiler.standard.compile Morse.builtin
        (some ⟨.alternatingOcculting, some "2+1", ["W", "R"], some (9 : Rat)⟩) =
      .ok [lit (9 / 16) "W", unlit (27 / 16) "W", lit (9 / 16) "W", unlit (27 / 16) "W",
        lit (9 / 8) "R", unlit (27 / 8) "R"] ∧
      (∀ count ∈ [2, 1], shortest < slotLight .eclipses (9 / 2) count) ∧
      IsSlotOf .alternatingOcculting (9 / 2) "W" 2 (slotRun .eclipses (9 / 2) "W" 2) ∧
      IsSlotOf .alternatingOcculting (9 / 2) "R" 1 (slotRun .eclipses (9 / 2) "R" 1) := by
  have hgroup : Group.counts (some "2+1") = .ok [2, 1] := by decide +kernel
  have hon : ∀ count ∈ [2, 1], shortest < slotLight .eclipses (9 / 2) count := by decide +kernel
  have hrule : .alternatingOcculting ∉ (Compiler.standard : Compiler Rat).withoutRule := by
    simp [Compiler.standard]
  rcases compile_slots (c := ⟨.alternatingOcculting, some "2+1", ["W", "R"], some 9⟩)
      Morse.builtin hrule rfl (by simp) with ⟨e, herror, -⟩ | ⟨slots, slot, h, hslots⟩
  · rw [hgroup] at herror
    cases herror
  · obtain ⟨counts, hcounts, rfl⟩ := h.counted
    obtain rfl : [2, 1] = counts := Except.ok.inj (hgroup.symm.trans hcounts)
    obtain rfl : slot = 9 / 2 := h.share.trans (by decide +kernel)
    have hcycle : ((slotRuns .eclipses (9 / 2) ["W", "R"] [2, 1]).map shown).flatten =
        [lit (9 / 16) "W", unlit (27 / 16) "W", lit (9 / 16) "W", unlit (27 / 16) "W",
          lit (9 / 8) "R", unlit (27 / 8) "R"] := by decide +kernel
    exact ⟨h.compiled.trans (congrArg Except.ok hcycle), hon, hslots hon 0 2 rfl,
      hslots hon 1 1 rfl⟩

/-- An alternating light shows no slots if its group has a number of too many digits, even though a
single group does not count them: there would be one of five seconds for each colour. -/
theorem overlong_group_has_no_slots :
    LightType.isAlternating .alternating = true ∧
      (∀ count ∈ [1, 1], shortest < slotLight .gaps 5 count) ∧
      ∀ ts : Timeline Rat, Compiler.standard.compile Morse.builtin
        (some ⟨.alternating, some (String.ofList (List.replicate 4301 '1')), ["W", "R"], some 10⟩) ≠
          .ok ts := by
  have hcompile : (Compiler.standard : Compiler Rat).compile Morse.builtin
      (some ⟨.alternating, some (String.ofList (List.replicate 4301 '1')), ["W", "R"], some 10⟩) =
        .error (.tooManyDigits ⟨4301⟩) :=
    compile_of_counts_eq_error rfl (by decide) rfl (Group.counts_ones (by decide))
  refine ⟨rfl, by decide +kernel, fun ts hts => ?_⟩
  rw [hcompile] at hts
  cases hts

end Compiler

end Seamark
