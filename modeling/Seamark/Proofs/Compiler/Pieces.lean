import Mathlib
import Seamark.Compiler.Compile

/-!
# The pieces of a timeline

Every rule asks for pieces, one after the other, and those too short to be shown are left out.  Here
the pieces are kept apart from what is shown of them: `pieces` lists all the pieces that the rule of
a type asks for, in order and whatever their length, and `shown` leaves out the short ones.  Every
rule but the one for Morse lights shows its pieces as they are (`applyRule_eq_shown`); a Morse light
may also make its last gap longer.
-/

namespace Seamark

lemma bind_eq_ok_iff {ε β γ : Type} {x : Except ε β} {f : β → Except ε γ} {c : γ} :
    (x >>= f) = .ok c ↔ ∃ b, x = .ok b ∧ f b = .ok c := by
  cases x <;> simp [bind, Except.bind]

lemma map_eq_ok_iff {ε β γ : Type} {x : Except ε β} {f : β → γ} {c : γ} :
    (f <$> x) = .ok c ↔ ∃ b, x = .ok b ∧ f b = c := by
  cases x <;> simp [Functor.map, Except.map]

lemma counts_eq_ok_iff {α : Type} {s : Setup α} {counts : List Nat} :
    s.counts = .ok counts ↔ Group.counts s.subject.group = .ok counts := by
  rw [Setup.counts]
  cases Group.counts s.subject.group <;> simp

lemma addedUp_eq_sum (counts : List Nat) : addedUp counts = counts.sum := by
  induction counts with
  | nil => rfl
  | cons n ns ih => rw [addedUp, ih, List.sum_cons]

variable {α : Type} [Scalar α]

/-- A lit piece at full brightness. -/
def lit (duration : α) (color : String) : Segment α := ⟨true, duration, color, 1.0⟩

/-- A dark piece. -/
def unlit (duration : α) (color : String) : Segment α := ⟨false, duration, color, 1.0⟩

/-- The pieces that are long enough to be shown. -/
def shown (ps : Timeline α) : Timeline α := ps.filter fun p => decide (shortest < p.duration)

lemma mem_shown {ps : Timeline α} {p : Segment α} :
    p ∈ shown ps ↔ p ∈ ps ∧ shortest < p.duration := by
  rw [shown, List.mem_filter, decide_eq_true_iff]

lemma shown_eq_nil_iff {ps : Timeline α} : shown ps = [] ↔ ∀ p ∈ ps, ¬ shortest < p.duration := by
  simp only [shown, List.filter_eq_nil_iff, decide_eq_true_eq]

/-- Pieces that are all long enough are all shown. -/
lemma shown_eq_self {ps : Timeline α} (h : ∀ p ∈ ps, shortest < p.duration) : shown ps = ps :=
  List.filter_eq_self.mpr fun p hp => decide_eq_true (h p hp)

@[simp] lemma shown_nil : shown ([] : Timeline α) = [] := rfl

@[simp] lemma shown_append (ps qs : Timeline α) : shown (ps ++ qs) = shown ps ++ shown qs :=
  List.filter_append ps qs

lemma shown_cons (p : Segment α) (ps : Timeline α) :
    shown (p :: ps) = if shortest < p.duration then p :: shown ps else shown ps := by
  simp only [shown, List.filter_cons, decide_eq_true_eq]

lemma shown_unlit_of_lt {left : α} (hleft : shortest < left) (color : String) :
    shown [unlit left color] = [unlit left color] := by
  have hlong : shortest < (unlit left color).duration := hleft
  rw [shown_cons, if_pos hlong, shown_nil]

lemma shown_unlit_of_not_lt {left : α} (hleft : ¬ shortest < left) (color : String) :
    shown [unlit left color] = [] := by
  have hshort : ¬ shortest < (unlit left color).duration := hleft
  rw [shown_cons, if_neg hshort, shown_nil]

/-- What is shown of darkness is one segment at most. -/
lemma shown_unlit_cases (left : α) (color : String) :
    shown [unlit left color] = [] ∨ shown [unlit left color] = [unlit left color] := by
  by_cases hleft : shortest < left
  · exact Or.inr (shown_unlit_of_lt hleft color)
  · exact Or.inl (shown_unlit_of_not_lt hleft color)

lemma shown_map {β : Type} (xs : List β) (f : β → Segment α) :
    shown (xs.map f) = xs.flatMap fun x => shown [f x] := by
  have hsingle : xs.map f = xs.flatMap fun x => [f x] := List.map_eq_flatMap
  rw [hsingle, shown, List.filter_flatMap]
  rfl

lemma emit_eq_shown (on : Bool) (duration : α) (color : String) (intensity : α) :
    emit on duration color intensity = shown [⟨on, duration, color, intensity⟩] := by
  by_cases h : shortest < duration <;> simp [emit, shown, h]

lemma light_eq_shown (duration : α) (color : String) :
    light duration color = shown [lit duration color] :=
  emit_eq_shown true duration color 1.0

lemma dark_eq_shown (duration : α) (color : String) :
    dark duration color = shown [unlit duration color] :=
  emit_eq_shown false duration color 1.0

/-- A flash and the darkness after it. -/
lemma light_dark_eq_shown (on off : α) (color : String) :
    light on color ++ dark off color = shown [lit on color, unlit off color] := by
  rw [light_eq_shown, dark_eq_shown, ← shown_append]
  rfl

omit [Scalar α] in
lemma mem_repeated_iff {n : Nat} {ps : Timeline α} {p : Segment α} :
    p ∈ repeated n ps ↔ n ≠ 0 ∧ p ∈ ps := by
  simp only [repeated, List.mem_flatten, List.mem_replicate, and_assoc, exists_and_left,
    exists_eq_left]

omit [Scalar α] in
lemma repeated_succ (n : Nat) (ps : Timeline α) : repeated (n + 1) ps = ps ++ repeated n ps := by
  rw [repeated, List.replicate_succ, List.flatten_cons, ← repeated]

omit [Scalar α] in
lemma filter_repeated (f : Segment α → Bool) (n : Nat) (ps : Timeline α) :
    (repeated n ps).filter f = repeated n (ps.filter f) := by
  rw [repeated, repeated, List.filter_flatten, List.map_replicate]

lemma shown_repeated (n : Nat) (ps : Timeline α) :
    shown (repeated n ps) = repeated n (shown ps) :=
  filter_repeated _ n ps

namespace Compiler

/-! ### The pieces of each rule -/

/-- The pieces of a steady light: every colour for the same time. -/
def steadyPieces (compiler : Compiler α) (s : Setup α) : Except CompileError (Timeline α) := do
  let duration ← colorTime compiler s
  return s.subject.colors.map (lit duration)

/-- A beat of a flash pattern as a piece. -/
def Beat.piece (scale : α) (b : Beat α) : Segment α := ⟨b.lit, b.weight * scale, b.color, 1.0⟩

/-- The piece of darkness after a pattern that takes some time, if there is any. -/
def restPieces (period : Option α) (used : α) (color : String) : Timeline α :=
  match period with
  | none => []
  | some p => if used < p then [unlit (p - used) color] else []

/-- The pieces of a flashing light. -/
def flashingPieces (s : Setup α) : Except CompileError (Timeline α) := do
  let counts ← s.counts
  let base ← s.firstColor
  let beats ← patternFrom base (groupColors s counts) 0 counts
  let weight := sumOf (beats.map (·.weight))
  let scale := timeScale s.period weight
  return beats.map (Beat.piece scale) ++ restPieces s.period (weight * scale) base

/-- The pieces of a long flash. -/
def longFlashingPieces (s : Setup α) : Except CompileError (Timeline α) := do
  let color ← s.firstColor
  let on := s.safePeriod * longFlashShare
  return [lit on color, unlit (s.safePeriod - on) color]

/-- The pieces of an isophase light. -/
def isophasePieces (s : Setup α) : Except CompileError (Timeline α) := do
  let color ← s.firstColor
  let half := s.safePeriod / 2.0
  return [lit half color, unlit (s.safePeriod - half) color]

/-- The pieces of a fixed and flashing light. -/
def fixedFlashingPieces (s : Setup α) : Except CompileError (Timeline α) := do
  let color ← s.firstColor
  let flash := s.safePeriod * fixedFlashShare
  return [lit flash color, ⟨true, s.safePeriod - flash, color, backgroundIntensity⟩]

/-- A quick flash and the darkness after it. -/
def quickFlashPieces (beat on : α) (color : String) : Timeline α :=
  [lit on color, unlit (beat - on) color]

/-- The length of the break after a group of quick flashes. -/
def quickBreak (period : Option α) (beat : α) (count : Nat) : Except CompileError α :=
  match period with
  | some p => do return greater 0.0 (p - (← countNumber count) * beat)
  | none => .ok (beat * breakBeats)

/-- The pieces of a quick light. -/
def quickPieces (s : Setup α) : Except CompileError (Timeline α) := do
  let color ← s.firstColor
  let beat := quickBeat s.subject.type
  let flash := quickFlashPieces beat (lesser maxFlash (beat * quickShare)) color
  if s.isGrouped then
    let count := (← s.counts).headD 1
    let pause ← quickBreak s.period beat count
    return repeated count flash ++ [unlit pause color]
  else return flash

/-- The number of flashes between the breaks of an interrupted quick light. -/
def interruptedCount (s : Setup α) : Except CompileError Nat :=
  if s.isGrouped then (fun counts => counts.headD 1) <$> s.counts else .ok interruptedFlashes

/-- The length of the break of an interrupted quick light. -/
def interruptedBreak (period : Option α) (used beat : α) : α :=
  match period with
  | some p => if used < p then p - used else beat * breakBeats
  | none => beat * breakBeats

/-- The pieces of an interrupted quick light. -/
def interruptedQuickPieces (s : Setup α) : Except CompileError (Timeline α) := do
  let color ← s.firstColor
  let count ← interruptedCount s
  let beat : α := 1.0
  let used := (← countNumber count) * beat
  return repeated count (quickFlashPieces beat (beat * quickShare) color)
    ++ [unlit (interruptedBreak s.period used beat) color]

/-- The pieces of the counted slots of an occulting light, with the dark slots between the groups
and perhaps one at the end. -/
def occultingGroupPieces (slot on : α) (color : String) (closed : Bool) : List Nat → Timeline α
  | [] => []
  | [count] =>
    repeated count [lit on color, unlit (slot - on) color]
      ++ if closed then [unlit slot color] else []
  | count :: counts =>
    repeated count [lit on color, unlit (slot - on) color] ++ [unlit slot color]
      ++ occultingGroupPieces slot on color closed counts

/-- The pieces of an occulting light.  The last one fills the period up from what is shown. -/
def occultingPieces (s : Setup α) : Except CompileError (Timeline α) := do
  let color ← s.firstColor
  let counts ← s.counts
  let slot := s.safePeriod / (← countNumber (addedUp counts + counts.length))
  let groups := occultingGroupPieces slot (slot * occultingShare) color
    (counts.length == 1 && s.isGrouped) counts
  return groups ++ restPieces (some s.safePeriod) (shown groups).total color

/-- The pieces of a slot with flashes. -/
def flashSlotPieces (slot : α) (color : String) (count : Nat) :
    Except CompileError (Timeline α) := do
  let n ← countNumber count
  let gaps ← countNumber (count - 1)
  let on := lesser maxFlash (greater minFlash (slot / n * quickShare))
  let wide := gaps * (on + alternatingFlashGap) + on
  let (gap, used) :=
    if slot < wide ∧ 1 < count then
      let gap := greater 0.0 ((slot - n * on) / gaps)
      (gap, gaps * gap + n * on)
    else (alternatingFlashGap, wide)
  return repeated (count - 1) [lit on color, unlit gap color]
    ++ [lit on color, unlit (slot - used) color]

/-- The pieces of a slot with eclipses. -/
def eclipseSlotPieces (slot : α) (color : String) (count : Nat) :
    Except CompileError (Timeline α) := do
  let beat := slot / (← countNumber count)
  let on := beat * occultingShare
  return repeated count [lit on color, unlit (beat - on) color]

/-- The pieces of a slot of light with short gaps. -/
def gapSlotPieces (slot : α) (color : String) (count : Nat) :
    Except CompileError (Timeline α) := do
  let beat := slot / (← countNumber count)
  let gap := lesser (beat * alternatingGapShare) maxAlternatingGap
  return repeated count [lit (beat - gap) color, unlit gap color]

/-- The pieces of a slot in the given style. -/
def styledSlotPieces : SlotStyle → α → String → Nat → Except CompileError (Timeline α)
  | .flashes => flashSlotPieces
  | .eclipses => eclipseSlotPieces
  | .gaps => gapSlotPieces

/-- The pieces of the slots from a place on. -/
def slotPiecesFrom (style : SlotStyle) (slot : α) (colors : List String) :
    Nat → List Nat → Except CompileError (Timeline α)
  | _, [] => .ok []
  | place, count :: counts => do
    let color ← colorInTurn colors place
    let first ← styledSlotPieces style slot color count
    let rest ← slotPiecesFrom style slot colors (place + 1) counts
    return first ++ rest

/-- The pieces of an alternating light. -/
def alternatingPieces (s : Setup α) : Except CompileError (Timeline α) := do
  let slots := slotCounts (← s.counts) s.subject.colors
  if slots.isEmpty then throw .noColorToShare
  let slot := s.safePeriod / (← countNumber slots.length)
  slotPiecesFrom (slotStyle s.subject.type) slot s.subject.colors 0 slots

/-- The pieces of the symbols of a code, each with the dark unit after it. -/
def symbolPieces (unit : α) (color : String) (symbols : List Nat) : Timeline α :=
  symbols.flatMap fun n => [lit (unitsTime unit n) color, unlit (unitsTime unit 1) color]

/-- The piece at the end of a Morse cycle: none if the time left is too short to be seen and
something is shown before. -/
def closingPieces (left : α) (color : String) (sent : Timeline α) : Timeline α :=
  if minUnit ≤ left ∨ (shown sent).isEmpty = true then [unlit left color] else []

/-- The pieces of a Morse light. -/
def morsePieces (compiler : Compiler α) (table : Table String) (s : Setup α) :
    Except CompileError (Timeline α) := do
  let color ← s.firstColor
  let symbols := codeUnits (Morse.lookup table (sentCharacter compiler s))
  let units := addedUp symbols + symbols.length
  let unit := greater minUnit (s.safePeriod / (← countNumber (units + trailingUnits)))
  let sent := symbolPieces unit color symbols
  return sent ++ closingPieces (s.safePeriod - unitsTime unit units) color sent

/-- The pieces that the rule of a type asks for. -/
def pieces (compiler : Compiler α) (table : Table String) (s : Setup α) :
    Except CompileError (Timeline α) :=
  match s.subject.type with
  | .fixed | .directional | .directionalFixed => steadyPieces compiler s
  | .flashing | .groupFlashing => flashingPieces s
  | .longFlashing => longFlashingPieces s
  | .quick | .veryQuick | .ultraQuick => quickPieces s
  | .interruptedQuick => interruptedQuickPieces s
  | .occulting | .groupOcculting => occultingPieces s
  | .isophase => isophasePieces s
  | .alternating | .alternatingFlashing | .alternatingOcculting | .alternatingIsophase =>
    alternatingPieces s
  | .fixedAndFlashing | .flashingFixed => fixedFlashingPieces s
  | .morse => morsePieces compiler table s

/-! ### What the pieces are

One lemma for each rule says all that is known of its pieces when there are any. -/

section

variable {compiler : Compiler α} {table : Table String} {s : Setup α} {ps : Timeline α}

lemma exists_of_steadyPieces (h : steadyPieces compiler s = .ok ps) :
    ∃ duration, colorTime compiler s = .ok duration ∧
      ps = s.subject.colors.map (lit duration) := by
  simp only [steadyPieces, bind_eq_ok_iff] at h
  obtain ⟨duration, hduration, hps⟩ := h
  exact ⟨duration, hduration, (Except.ok.inj hps).symm⟩

lemma exists_of_flashingPieces (h : flashingPieces s = .ok ps) :
    ∃ counts base beats weight scale, s.counts = .ok counts ∧ s.firstColor = .ok base ∧
      patternFrom base (groupColors s counts) 0 counts = .ok beats ∧
      weight = sumOf (beats.map (·.weight)) ∧ scale = timeScale s.period weight ∧
      ps = beats.map (Beat.piece scale) ++ restPieces s.period (weight * scale) base := by
  simp only [flashingPieces, bind_eq_ok_iff] at h
  obtain ⟨counts, hcounts, base, hbase, beats, hbeats, hps⟩ := h
  exact ⟨counts, base, beats, _, _, hcounts, hbase, hbeats, rfl, rfl, (Except.ok.inj hps).symm⟩

lemma exists_of_longFlashingPieces (h : longFlashingPieces s = .ok ps) :
    ∃ color on, s.firstColor = .ok color ∧ on = s.safePeriod * longFlashShare ∧
      ps = [lit on color, unlit (s.safePeriod - on) color] := by
  simp only [longFlashingPieces, bind_eq_ok_iff] at h
  obtain ⟨color, hcolor, hps⟩ := h
  exact ⟨color, _, hcolor, rfl, (Except.ok.inj hps).symm⟩

lemma exists_of_isophasePieces (h : isophasePieces s = .ok ps) :
    ∃ color half, s.firstColor = .ok color ∧ half = s.safePeriod / 2.0 ∧
      ps = [lit half color, unlit (s.safePeriod - half) color] := by
  simp only [isophasePieces, bind_eq_ok_iff] at h
  obtain ⟨color, hcolor, hps⟩ := h
  exact ⟨color, _, hcolor, rfl, (Except.ok.inj hps).symm⟩

lemma exists_of_fixedFlashingPieces (h : fixedFlashingPieces s = .ok ps) :
    ∃ color flash, s.firstColor = .ok color ∧ flash = s.safePeriod * fixedFlashShare ∧
      ps = [lit flash color, ⟨true, s.safePeriod - flash, color, backgroundIntensity⟩] := by
  simp only [fixedFlashingPieces, bind_eq_ok_iff] at h
  obtain ⟨color, hcolor, hps⟩ := h
  exact ⟨color, _, hcolor, rfl, (Except.ok.inj hps).symm⟩

lemma exists_of_quickPieces (h : quickPieces s = .ok ps) :
    ∃ color flash, s.firstColor = .ok color ∧
      flash = quickFlashPieces (quickBeat s.subject.type)
        (lesser maxFlash (quickBeat s.subject.type * quickShare)) color ∧
      (ps = flash ∨ ∃ counts pause, s.counts = .ok counts ∧
        ps = repeated (counts.headD 1) flash ++ [unlit pause color]) := by
  simp only [quickPieces, bind_eq_ok_iff] at h
  obtain ⟨color, hcolor, hps⟩ := h
  refine ⟨color, _, hcolor, rfl, ?_⟩
  split at hps
  · obtain ⟨counts, hcounts, hps⟩ := bind_eq_ok_iff.mp hps
    obtain ⟨pause, -, hps⟩ := bind_eq_ok_iff.mp hps
    exact Or.inr ⟨counts, pause, hcounts, (Except.ok.inj hps).symm⟩
  · exact Or.inl (Except.ok.inj hps).symm

lemma exists_of_interruptedQuickPieces (h : interruptedQuickPieces s = .ok ps) :
    ∃ color count pause, s.firstColor = .ok color ∧ interruptedCount s = .ok count ∧
      ps = repeated count (quickFlashPieces 1.0 (1.0 * quickShare) color)
        ++ [unlit pause color] := by
  simp only [interruptedQuickPieces, bind_eq_ok_iff] at h
  obtain ⟨color, hcolor, count, hcount, n, -, hps⟩ := h
  exact ⟨color, count, _, hcolor, hcount, (Except.ok.inj hps).symm⟩

lemma exists_of_occultingPieces (h : occultingPieces s = .ok ps) :
    ∃ color counts n slot groups, s.firstColor = .ok color ∧ s.counts = .ok counts ∧
      countNumber (addedUp counts + counts.length) = .ok n ∧ slot = s.safePeriod / n ∧
      groups = occultingGroupPieces slot (slot * occultingShare) color
        (counts.length == 1 && s.isGrouped) counts ∧
      ps = groups ++ restPieces (some s.safePeriod) (shown groups).total color := by
  simp only [occultingPieces, bind_eq_ok_iff] at h
  obtain ⟨color, hcolor, counts, hcounts, n, hn, hps⟩ := h
  exact ⟨color, counts, n, _, _, hcolor, hcounts, hn, rfl, rfl, (Except.ok.inj hps).symm⟩

lemma exists_of_flashSlotPieces {slot : α} {color : String} {count : Nat}
    (h : flashSlotPieces slot color count = .ok ps) :
    ∃ n on gap used, on = lesser maxFlash (greater minFlash (slot / n * quickShare)) ∧
      ps = repeated (count - 1) [lit on color, unlit gap color]
        ++ [lit on color, unlit (slot - used) color] := by
  simp only [flashSlotPieces, bind_eq_ok_iff] at h
  obtain ⟨n, -, gaps, -, hps⟩ := h
  exact ⟨n, _, _, _, rfl, (Except.ok.inj hps).symm⟩

lemma exists_of_eclipseSlotPieces {slot : α} {color : String} {count : Nat}
    (h : eclipseSlotPieces slot color count = .ok ps) :
    ∃ n beat on, countNumber count = .ok n ∧ beat = slot / n ∧ on = beat * occultingShare ∧
      ps = repeated count [lit on color, unlit (beat - on) color] := by
  simp only [eclipseSlotPieces, bind_eq_ok_iff] at h
  obtain ⟨n, hn, hps⟩ := h
  exact ⟨n, _, _, hn, rfl, rfl, (Except.ok.inj hps).symm⟩

lemma exists_of_gapSlotPieces {slot : α} {color : String} {count : Nat}
    (h : gapSlotPieces slot color count = .ok ps) :
    ∃ n beat gap, countNumber count = .ok n ∧ beat = slot / n ∧
      gap = lesser (beat * alternatingGapShare) maxAlternatingGap ∧
      ps = repeated count [lit (beat - gap) color, unlit gap color] := by
  simp only [gapSlotPieces, bind_eq_ok_iff] at h
  obtain ⟨n, hn, hps⟩ := h
  exact ⟨n, _, _, hn, rfl, rfl, (Except.ok.inj hps).symm⟩

lemma exists_of_slotPiecesFrom_cons {style : SlotStyle} {slot : α} {colors : List String}
    {place count : Nat} {counts : List Nat}
    (h : slotPiecesFrom style slot colors place (count :: counts) = .ok ps) :
    ∃ color first rest, colorInTurn colors place = .ok color ∧
      styledSlotPieces style slot color count = .ok first ∧
      slotPiecesFrom style slot colors (place + 1) counts = .ok rest ∧ ps = first ++ rest := by
  simp only [slotPiecesFrom, bind_eq_ok_iff] at h
  obtain ⟨color, hcolor, first, hfirst, rest, hrest, hps⟩ := h
  exact ⟨color, first, rest, hcolor, hfirst, hrest, (Except.ok.inj hps).symm⟩

lemma exists_of_alternatingPieces (h : alternatingPieces s = .ok ps) :
    ∃ counts slots n, s.counts = .ok counts ∧ slots = slotCounts counts s.subject.colors ∧
      slots ≠ [] ∧ countNumber slots.length = .ok n ∧
      slotPiecesFrom (slotStyle s.subject.type) (s.safePeriod / n) s.subject.colors 0 slots =
        .ok ps := by
  simp only [alternatingPieces, bind_eq_ok_iff] at h
  obtain ⟨counts, hcounts, h⟩ := h
  split at h
  · cases h
  · rename_i hslots
    obtain ⟨n, hn, hps⟩ := bind_eq_ok_iff.mp h
    exact ⟨counts, _, n, hcounts, rfl, by simpa using hslots, hn, hps⟩

lemma exists_of_morsePieces (h : morsePieces compiler table s = .ok ps) :
    ∃ color symbols n unit left, s.firstColor = .ok color ∧
      symbols = codeUnits (Morse.lookup table (sentCharacter compiler s)) ∧
      unit = greater minUnit (s.safePeriod / n) ∧
      ps = symbolPieces unit color symbols
        ++ closingPieces left color (symbolPieces unit color symbols) := by
  simp only [morsePieces, bind_eq_ok_iff] at h
  obtain ⟨color, hcolor, n, -, hps⟩ := h
  exact ⟨color, _, n, _, _, hcolor, rfl, rfl, (Except.ok.inj hps).symm⟩

lemma restPieces_mem {period : Option α} {used : α} {color : String} {p : Segment α}
    (hp : p ∈ restPieces period used color) : ∃ left, p = unlit left color := by
  cases period with
  | none => simp [restPieces] at hp
  | some q =>
    rw [restPieces] at hp
    split at hp
    · exact ⟨_, List.mem_singleton.mp hp⟩
    · simp at hp

end

/-! ### Every rule shows its pieces -/

lemma steady_eq_shown (compiler : Compiler α) (s : Setup α) :
    steady compiler s = shown <$> steadyPieces compiler s := by
  simp only [steady, steadyPieces, map_bind, map_pure, shown_map, ← light_eq_shown]

lemma restAfter_eq_shown (period : Option α) (used : α) (color : String) :
    restAfter period used color = shown (restPieces period used color) := by
  cases period with
  | none => rfl
  | some p => by_cases h : used < p <;> simp [restAfter, restPieces, h, dark_eq_shown]

lemma flashing_eq_shown (s : Setup α) : flashing s = shown <$> flashingPieces s := by
  simp only [flashing, flashingPieces, map_bind, map_pure, shown_append, restAfter_eq_shown,
    shown_map, emit_eq_shown, Beat.piece]

lemma longFlashing_eq_shown (s : Setup α) : longFlashing s = shown <$> longFlashingPieces s := by
  simp only [longFlashing, longFlashingPieces, map_bind, map_pure, light_dark_eq_shown]

lemma isophase_eq_shown (s : Setup α) : isophase s = shown <$> isophasePieces s := by
  simp only [isophase, isophasePieces, map_bind, map_pure, light_dark_eq_shown]

lemma fixedFlashing_eq_shown (s : Setup α) : fixedFlashing s = shown <$> fixedFlashingPieces s := by
  simp only [fixedFlashing, fixedFlashingPieces, map_bind, map_pure, light_eq_shown, emit_eq_shown,
    ← shown_append]
  rfl

lemma quickFlash_eq_shown (beat on : α) (color : String) :
    quickFlash beat on color = shown (quickFlashPieces beat on color) :=
  light_dark_eq_shown on (beat - on) color

lemma quick_eq_shown (s : Setup α) : quick s = shown <$> quickPieces s := by
  by_cases hgrouped : s.isGrouped
  · cases hperiod : s.period with
    | none =>
      simp [quick, quickPieces, quickBreak, hgrouped, hperiod, quickFlash_eq_shown, dark_eq_shown,
        shown_repeated]
      rfl
    | some p =>
      simp [quick, quickPieces, quickBreak, hgrouped, hperiod, quickFlash_eq_shown, dark_eq_shown,
        shown_repeated]
  · simp [quick, quickPieces, hgrouped, quickFlash_eq_shown]

lemma interruptedQuick_eq_shown (s : Setup α) :
    interruptedQuick s = shown <$> interruptedQuickPieces s := by
  by_cases hgrouped : s.isGrouped <;>
    simp only [interruptedQuick, interruptedQuickPieces, interruptedCount, interruptedBreak,
      hgrouped, if_true, if_false, Bool.false_eq_true, map_bind, map_pure, quickFlash_eq_shown,
      dark_eq_shown, shown_append, shown_repeated, bind_map_left] <;> rfl

lemma occultingGroups_eq_shown (slot on : α) (color : String) (closed : Bool) (counts : List Nat) :
    occultingGroups slot on color closed counts =
      shown (occultingGroupPieces slot on color closed counts) := by
  induction counts with
  | nil => rfl
  | cons count counts ih =>
    cases counts with
    | nil =>
      rw [occultingGroups, occultingGroupPieces, light_dark_eq_shown, shown_append, shown_repeated,
        dark_eq_shown]
      cases closed <;> rfl
    | cons next counts =>
      rw [occultingGroups, occultingGroupPieces, ih, light_dark_eq_shown, shown_append,
        shown_append, shown_repeated, dark_eq_shown] <;> simp

lemma occulting_eq_shown (s : Setup α) : occulting s = shown <$> occultingPieces s := by
  simp only [occulting, occultingPieces, map_bind, map_pure, shown_append, occultingGroups_eq_shown,
    ← restAfter_eq_shown, restAfter]

lemma styledSlot_eq_shown (style : SlotStyle) (slot : α) (color : String) (count : Nat) :
    styledSlot style slot color count = shown <$> styledSlotPieces style slot color count := by
  cases style with
  | flashes =>
    simp only [styledSlot, styledSlotPieces, flashSlot, flashSlotPieces, map_bind, map_pure,
      light_dark_eq_shown, List.append_assoc, shown_append, shown_repeated]
  | eclipses =>
    simp only [styledSlot, styledSlotPieces, eclipseSlot, eclipseSlotPieces, map_bind, map_pure,
      light_dark_eq_shown, shown_repeated]
  | gaps =>
    simp only [styledSlot, styledSlotPieces, gapSlot, gapSlotPieces, map_bind, map_pure,
      light_dark_eq_shown, shown_repeated]

lemma slotsFrom_eq_shown (style : SlotStyle) (slot : α) (colors : List String) (place : Nat)
    (counts : List Nat) :
    slotsFrom style slot colors place counts =
      shown <$> slotPiecesFrom style slot colors place counts := by
  induction counts generalizing place with
  | nil => rfl
  | cons count counts ih =>
    simp only [slotsFrom, slotPiecesFrom, map_bind, map_pure, styledSlot_eq_shown, ih, shown_append,
      bind_map_left]

lemma alternating_eq_shown (s : Setup α) : alternating s = shown <$> alternatingPieces s := by
  simp only [alternating, alternatingPieces, map_bind]
  congr 1
  funext counts
  by_cases hempty : (slotCounts counts s.subject.colors).isEmpty
  · simp only [hempty, if_true]
    rfl
  · simp only [hempty, if_false, Bool.false_eq_true, map_bind, slotsFrom_eq_shown]

/-! ### Morse lights -/

lemma symbolSegments_eq_shown (unit : α) (color : String) (symbols : List Nat) :
    symbolSegments unit color symbols = shown (symbolPieces unit color symbols) := by
  simp only [symbolSegments, light_dark_eq_shown, symbolPieces, shown, List.filter_flatMap]

/-- A cycle is closed by its last piece, unless its last gap is made longer instead. -/
lemma closeCycle_eq (left : α) (color : String) (sent : Timeline α) :
    closeCycle left color (shown sent) = shown (sent ++ closingPieces left color sent) ∨
      shortest < left ∧ closingPieces left color sent = [] ∧
        closeCycle left color (shown sent) = stretchLast left (shown sent) := by
  by_cases hclose : minUnit ≤ left ∨ (shown sent).isEmpty = true
  · left
    simp only [closeCycle, closingPieces, hclose, if_true, shown_append, dark_eq_shown]
  · by_cases hlong : shortest < left
    · right
      simp only [closeCycle, closingPieces, hclose, hlong, if_true, if_false, and_self]
    · left
      simp only [closeCycle, closingPieces, hclose, hlong, if_false, List.append_nil]

/-- What a Morse light shows and what it asks for. -/
lemma exists_morsePieces {compiler : Compiler α} {table : Table String} {s : Setup α}
    {ts : Timeline α} (h : morse compiler table s = .ok ts) :
    ∃ ps, morsePieces compiler table s = .ok ps ∧
      (ts = shown ps ∨ ∃ extra, shortest < extra ∧ ts = stretchLast extra (shown ps)) := by
  simp only [morse, bind_eq_ok_iff] at h
  obtain ⟨color, hcolor, count, hcount, hts⟩ := h
  obtain rfl := Except.ok.inj hts
  rw [symbolSegments_eq_shown]
  refine ⟨_, by simp only [morsePieces, hcolor, hcount]; rfl, ?_⟩
  rcases closeCycle_eq (_ : α) color _ with hshown | ⟨hlong, hnone, hstretched⟩
  · exact Or.inl hshown
  · right
    rw [hnone, List.append_nil]
    exact ⟨_, hlong, hstretched⟩

lemma applyRule_eq_shown {compiler : Compiler α} {table : Table String} {s : Setup α}
    (hmorse : s.subject.type ≠ .morse) :
    applyRule compiler table s = shown <$> pieces compiler table s := by
  cases htype : s.subject.type <;>
    simp only [applyRule, pieces, htype, steady_eq_shown, flashing_eq_shown, longFlashing_eq_shown,
      quick_eq_shown, interruptedQuick_eq_shown, occulting_eq_shown, isophase_eq_shown,
      alternating_eq_shown, fixedFlashing_eq_shown]
  exact absurd htype hmorse

/-- **A rule shows its pieces.**  The timeline that it gives is what is long enough of the pieces it
asks for; the last gap of a Morse light may be longer. -/
theorem exists_pieces {compiler : Compiler α} {table : Table String} {s : Setup α} {ts : Timeline α}
    (h : applyRule compiler table s = .ok ts) :
    ∃ ps, pieces compiler table s = .ok ps ∧
      (ts = shown ps ∨ s.subject.type = .morse ∧
        ∃ extra, shortest < extra ∧ ts = stretchLast extra (shown ps)) := by
  by_cases hmorse : s.subject.type = .morse
  · simp only [applyRule, hmorse] at h
    obtain ⟨ps, hps, hts⟩ := exists_morsePieces h
    refine ⟨ps, by simpa only [pieces, hmorse] using hps, ?_⟩
    rcases hts with hts | hts
    · exact Or.inl hts
    · exact Or.inr ⟨hmorse, hts⟩
  · rw [applyRule_eq_shown hmorse, map_eq_ok_iff] at h
    obtain ⟨ps, hps, rfl⟩ := h
    exact ⟨ps, hps, Or.inl rfl⟩

end Compiler

end Seamark
