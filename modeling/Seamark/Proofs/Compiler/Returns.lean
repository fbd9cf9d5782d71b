import Mathlib
import Seamark.Proofs.Characteristic.Groups
import Seamark.Proofs.Characteristic.Reading
import Seamark.Proofs.Compiler.Pieces

/-!
# When there is a timeline

A light with a colour can lack a timeline for two reasons only.  A count in its group is written
with more digits than can be read, or a count that its rule turns into a number is larger than
every number.  `conversions` reads the counts of a group as a rule does and lists those that the
rule turns into numbers; a rule gives its pieces exactly if this succeeds and all of them are
numbers (`exists_pieces_iff`).
-/

namespace Seamark

section

variable {ε β γ : Type}

lemma exists_bind_eq_ok_iff {x : Except ε β} {f : β → Except ε γ} :
    (∃ c, (x >>= f) = .ok c) ↔ ∃ b, x = .ok b ∧ ∃ c, f b = .ok c := by
  cases x <;> simp [bind, Except.bind]

lemma exists_map_eq_ok_and_iff {x : Except ε β} {f : β → γ} {P : γ → Prop} :
    (∃ c, (f <$> x) = .ok c ∧ P c) ↔ ∃ b, x = .ok b ∧ P (f b) := by
  cases x <;> simp [Functor.map, Except.map]

lemma exists_pure_eq_ok (b : β) : ∃ c, (pure b : Except ε β) = .ok c :=
  ⟨b, rfl⟩

end

variable {α : Type} [Scalar α]

/-- A count is a number of the given kind. -/
def Converts (α : Type) [Scalar α] (n : Nat) : Prop :=
  ∃ x : α, Scalar.ofCount? n = some x

lemma exists_countNumber_iff {n : Nat} : (∃ x : α, countNumber n = .ok x) ↔ Converts α n := by
  rw [Converts]
  simp only [countNumber]
  cases (Scalar.ofCount? n : Option α) <;> simp

/-- After a count is turned into a number nothing else can fail. -/
lemma exists_countNumber_bind_iff {β : Type} {n : Nat} {f : α → Except CompileError β}
    (hf : ∀ x, ∃ c, f x = .ok c) : (∃ c, (countNumber n >>= f) = .ok c) ↔ Converts α n := by
  rw [exists_bind_eq_ok_iff, ← exists_countNumber_iff]
  exact exists_congr fun x => and_iff_left (hf x)

/-- The colour at a place when colours are given out in turn, counted round and round. -/
def colorAt (colors : List String) (place : Nat) : String :=
  colors.getD (place % colors.length) ""

lemma colorInTurn_eq {colors : List String} (hcolors : colors ≠ []) (place : Nat) :
    colorInTurn colors place = .ok (colorAt colors place) := by
  have hlt : place % colors.length < colors.length :=
    Nat.mod_lt _ (List.length_pos_of_ne_nil hcolors)
  rw [colorInTurn, colorAt, List.getElem?_eq_getElem hlt, List.getD_eq_getElem _ _ hlt]

omit [Scalar α] in
/-- A light with colours has a first one. -/
lemma firstColor_eq {s : Setup α} (hcolors : s.subject.colors ≠ []) :
    s.firstColor = .ok (colorAt s.subject.colors 0) := by
  obtain ⟨color, colors, h⟩ := List.exists_cons_of_ne_nil hcolors
  rw [Setup.firstColor, h, colorAt, List.length_cons, Nat.zero_mod, List.getD_cons_zero]

namespace Compiler

variable {compiler : Compiler α} {table : Table String} {s : Setup α}

/-- The slots of an alternating light are never none. -/
lemma slotCounts_ne_nil {colors : List String} (hcolors : colors ≠ []) (counts : List Nat) :
    slotCounts counts colors ≠ [] := by
  rw [slotCounts]
  split_ifs with hseveral
  · rintro rfl
    simp at hseveral
  · simpa using hcolors

lemma slotCounts_pos {counts : List Nat} (hcounts : ∀ n ∈ counts, 0 < n) (colors : List String) :
    ∀ n ∈ slotCounts counts colors, 0 < n := by
  rw [slotCounts]
  split_ifs
  · exact hcounts
  · intro n hn
    obtain ⟨color, -, rfl⟩ := List.mem_map.mp hn
    exact Nat.one_pos

/-- The counts of a slot that are turned into numbers; a slot with flashes counts its gaps too. -/
def slotConversions (style : SlotStyle) (count : Nat) : List Nat :=
  match style with
  | .flashes => [count, count - 1]
  | .eclipses | .gaps => [count]

/-- The counts of an alternating light that are turned into numbers. -/
def slotsConversions (style : SlotStyle) (slots : List Nat) : List Nat :=
  slots.length :: slots.flatMap (slotConversions style)

/-- The units of a Morse cycle. -/
def cycleUnits (compiler : Compiler α) (table : Table String) (s : Setup α) : Nat :=
  let symbols := codeUnits (Morse.lookup table (sentCharacter compiler s))
  addedUp symbols + symbols.length + trailingUnits

/-- The counts that the rule of a type turns into numbers. -/
def conversions (compiler : Compiler α) (table : Table String) (s : Setup α) :
    Except CompileError (List Nat) :=
  match s.subject.type with
  | .fixed | .directional | .directionalFixed =>
    .ok (if s.isContinuous then [] else [s.subject.colors.length])
  | .flashing | .groupFlashing => (fun _ => []) <$> s.counts
  | .quick | .veryQuick | .ultraQuick =>
    (fun counts => if s.isGrouped && s.period.isSome then [counts.headD 1] else []) <$> s.counts
  | .interruptedQuick =>
    (fun counts => [if s.isGrouped then counts.headD 1 else interruptedFlashes]) <$> s.counts
  | .occulting | .groupOcculting => (fun counts => [addedUp counts + counts.length]) <$> s.counts
  | .alternating | .alternatingFlashing | .alternatingOcculting | .alternatingIsophase =>
    (fun counts => slotsConversions (slotStyle s.subject.type)
      (slotCounts counts s.subject.colors)) <$> s.counts
  | .longFlashing | .isophase | .fixedAndFlashing | .flashingFixed => .ok []
  | .morse => .ok [cycleUnits compiler table s]

/-! ### Rules that can fail -/

section

variable (hcolors : s.subject.colors ≠ [])
include hcolors

omit [Scalar α] in
lemma exists_firstColor : ∃ color, s.firstColor = .ok color := by
  obtain ⟨color, colors, h⟩ := List.exists_cons_of_ne_nil hcolors
  exact ⟨color, by rw [Setup.firstColor, h]⟩

omit [Scalar α] in
/-- After the first colour is taken, only what follows can fail. -/
lemma exists_firstColor_bind_iff {β : Type} {f : String → Except CompileError β} {P : Prop}
    (hf : ∀ color, (∃ c, f color = .ok c) ↔ P) : (∃ c, (s.firstColor >>= f) = .ok c) ↔ P := by
  obtain ⟨color, hcolor⟩ := exists_firstColor hcolors
  simp only [exists_bind_eq_ok_iff, hcolor, Except.ok.injEq, exists_eq_left', hf]

lemma exists_steadyPieces_iff :
    (∃ ps, steadyPieces compiler s = .ok ps) ↔
      (s.isContinuous = false → Converts α s.subject.colors.length) := by
  have hempty : s.subject.colors.isEmpty = false := List.isEmpty_eq_false_iff.mpr hcolors
  rw [steadyPieces, exists_bind_eq_ok_iff]
  simp only [exists_pure_eq_ok, and_true, colorTime, hempty, Bool.false_eq_true, if_false]
  cases s.isContinuous with
  | true => simp
  | false =>
    simp only [Bool.false_eq_true, if_false, forall_const]
    exact exists_countNumber_bind_iff fun _ => exists_pure_eq_ok _

end

/-- A pattern is its groups in a row, with a gap between two of them. -/
lemma patternFrom_eq {colors : List String} (hcolors : colors ≠ []) (base : String) (place : Nat)
    (counts : List Nat) :
    patternFrom base colors place counts =
      .ok ([(⟨false, groupGapWeight, base⟩ : Beat α)].intercalate
        (counts.mapIdx fun i count => groupBeats base (colorAt colors (place + i)) count)) := by
  induction counts generalizing place with
  | nil => rfl
  | cons count counts ih =>
    have hcolor := colorInTurn_eq hcolors place
    cases counts with
    | nil =>
      rw [patternFrom, hcolor, List.mapIdx_cons, List.mapIdx_nil, List.intercalate_singleton]
      rfl
    | cons next counts =>
      rw [patternFrom, hcolor, ih (place + 1)]
      · have hplace (i : Nat) : place + 1 + i = place + (i + 1) := by omega
        simp only [List.mapIdx_cons, List.intercalate_cons_cons, hplace]
        simp [bind, Except.bind, pure, Except.pure]
      · simp

omit [Scalar α] in
lemma groupColors_ne_nil (hcolors : s.subject.colors ≠ []) (counts : List Nat) :
    groupColors s counts ≠ [] := by
  rw [groupColors]
  split_ifs
  · simp
  · exact hcolors

lemma exists_flashingPieces_iff (hcolors : s.subject.colors ≠ []) :
    (∃ ps, flashingPieces s = .ok ps) ↔ ∃ counts, s.counts = .ok counts := by
  rw [flashingPieces, exists_bind_eq_ok_iff]
  refine exists_congr fun counts => and_iff_left ?_
  refine (exists_firstColor_bind_iff hcolors fun base => iff_true_intro ?_).mpr trivial
  have hbeats := patternFrom_eq (α := α) (groupColors_ne_nil hcolors counts) base 0 counts
  exact exists_bind_eq_ok_iff.mpr ⟨_, hbeats, exists_pure_eq_ok _⟩

omit [Scalar α] in
/-- Without a group there is nothing that cannot be read. -/
lemma counts_of_not_isGrouped (h : s.isGrouped = false) : s.counts = .ok [1] := by
  rw [Setup.isGrouped] at h
  split at h
  · rename_i hgroup
    rw [Setup.counts, hgroup]
    rfl
  · rename_i text hgroup
    obtain rfl : text = "" := by simpa using h
    rw [Setup.counts, hgroup]
    rfl

lemma exists_quickBreak_iff {period : Option α} {beat : α} {count : Nat} :
    (∃ pause, quickBreak period beat count = .ok pause) ↔
      (period.isSome = true → Converts α count) := by
  cases period with
  | none => simp [quickBreak]
  | some p =>
    simp only [quickBreak, Option.isSome_some, forall_const]
    exact exists_countNumber_bind_iff fun _ => exists_pure_eq_ok _

lemma exists_quickPieces_iff (hcolors : s.subject.colors ≠ []) :
    (∃ ps, quickPieces s = .ok ps) ↔ ∃ counts, s.counts = .ok counts ∧
      (s.isGrouped = true → s.period.isSome = true → Converts α (counts.headD 1)) := by
  refine exists_firstColor_bind_iff hcolors fun color => ?_
  cases hgrouped : s.isGrouped with
  | false => simp [counts_of_not_isGrouped hgrouped, exists_pure_eq_ok]
  | true =>
    simp only [if_true, exists_bind_eq_ok_iff, exists_pure_eq_ok, and_true, forall_const,
      exists_quickBreak_iff]

lemma exists_interruptedQuickPieces_iff (hcolors : s.subject.colors ≠ []) :
    (∃ ps, interruptedQuickPieces s = .ok ps) ↔ ∃ counts, s.counts = .ok counts ∧
      Converts α (if s.isGrouped then counts.headD 1 else interruptedFlashes) := by
  refine exists_firstColor_bind_iff hcolors fun color => ?_
  rw [exists_bind_eq_ok_iff]
  simp only [exists_countNumber_bind_iff fun _ => exists_pure_eq_ok _, interruptedCount]
  cases hgrouped : s.isGrouped with
  | false => simp [counts_of_not_isGrouped hgrouped]
  | true => simp [map_eq_ok_iff]

lemma exists_occultingPieces_iff (hcolors : s.subject.colors ≠ []) :
    (∃ ps, occultingPieces s = .ok ps) ↔ ∃ counts, s.counts = .ok counts ∧
      Converts α (addedUp counts + counts.length) := by
  refine exists_firstColor_bind_iff hcolors fun color => ?_
  simp only [exists_bind_eq_ok_iff, exists_pure_eq_ok, and_true, exists_countNumber_iff]

lemma exists_styledSlotPieces_iff {style : SlotStyle} {slot : α} {color : String} {count : Nat} :
    (∃ ps, styledSlotPieces style slot color count = .ok ps) ↔
      ∀ n ∈ slotConversions style count, Converts α n := by
  cases style with
  | flashes =>
    simp only [styledSlotPieces, flashSlotPieces, slotConversions, exists_bind_eq_ok_iff,
      exists_pure_eq_ok, and_true, exists_and_right, exists_countNumber_iff, List.forall_mem_cons,
      List.not_mem_nil, IsEmpty.forall_iff, implies_true]
  | eclipses | gaps =>
    simp only [slotConversions, List.forall_mem_singleton]
    exact exists_countNumber_bind_iff fun _ => exists_pure_eq_ok _

lemma exists_slotPiecesFrom_iff {style : SlotStyle} {slot : α} {colors : List String}
    (hcolors : colors ≠ []) (place : Nat) (counts : List Nat) :
    (∃ ps, slotPiecesFrom style slot colors place counts = .ok ps) ↔
      ∀ n ∈ counts.flatMap (slotConversions style), Converts α n := by
  induction counts generalizing place with
  | nil => simp [slotPiecesFrom]
  | cons count counts ih =>
    simp only [slotPiecesFrom, exists_bind_eq_ok_iff, colorInTurn_eq hcolors place,
      Except.ok.injEq, exists_eq_left', exists_pure_eq_ok, and_true, exists_and_right, ih,
      exists_styledSlotPieces_iff, List.flatMap_cons, List.forall_mem_append]

lemma exists_alternatingPieces_iff (hcolors : s.subject.colors ≠ []) :
    (∃ ps, alternatingPieces s = .ok ps) ↔ ∃ counts, s.counts = .ok counts ∧
      ∀ n ∈ slotsConversions (slotStyle s.subject.type) (slotCounts counts s.subject.colors),
        Converts α n := by
  rw [alternatingPieces, exists_bind_eq_ok_iff]
  refine exists_congr fun counts => and_congr_right fun _ => ?_
  have hslots : (slotCounts counts s.subject.colors).isEmpty = false :=
    List.isEmpty_eq_false_iff.mpr (slotCounts_ne_nil hcolors counts)
  simp only [hslots, Bool.false_eq_true, if_false, exists_bind_eq_ok_iff,
    exists_slotPiecesFrom_iff hcolors, exists_and_right, exists_countNumber_iff,
    slotsConversions, List.forall_mem_cons]

lemma exists_morsePieces_iff (hcolors : s.subject.colors ≠ []) :
    (∃ ps, morsePieces compiler table s = .ok ps) ↔ Converts α (cycleUnits compiler table s) := by
  refine exists_firstColor_bind_iff hcolors fun color => ?_
  exact exists_countNumber_bind_iff fun _ => exists_pure_eq_ok _

/-! ### Every rule -/

/-- **When a rule gives its pieces.**  A light with a colour has pieces exactly if the counts of its
group can be read, where its rule reads them, and those that the rule turns into numbers are
numbers. -/
theorem exists_pieces_iff (hcolors : s.subject.colors ≠ []) :
    (∃ ps, pieces compiler table s = .ok ps) ↔
      ∃ ns, conversions compiler table s = .ok ns ∧ ∀ n ∈ ns, Converts α n := by
  cases htype : s.subject.type <;>
    simp only [pieces, conversions, htype, exists_map_eq_ok_and_iff, Except.ok.injEq,
      exists_eq_left', List.forall_mem_singleton, List.not_mem_nil, IsEmpty.forall_iff,
      implies_true, and_true, iff_true]
  case fixed | directional | directionalFixed =>
    rw [exists_steadyPieces_iff hcolors]
    cases s.isContinuous <;> simp
  case flashing | groupFlashing => exact exists_flashingPieces_iff hcolors
  case quick | veryQuick | ultraQuick =>
    rw [exists_quickPieces_iff hcolors]
    cases s.isGrouped <;> cases s.period.isSome <;> simp
  case interruptedQuick => exact exists_interruptedQuickPieces_iff hcolors
  case occulting | groupOcculting => exact exists_occultingPieces_iff hcolors
  case alternating | alternatingFlashing | alternatingOcculting | alternatingIsophase =>
    simpa only [htype] using exists_alternatingPieces_iff hcolors
  -- these rules only take the first colour
  case longFlashing | isophase | fixedAndFlashing | flashingFixed =>
    refine (exists_firstColor_bind_iff hcolors fun _ => iff_true_intro ?_).mpr trivial
    exact exists_pure_eq_ok _
  case morse => exact exists_morsePieces_iff hcolors

lemma exists_applyRule_iff (hcolors : s.subject.colors ≠ []) :
    (∃ ts, applyRule compiler table s = .ok ts) ↔
      ∃ ns, conversions compiler table s = .ok ns ∧ ∀ n ∈ ns, Converts α n := by
  by_cases hmorse : s.subject.type = .morse
  · simp only [applyRule, conversions, hmorse, Except.ok.injEq, exists_eq_left',
      List.forall_mem_singleton]
    refine exists_firstColor_bind_iff hcolors fun color => ?_
    exact exists_countNumber_bind_iff fun _ => exists_pure_eq_ok _
  · rw [applyRule_eq_shown hmorse, ← exists_pieces_iff hcolors]
    simpa using exists_map_eq_ok_and_iff (x := pieces compiler table s) (f := shown)
      (P := fun _ => True)

/-! ### Groups that cannot be read -/

end Compiler

/-- The rule of the type reads the counts of the group. -/
def LightType.readsCounts : LightType → Bool
  | fixed | directional | directionalFixed | longFlashing | isophase | fixedAndFlashing
  | flashingFixed | morse => false
  | _ => true

namespace Compiler

variable {compiler : Compiler α} {table shared : Table String} {s : Setup α} {c : Characteristic α}

/-- A rule that reads the counts of a group fails with the reason for which they cannot be read. -/
lemma pieces_of_counts_eq_error (hcolors : s.subject.colors ≠ [])
    (hreads : s.subject.type.readsCounts = true) {e : CompileError} (h : s.counts = .error e) :
    pieces compiler table s = .error e := by
  obtain ⟨color, hcolor⟩ := exists_firstColor hcolors
  have hgrouped : s.isGrouped = true := by
    by_contra hnot
    rw [counts_of_not_isGrouped (Bool.eq_false_iff.mpr hnot)] at h
    cases h
  cases htype : s.subject.type <;> rw [htype] at hreads
  case fixed | directional | directionalFixed | longFlashing | isophase | fixedAndFlashing
      | flashingFixed | morse => cases hreads
  all_goals simp only [pieces, htype]
  case flashing | groupFlashing =>
    rw [flashingPieces, h]
    rfl
  case quick | veryQuick | ultraQuick =>
    rw [quickPieces, hcolor, h, hgrouped]
    rfl
  case interruptedQuick =>
    rw [interruptedQuickPieces, interruptedCount, hcolor, h, hgrouped]
    rfl
  case occulting | groupOcculting =>
    rw [occultingPieces, hcolor, h]
    rfl
  case alternating | alternatingFlashing | alternatingOcculting | alternatingIsophase =>
    rw [alternatingPieces, h]
    rfl

/-- Counts that can be read are all that a rule needs to list what it turns into numbers. -/
lemma exists_conversions
    (h : s.subject.type.readsCounts = true → ∃ counts, s.counts = .ok counts) :
    ∃ ns, conversions compiler table s = .ok ns := by
  cases htype : s.subject.type <;> rw [htype] at h <;> simp only [conversions, htype]
  case fixed | directional | directionalFixed | longFlashing | isophase | fixedAndFlashing
      | flashingFixed | morse => exact ⟨_, rfl⟩
  all_goals
    obtain ⟨counts, hcounts⟩ := h rfl
    rw [hcounts]
    exact ⟨_, rfl⟩

/-- A compiler with a rule for the type applies it. -/
lemma compile_eq_applyRule (shared : Table String) (hrule : c.type ∉ compiler.withoutRule) :
    compiler.compile shared (some c) =
      applyRule compiler (compiler.tableWith shared) (Setup.of compiler c) := by
  simp only [compile, hrule, if_false]

/-- Unless it sends Morse symbols, what is shown of a light is what its rule asks for. -/
lemma compile_eq_shown (shared : Table String) (hrule : c.type ∉ compiler.withoutRule)
    (hmorse : c.type ≠ .morse) :
    compiler.compile shared (some c) =
      shown <$> pieces compiler (compiler.tableWith shared) (Setup.of compiler c) := by
  rw [compile_eq_applyRule shared hrule]
  exact applyRule_eq_shown hmorse

/-- A light whose rule reads the counts of a group that cannot be read has no timeline. -/
lemma compile_eq_error_of_counts (hrule : c.type ∉ compiler.withoutRule) (hcolors : c.colors ≠ [])
    (hreads : c.type.readsCounts = true) {e : TooManyDigits} (h : Group.counts c.group = .error e) :
    compiler.compile shared (some c) = .error (.tooManyDigits e) := by
  have hcounts : (Setup.of compiler c).counts = .error (.tooManyDigits e) := by
    rw [Setup.counts, Setup.of, h]
  have hmorse : c.type ≠ .morse := by
    intro hmorse
    rw [hmorse] at hreads
    cases hreads
  rw [compile_eq_shown shared hrule hmorse, pieces_of_counts_eq_error hcolors hreads hcounts]
  rfl

/-- For a compiler with all its rules, the type does not matter. -/
lemma compile_of_counts_eq_error (hrules : compiler.withoutRule = []) (hcolors : c.colors ≠ [])
    (hreads : c.type.readsCounts = true) {e : TooManyDigits} (h : Group.counts c.group = .error e) :
    compiler.compile shared (some c) = .error (.tooManyDigits e) :=
  compile_eq_error_of_counts (by simp [hrules]) hcolors hreads h

/-- A text that is read is compiled by the rule of its type. -/
lemma compileText_of_read? {text : String} {c : Characteristic Float}
    (hread : Characteristic.read? text = some c) (shared : Table String) :
    Compiler.standard.compileText shared text =
      applyRule Compiler.standard shared (Setup.of Compiler.standard c) := by
  rw [compileText, hread]
  rfl

end Compiler

end Seamark
