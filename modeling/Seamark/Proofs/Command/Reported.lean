import Seamark.Proofs.Command.Troubles

/-!
# Documents that leave nothing unreported

A defect of a document is reported if it is a text that denotes no number, something that is
missing, or an integer with too many digits to be written.  What is left unreported are things of a
wrong kind in places where the kind is not looked at, and integers beyond every double.  So the
documents without an unreported defect are told by the kinds of what they hold
(`Config.reported_iff`, `Catalog.reported_iff`), and a command without an unreported trouble ends
with a status (`run_status`).
-/

namespace Seamark

open Value

namespace Value

/-- The value is of a kind that numbers are read from, and is no integer beyond every double. -/
def IsNumeral : Value → Prop
  | bool _ | float _ | text _ => True
  | int n => (floatOfInt? n).isSome
  | _ => False

lemma reported_numberDefects_iff (v : Value) :
    (∀ e ∈ v.numberDefects, e.isReported = true) ↔ v.IsNumeral := by
  cases v with
  | int n =>
    rw [numberDefects, IsNumeral]
    split_ifs with h <;> simp [h, ConversionError.isReported]
  | text s =>
    rw [numberDefects]
    split_ifs <;> simp [IsNumeral, ConversionError.isReported]
  | _ => simp [numberDefects, IsNumeral, ConversionError.isReported]

lemma reported_textDefects (v : Value) : ∀ e ∈ v.textDefects, e.isReported = true := by
  intro e he
  obtain ⟨n, -, hn⟩ := List.mem_flatMap.mp he
  split_ifs at hn
  · rw [List.mem_singleton.mp hn]
    rfl
  · cases hn

end Value

namespace Config

/-- The tables of a configuration are maps, and its times are numerals. -/
structure IsRegular (fields : List (Value × Value)) : Prop where
  /-- What is given as the colours or the Morse codes is a map. -/
  tables : ∀ key ∈ ["colors", "morse"], ∀ v, (field fields key).given? = some v →
    v.entries?.isSome
  /-- A time is a numeral. -/
  times : ∀ key ∈ ["fallback_period", "continuous_dwell"], ∀ v, field? fields key = some v →
    v.IsNumeral

lemma reported_tableDefects_iff (fields : List (Value × Value)) (key : String) :
    (∀ e ∈ tableDefects fields key, e.isReported = true) ↔
      ∀ v, (field fields key).given? = some v → v.entries?.isSome := by
  rw [tableDefects]
  cases (field fields key).given? with
  | none => simp
  | some v =>
    cases hentries : v.entries? with
    | none => simp [hentries, ConfigError.isReported]
    | some entries =>
      simp only [hentries, Option.some.injEq, forall_eq', Option.isSome_some, iff_true]
      intro e he
      obtain ⟨entry, -, hentry⟩ := List.mem_flatMap.mp he
      obtain ⟨cause, hcause, rfl⟩ := List.mem_map.mp hentry
      rcases List.mem_append.mp hcause with hkey | hvalue
      · exact reported_textDefects _ _ hkey
      · exact reported_textDefects _ _ hvalue

lemma reported_timeDefects_iff (fields : List (Value × Value)) (key : String) :
    (∀ e ∈ settingDefects numberDefects fields key, e.isReported = true) ↔
      ∀ v, field? fields key = some v → v.IsNumeral := by
  rw [settingDefects]
  cases field? fields key with
  | none => simp
  | some v => simpa [ConfigError.isReported] using reported_numberDefects_iff v

lemma reported_textSettingDefects (fields : List (Value × Value)) (key : String) :
    ∀ e ∈ settingDefects textDefects fields key, e.isReported = true := by
  rw [settingDefects]
  cases field? fields key with
  | none => simp
  | some v => simpa [ConfigError.isReported] using reported_textDefects v

/-- A document has no unreported defect as a configuration exactly if it is no map, or a regular
one. -/
theorem reported_iff (file : String) (document : Value) :
    (∀ e ∈ defects file document, e.isReported = true) ↔
      ∀ fields, document.given?.bind entries? = some fields → IsRegular fields := by
  rw [defects]
  cases document.given? with
  | none => simp
  | some v =>
    cases hentries : v.entries? with
    | none => simp [hentries, ConfigError.isReported]
    | some fields =>
      simp only [hentries, fieldDefects, List.forall_mem_append, reported_tableDefects_iff,
        reported_timeDefects_iff, Option.bind_some, Option.some.injEq, forall_eq']
      constructor
      · rintro ⟨hcolors, hmorse, hfallback, hdwell, -⟩
        exact ⟨by simpa using ⟨hcolors, hmorse⟩, by simpa using ⟨hfallback, hdwell⟩⟩
      · rintro ⟨htables, htimes⟩
        exact ⟨htables _ (by simp), htables _ (by simp), htimes _ (by simp), htimes _ (by simp),
          reported_textSettingDefects fields _⟩

end Config

namespace Catalog

/-- An arc is of such a kind that it is read, or has no start or no end. -/
def IsRegularArc (v : Value) : Prop :=
  ∀ start finish, field? (v.entries?.getD []) "start" = some start →
    field? (v.entries?.getD []) "end" = some finish → start.IsNumeral ∧ finish.IsNumeral

/-- The position of a placed entry is in numerals, and its arcs are a list of regular ones. -/
structure IsRegularEntry (fields : List (Value × Value)) : Prop where
  /-- The latitude is a numeral. -/
  lat : (field fields "lat").IsNumeral
  /-- The longitude is a numeral. -/
  lon : (field fields "lon").IsNumeral
  /-- What is given as the arcs can be gone through, and each of them is regular. -/
  arcs : ∀ v, (field fields "arcs").given? = some v →
    ∃ items, v.elements? = some items ∧ ∀ arc ∈ items, IsRegularArc arc

lemma reported_boundsDefect (entry : Nat) (name : Value) :
    (boundsDefect entry name).isReported = true := by
  have hname := failsFirst_toText name
  have hreported := reported_textDefects name
  rw [boundsDefect]
  generalize name.toText = read at hname ⊢
  generalize name.textDefects = defects at hname hreported
  cases hname with
  | ok s => rfl
  | error cause more => exact hreported cause List.mem_cons_self

lemma reported_conversions_iff (causes : List ConversionError) :
    (∀ e ∈ causes.map CatalogError.conversion, e.isReported = true) ↔
      ∀ cause ∈ causes, cause.isReported = true :=
  List.forall_mem_map

lemma reported_textFieldDefects (v? : Option Value) :
    ∀ e ∈ v?.elim [] textDefects, e.isReported = true := by
  cases v? with
  | none => simp
  | some v => exact reported_textDefects v

lemma reported_arcDefects_iff (entry : Nat) (name v : Value) :
    (∀ e ∈ arcDefects entry name v, e.isReported = true) ↔ IsRegularArc v := by
  rw [arcDefects, IsRegularArc]
  cases field? (v.entries?.getD []) "start" with
  | none => simp [reported_boundsDefect]
  | some start =>
    cases field? (v.entries?.getD []) "end" with
    | none => simp [reported_boundsDefect]
    | some finish =>
      simp only [List.forall_mem_append, reported_conversions_iff, reported_numberDefects_iff]
      constructor
      · rintro ⟨hstart, hfinish, -⟩ _ _ ⟨⟩ ⟨⟩
        exact ⟨hstart, hfinish⟩
      · intro hnumerals
        obtain ⟨hstart, hfinish⟩ := hnumerals start finish rfl rfl
        exact ⟨hstart, hfinish, reported_textFieldDefects _⟩

lemma reported_arcsDefects_iff (entry : Nat) (fields : List (Value × Value)) :
    (∀ e ∈ arcsDefects entry fields, e.isReported = true) ↔
      ∀ v, (field fields "arcs").given? = some v →
        ∃ items, v.elements? = some items ∧ ∀ arc ∈ items, IsRegularArc arc := by
  rw [arcsDefects]
  cases (field fields "arcs").given? with
  | none => simp
  | some v =>
    cases helements : v.elements? with
    | none => simp [helements, CatalogError.isReported]
    | some items =>
      simp only [helements, Option.some.injEq, forall_eq', exists_eq_left',
        List.forall_mem_flatMap, reported_arcDefects_iff]

lemma reported_missingDefects (entry : Nat) (fields : List (Value × Value)) (key : String) :
    ∀ e ∈ missingDefects entry fields key, e.isReported = true := by
  rw [missingDefects]
  split_ifs <;> simp [CatalogError.isReported]

lemma reported_placedDefects_iff (entry : Nat) (fields : List (Value × Value)) :
    (∀ e ∈ placedDefects entry fields, e.isReported = true) ↔ IsRegularEntry fields := by
  simp only [placedDefects, List.forall_mem_append, reported_conversions_iff,
    reported_numberDefects_iff, reported_arcsDefects_iff]
  constructor
  · rintro ⟨-, -, harcs, -, hlat, hlon, -⟩
    exact ⟨hlat, hlon, harcs⟩
  · rintro ⟨hlat, hlon, harcs⟩
    exact ⟨reported_missingDefects _ _ _, reported_missingDefects _ _ _, harcs,
      reported_textDefects _, hlat, hlon, reported_textDefects _⟩

lemma reported_entryDefects_iff (entry : Nat) (v : Value) :
    (∀ e ∈ entryDefects entry v, e.isReported = true) ↔
      ∀ fields, v.entries? = some fields → isPlaced fields = true → IsRegularEntry fields := by
  rw [entryDefects]
  cases v.entries? with
  | none => simp [CatalogError.isReported]
  | some fields =>
    dsimp only
    split_ifs with hplaced
    · simp [hplaced, reported_placedDefects_iff]
    · rw [reported_conversions_iff]
      exact iff_of_true (reported_textFieldDefects _) fun _ hfields hgiven =>
        absurd (Option.some.inj hfields ▸ hgiven) hplaced

/-- A document has no unreported defect as a catalogue exactly if its entries can be gone through
and every placed one is regular. -/
theorem reported_iff (document : Value) :
    (∀ e ∈ defects document, e.isReported = true) ↔
      ∃ items, (entriesValue document).elements? = some items ∧
        ∀ v ∈ items, ∀ fields, v.entries? = some fields → isPlaced fields = true →
          IsRegularEntry fields := by
  rw [defects]
  cases (entriesValue document).elements? with
  | none => simp [CatalogError.isReported]
  | some items =>
    simp only [List.forall_mem_flatMap, reported_entryDefects_iff, Option.some.injEq,
      exists_eq_left']
    constructor
    · intro hitems v hv
      obtain ⟨i, hi, rfl⟩ := List.getElem_of_mem hv
      exact hitems (items[i], i) (List.mk_mem_zipIdx_iff_getElem?.mpr (by simp))
    · intro hitems item hitem
      exact hitems _ (List.fst_mem_of_mem_zipIdx hitem)

end Catalog

namespace Command

/-- A command with nothing unreported in its files ends with a status, by whether anything is wrong
with them. -/
theorem run_status {line : List String} {args : Arguments} (fetch : Fetch Id)
    (interruption : Option Float) (clock : Clock Float) (hline : Arguments.read line = .ok args)
    (hplay : args.play = none) (htask : IsTask fetch args)
    (hreported : ∀ trouble ∈ troubles fetch args, trouble.isReported = true) :
    (run fetch interruption line clock).run.ending =
      .status (if troubles fetch args = [] then 0 else 1) := by
  have hends := run_endsBy hline hplay htask interruption clock
  generalize (run fetch interruption line clock).run = outcome at hends ⊢
  generalize troubles fetch args = list at hends hreported ⊢
  cases hends with
  | completed lines => rfl
  | troubled lines trouble more =>
    rw [Outcome.ending_troubled, if_pos (hreported trouble List.mem_cons_self)]
    rfl

end Command

end Seamark
