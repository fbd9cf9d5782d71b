import Seamark.Config
import Seamark.Proofs.Document.Defects

/-!
# What is wrong with a configuration

The settings are read in a fixed order, each on its own, so the defects of a configuration are those
of its settings one after the other, and reading it fails for the first.  A setting that is left out
has no defect, for what stands in its place is well-formed.
-/

namespace Seamark.Config

open Value

/-- What is wrong with the values of some entries and with their keys, which are taken as texts. -/
def entryDefects (entries : List (Value × Value)) : List ConfigError :=
  entries.flatMap fun entry => (entry.1.textDefects ++ entry.2.textDefects).map .conversion

/-- What is wrong with the table under a key. -/
def tableDefects (fields : List (Value × Value)) (key : String) : List ConfigError :=
  match (field fields key).given? with
  | none => []
  | some v =>
    match v.entries? with
    | some entries => entryDefects entries
    | none => [.entriesNotAMapping]

/-- What is wrong with the value under a key, by what is wrong with a value of its kind. -/
def settingDefects (ofValue : Value → List ConversionError) (fields : List (Value × Value))
    (key : String) : List ConfigError :=
  ((field? fields key).elim [] ofValue).map .conversion

/-- What is wrong with the settings of a map, in the order in which they are read. -/
def fieldDefects (fields : List (Value × Value)) : List ConfigError :=
  tableDefects fields "colors" ++ (tableDefects fields "morse"
    ++ (settingDefects numberDefects fields "fallback_period"
    ++ (settingDefects numberDefects fields "continuous_dwell"
    ++ settingDefects textDefects fields "default_morse_char")))

/-- What is wrong with the document of a configuration.  A document that counts as nothing given is
the standard configuration. -/
def defects (file : String) (document : Value) : List ConfigError :=
  match document.given? with
  | none => []
  | some v =>
    match v.entries? with
    | some fields => fieldDefects fields
    | none => [.notAMapping file]

lemma text_eq (v : Value) : text v = v.toText.mapError .conversion := by
  rw [text]
  cases v.toText <;> rfl

lemma number_eq (v : Value) : number v = v.toFloat.mapError .conversion := by
  rw [number]
  cases v.toFloat <;> rfl

lemma failsFirst_text (v : Value) : FailsFirst (text v) (v.textDefects.map .conversion) := by
  rw [text_eq]
  exact (failsFirst_toText v).mapError _

lemma failsFirst_number (v : Value) : FailsFirst (number v) (v.numberDefects.map .conversion) := by
  rw [number_eq]
  exact (failsFirst_toFloat v).mapError _

lemma failsFirst_textEntries (entries : List (Value × Value)) :
    FailsFirst (textEntries entries) (entryDefects entries) := by
  induction entries with
  | nil => exact .ok []
  | cons entry rest ih =>
    rw [entryDefects, List.flatMap_cons, List.map_append, List.append_assoc]
    exact (failsFirst_text entry.1).bind fun _ _ =>
      (failsFirst_text entry.2).bind fun _ _ => ih.bind_ok

lemma failsFirst_tableField (fields : List (Value × Value)) (key : String) :
    FailsFirst (tableField fields key) (tableDefects fields key) := by
  rw [tableField, tableDefects]
  cases (field fields key).given? with
  | none => exact .ok _
  | some v =>
    dsimp only
    cases v.entries? with
    | none => exact .error _ []
    | some entries => exact (failsFirst_textEntries entries).bind_ok

lemma failsFirst_numberSetting (fields : List (Value × Value)) (key : String) (standard : Float) :
    FailsFirst (number ((field? fields key).getD (.float standard)))
      (settingDefects numberDefects fields key) := by
  rw [settingDefects]
  cases field? fields key with
  | none => exact .ok standard
  | some v => exact failsFirst_number v

lemma failsFirst_textSetting (fields : List (Value × Value)) (key standard : String) :
    FailsFirst (text ((field? fields key).getD (.text standard)))
      (settingDefects textDefects fields key) := by
  rw [settingDefects]
  cases field? fields key with
  | none => exact .ok standard
  | some v => exact failsFirst_text v

lemma failsFirst_ofFields (fields : List (Value × Value)) :
    FailsFirst (ofFields fields) (fieldDefects fields) :=
  (failsFirst_tableField fields "colors").bind fun _ _ =>
    (failsFirst_tableField fields "morse").bind fun _ _ =>
      (failsFirst_numberSetting fields "fallback_period" _).bind fun _ _ =>
        (failsFirst_numberSetting fields "continuous_dwell" _).bind fun _ _ =>
          (failsFirst_textSetting fields "default_morse_char" _).bind_ok

/-- Reading a configuration fails for the first thing that is wrong with its document, and succeeds
if nothing is. -/
theorem failsFirst_read (file : String) (document : Value) :
    FailsFirst (read file document) (defects file document) := by
  rw [read, defects]
  cases document.given? with
  | none => exact .ok _
  | some v =>
    dsimp only
    cases v.entries? with
    | none => exact .error _ []
    | some fields => exact failsFirst_ofFields fields

end Seamark.Config
