import Seamark.Color.Token
import Seamark.Compiler.Basic
import Seamark.Document.Printer

/-!
# Configuration

A configuration overrides the colours of tokens and the Morse table, sets the times that a compiler
falls back on, and may name a catalogue. It is read from a map and written as one.
-/

namespace Seamark

/-- The settings of the program. -/
structure Config where
  /-- Renderable values that override those of the built-in table. -/
  colors : Table String := {}
  /-- Codes that override those of the Morse table. -/
  morse : Table String := {}
  /-- The length of a cycle when a characteristic gives no period. -/
  fallbackPeriod : Float := 10.0
  /-- How long a steady light without a period stays in each of its colours. -/
  dwell : Float := 3.0
  /-- The Morse character sent when a characteristic names none. -/
  defaultCharacter : String := "A"
  /-- The file that holds the catalogue. -/
  catalog : Value := .null

/-- Why a document is no configuration. -/
inductive ConfigError where
  /-- The document is not a map. -/
  | notAMapping (file : String)
  /-- The colours or the Morse codes are not a map. -/
  | entriesNotAMapping
  /-- A value is not the number or text that is asked for. -/
  | conversion (cause : ConversionError)
deriving DecidableEq, Repr

/-- The text of an error. -/
def ConfigError.message : ConfigError → String
  | notAMapping file => "Config must be a mapping: " ++ file
  | entriesNotAMapping => "the entries are not a mapping"
  | conversion cause => cause.message

namespace Config

/-- The table of renderable values, the configured ones over the built-in ones. -/
def colorTable (c : Config) : Table String :=
  Color.builtin.update c.colors

/-- A configuration with the built-in colours spelled out. -/
def withDefaults : Config := { colors := Color.builtin }

/-- A value as a text. -/
def text (v : Value) : Except ConfigError String :=
  match v.toText with
  | .ok s => .ok s
  | .error cause => .error (.conversion cause)

/-- A value as a double. -/
def number (v : Value) : Except ConfigError Float :=
  match v.toFloat with
  | .ok x => .ok x
  | .error cause => .error (.conversion cause)

/-- Entries with their keys and values as texts. -/
def textEntries : List (Value × Value) → Except ConfigError (List (String × String))
  | [] => .ok []
  | (k, v) :: rest => do
    let key ← text k
    let value ← text v
    return (key, value) :: (← textEntries rest)

/-- The table under a key; empty if nothing is given there. -/
def tableField (fields : List (Value × Value)) (key : String) : Except ConfigError (Table String) :=
  match (Value.field fields key).given? with
  | none => .ok {}
  | some v =>
    match v.entries? with
    | some entries => do return Table.ofList (← textEntries entries)
    | none => .error .entriesNotAMapping

/-- Reads the settings of a map. -/
def ofFields (fields : List (Value × Value)) : Except ConfigError Config := do
  let standard : Config := {}
  return {
    colors := ← tableField fields "colors"
    morse := ← tableField fields "morse"
    fallbackPeriod := ← number
      ((Value.field? fields "fallback_period").getD (.float standard.fallbackPeriod))
    dwell := ← number ((Value.field? fields "continuous_dwell").getD (.float standard.dwell))
    defaultCharacter := ← text
      ((Value.field? fields "default_morse_char").getD (.text standard.defaultCharacter))
    catalog := Value.field fields "catalog" }

/-- Reads the configuration of the document in a file. -/
def read (file : String) (document : Value) : Except ConfigError Config :=
  match document.given? with
  | none => .ok {}
  | some v =>
    match v.entries? with
    | some fields => ofFields fields
    | none => .error (.notAMapping file)

/-- The value of a table of texts. -/
def tableValue (t : Table String) : Value :=
  .map (t.entries.map fun entry => (.text entry.1, .text entry.2))

/-- The entries of the document of a configuration. A catalogue that counts as not given is left
out. -/
def toEntries (c : Config) : List (Value × Value) :=
  let settings : List (Value × Value) :=
    [(.text "colors", tableValue c.colors), (.text "morse", tableValue c.morse),
      (.text "fallback_period", .float c.fallbackPeriod), (.text "continuous_dwell", .float c.dwell),
      (.text "default_morse_char", .text c.defaultCharacter)]
  settings ++ if c.catalog.isNothing then [] else [(.text "catalog", c.catalog)]

/-- The document of a configuration. -/
def toValue (c : Config) : Value :=
  .map c.toEntries

/-- The text of a configuration; letters beyond the plain alphabet are escaped. -/
def render (c : Config) : String :=
  Document.render false c.toEntries

/-- Two configurations are equal: tables entry by entry in any order. -/
def same (c d : Config) : Bool :=
  (tableValue c.colors).same (tableValue d.colors) && (tableValue c.morse).same (tableValue d.morse)
    && c.fallbackPeriod == d.fallbackPeriod && c.dwell == d.dwell
    && c.defaultCharacter == d.defaultCharacter && c.catalog.same d.catalog

/-- A compiler with the settings of a configuration: its Morse table is the shared one as it is now,
with the configured codes over it. -/
def compiler (c : Config) (shared : Table String) : Compiler Float where
  table := some (shared.update c.morse)
  fallbackPeriod := c.fallbackPeriod
  dwell := c.dwell
  defaultCharacter := c.defaultCharacter

end Config

end Seamark
