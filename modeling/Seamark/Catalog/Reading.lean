import Seamark.Catalog.Basic

/-!
# Reading a catalogue

A catalogue is a list of entries, at the top of a document or under the key `lighthouses`. Entries
are read in order. An entry without a numeric position cannot be placed and is passed over with a
warning; the first entry that is not a map, or is placed and lacks something, ends the reading.
-/

namespace Seamark.Catalog

/-- What reading a catalogue comes to: the warnings on the way, and the lights or the cause why there
are none. -/
structure Outcome where
  /-- The warnings, in order. -/
  warnings : List String
  /-- The lights in the order of the document. -/
  result : Except CatalogError (List Lighthouse)

/-- A value as a double. -/
def number (v : Value) : Except CatalogError Float :=
  match v.toFloat with
  | .ok x => .ok x
  | .error cause => .error (.conversion cause)

/-- A value as a text. -/
def text (v : Value) : Except CatalogError String :=
  match v.toText with
  | .ok s => .ok s
  | .error cause => .error (.conversion cause)

/-- An arc of the entry with a position and a name. -/
def readArc (entry : Nat) (name v : Value) : Except CatalogError Arc := do
  let fields := v.entries?.getD []
  match Value.field? fields "start", Value.field? fields "end" with
  | some start, some finish =>
    return {
      start := ← number start
      finish := ← number finish
      color := ← text ((Value.field? fields "color").getD (.text "W")) }
  | _, _ => throw (.arcWithoutBounds entry (← text name))

/-- The arcs of an entry, in order. -/
def readArcs (entry : Nat) (name : Value) : List Value → Except CatalogError (List Arc)
  | [] => .ok []
  | v :: vs => do
    let arc ← readArc entry name v
    return arc :: (← readArcs entry name vs)

/-- The values under a key that are to be gone through. -/
def arcValues (fields : List (Value × Value)) : Except CatalogError (List Value) :=
  match (Value.field fields "arcs").given? with
  | none => .ok []
  | some v =>
    match v.elements? with
    | some items => .ok items
    | none => .error .arcsNotAList

/-- A placed entry. -/
def readEntry (entry : Nat) (fields : List (Value × Value)) : Except CatalogError Lighthouse := do
  let name := Value.field fields "name"
  let code := Value.field fields "code"
  if name.isNothing then throw (.missing entry "name")
  if code.isNothing then throw (.missing entry "code")
  let arcs ← readArcs entry name (← arcValues fields)
  return {
    name := ← text name
    lat := ← number (Value.field fields "lat")
    lon := ← number (Value.field fields "lon")
    code := ← text code
    range := Value.field fields "range"
    arcs := arcs }

/-- The entry has a position. -/
def isPlaced (fields : List (Value × Value)) : Bool :=
  (Value.field fields "lat").isNumber && (Value.field fields "lon").isNumber

/-- The warning for an entry without a position. -/
def skipWarning (entry : Nat) (fields : List (Value × Value)) : Except CatalogError String := do
  let name ← match Value.field? fields "name" with
    | some name => text name
    | none => .ok ("entry " ++ toString entry)
  return "[CATALOG] Warning: skipping " ++ name ++ ": no position"

/-- The entries from a position on. -/
def readFrom (entry : Nat) : List Value → Outcome
  | [] => ⟨[], .ok []⟩
  | v :: rest =>
    match v.entries? with
    | none => ⟨[], .error (.notAMapping entry)⟩
    | some fields =>
      if isPlaced fields then
        match readEntry entry fields with
        | .error e => ⟨[], .error e⟩
        | .ok light =>
          let others := readFrom (entry + 1) rest
          ⟨others.warnings, others.result.map (light :: ·)⟩
      else
        match skipWarning entry fields with
        | .error e => ⟨[], .error e⟩
        | .ok warning =>
          let others := readFrom (entry + 1) rest
          ⟨warning :: others.warnings, others.result⟩

/-- The value that holds the entries of a document. -/
def entriesValue (document : Value) : Value :=
  match document.given? with
  | none => .list []
  | some v =>
    match v.entries? with
    | some fields => ((Value.field fields "lighthouses").given?).getD (.list [])
    | none => v

/-- Reads the catalogue of a document. -/
def read (document : Value) : Outcome :=
  match (entriesValue document).elements? with
  | some items => readFrom 0 items
  | none => ⟨[], .error .notAList⟩

end Seamark.Catalog
