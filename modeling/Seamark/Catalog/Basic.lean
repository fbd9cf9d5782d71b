import Seamark.Catalog.Range

/-!
# Catalogued lights

A light in a catalogue has a name, a position, a characteristic in chart notation, perhaps a range,
and perhaps arcs of bearings from which it is seen in some colour.
-/

namespace Seamark

/-- A sector from which a light is seen. -/
structure Arc where
  /-- The bearing where the sector starts, in degrees. -/
  start : Float
  /-- The bearing where the sector ends, in degrees. -/
  finish : Float
  /-- The colour token seen in the sector. -/
  color : String := "W"

/-- A light in a catalogue. -/
structure Lighthouse where
  /-- The name. -/
  name : String
  /-- The latitude in degrees. -/
  lat : Float
  /-- The longitude in degrees. -/
  lon : Float
  /-- The characteristic in chart notation. -/
  code : String
  /-- The nominal range as the catalogue gives it. -/
  range : Value := .null
  /-- The sectors. -/
  arcs : List Arc := []

/-- Why a catalogue cannot be used. -/
inductive CatalogError where
  /-- The document holds nothing that could be gone through. -/
  | notAList
  /-- An entry is not a map. -/
  | notAMapping (entry : Nat)
  /-- An entry lacks its name or its code. -/
  | missing (entry : Nat) (key : String)
  /-- The arcs of an entry cannot be gone through. -/
  | arcsNotAList
  /-- An arc is not a map with a start and an end. -/
  | arcWithoutBounds (entry : Nat) (name : String)
  /-- A value is not the number or text that is asked for. -/
  | conversion (cause : ConversionError)
deriving DecidableEq, Repr

/-- The text of an error. -/
def CatalogError.message : CatalogError → String
  | notAList => "the catalog is not a list"
  | notAMapping entry => "Catalog entry " ++ toString entry ++ " is not a mapping"
  | missing entry key => "Catalog entry " ++ toString entry ++ " is missing '" ++ key ++ "'"
  | arcsNotAList => "the arcs are not a list"
  | arcWithoutBounds entry name =>
    "Catalog entry " ++ toString entry ++ " (" ++ name ++ ") has an arc without start/end"
  | conversion cause => cause.message

end Seamark
