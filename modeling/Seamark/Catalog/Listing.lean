import Seamark.Catalog.Basic
import Seamark.Color.Token
import Seamark.Compiler.Compile
import Seamark.Text.Padding

/-!
# Listing a catalogue

A listing has a line for every light: its name, its notation, the colour of its marker, the length of
its cycle and its range in kilometres. A light that cannot be compiled, or whose range cannot be read,
ends the listing.
-/

namespace Seamark.Catalog

/-- Why a light cannot be listed. -/
inductive ListingError where
  /-- The light has no timeline. -/
  | compile (cause : CompileError)
  /-- The range cannot be read. -/
  | range (cause : ConversionError)
deriving DecidableEq, Repr

/-- The length of a cycle in its column; a light without segments has none. -/
def cycleColumn (ts : Timeline Float) : String :=
  if ts.isEmpty then "  (unparsed)" else Text.padLeft 6 (fixedText 2 ts.total) ++ "s"

/-- The range in its column. -/
def rangeColumn : Option Float → String
  | some meters => fixedText 1 (meters / 1000.0) ++ " km"
  | none => "-"

/-- The line of a light. -/
def listingLine (compiler : Compiler Float) (shared : Table String) (l : Lighthouse) :
    Except ListingError String :=
  match compiler.compileText shared l.code with
  | .error cause => .error (.compile cause)
  | .ok ts =>
    match rangeMeters l.range with
    | .error cause => .error (.range cause)
    | .ok meters =>
      .ok ("  " ++ Text.padRight 24 l.name ++ " " ++ Text.padRight 20 l.code ++ " "
        ++ Text.padRight 6 (Color.marker l.code) ++ " " ++ cycleColumn ts ++ "  "
        ++ rangeColumn meters)

/-- The lines of a listing, and why it ends before its last light. -/
structure Listing where
  /-- The lines, in the order of the lights. -/
  lines : List String
  /-- What keeps the next light from being listed. -/
  trouble : Option ListingError := none

/-- The lines of some lights, up to the first that cannot be listed. -/
def listingLines (compiler : Compiler Float) (shared : Table String) : List Lighthouse → Listing
  | [] => ⟨[], none⟩
  | l :: ls =>
    match listingLine compiler shared l with
    | .error cause => ⟨[], some cause⟩
    | .ok line =>
      let others := listingLines compiler shared ls
      ⟨line :: others.lines, others.trouble⟩

/-- The listing of the catalogue of a file. -/
def listing (compiler : Compiler Float) (shared : Table String) (file : String)
    (lights : List Lighthouse) : Listing :=
  if lights.isEmpty then ⟨["No lighthouses found in catalog."], none⟩
  else
    let body := listingLines compiler shared lights
    ⟨("CATALOG: " ++ file ++ " (" ++ toString lights.length ++ " lights)")
      :: "".pushn '-' 60 :: body.lines, body.trouble⟩

end Seamark.Catalog
