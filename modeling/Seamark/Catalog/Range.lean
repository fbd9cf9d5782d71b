import Seamark.Document.Value

/-!
# Nominal range

The range of a light is given in nautical miles, as a number or as a text that starts with one
(`18.5 NM`), and used in metres. A range that is no positive finite number is no range.
-/

namespace Seamark.Catalog

open Seamark.Text

/-- The metres in a nautical mile. -/
def metersPerMile : Float := 1852.0

/-- The number that a text starts with, after blanks and a sign. -/
def leadingNumber? (text : String) : Option Float := do
  let (negative, cs) := Decimal.takeSign (text.toList.dropWhile isBlank)
  let (d, _) ← Decimal.takeDecimal? cs
  return if negative then -d.toFloat else d.toFloat

/-- A number of miles in metres, if it is finite and positive. -/
def metersOf? (miles : Float) : Option Float :=
  if isFinite miles && 0.0 < miles then some (miles * metersPerMile) else none

/-- The range in metres that a value gives. -/
def rangeMeters : Value → Except ConversionError (Option Float)
  | .null | .bool _ => .ok none
  | .text s => .ok ((leadingNumber? s).bind metersOf?)
  | v => do return metersOf? (← v.toFloat)

end Seamark.Catalog
