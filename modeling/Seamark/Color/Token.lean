import Seamark.Characteristic.Reader
import Seamark.Color.Hex
import Seamark.Compiler.Flashing
import Seamark.Table

/-!
# Colour tokens

A token such as `W` or `W/R` stands for a colour in a table that gives it a renderable value: the
name of a colour, or a colour in hexadecimal digits after a number sign.
-/

namespace Seamark.Color

/-- The renderable values of the tokens of a chart and of their combinations. -/
def builtin : Table String := ⟨[
  ("W", "white"), ("R", "red"), ("G", "green"), ("Y", "yellow"), ("Am", "#FFBF00"),
  ("W/R", "orange"), ("W/G", "#88ffcc"), ("R/G", "#ffaa44"), ("W/R/G", "yellow")]⟩

/-- The renderable value of a token. -/
def resolve (table : Table String) (default token : String) : String :=
  (table.get? token).getD default

variable {α : Type} [Scalar α]

/-- The colours that have a name. -/
def named : Table (Hsv α) := ⟨[
  ("white", ⟨0.0, 0.0, 1.0⟩), ("red", ⟨0.0, 1.0, 1.0⟩), ("orange", ⟨0.108, 1.0, 1.0⟩),
  ("yellow", ⟨0.167, 1.0, 1.0⟩), ("green", ⟨0.333, 1.0, 0.5⟩), ("gray", ⟨0.0, 0.0, 0.5⟩),
  ("black", ⟨0.0, 0.0, 0.0⟩)]⟩

/-- A name as the table of names spells it: small letters, no blanks at the ends. -/
def plainName (text : String) : String :=
  String.ofList (Text.trim (text.toList.map Text.smallLetter))

/-- The colour of a renderable value. -/
def ofValue (text : String) : Except ColorError (Hsv α) :=
  if text.toList.head? = some '#' then ofHex text
  else match named.get? (plainName text) with
    | some color => .ok color
    | none => .error (.unknownName text)

/-- The token that stands for a light on a map: its colour, or all of its colours at once; white if
the text is no characteristic. -/
def marker (text : String) : String :=
  match Characteristic.readExact? text with
  | none => "W"
  | some c => if c.colors.isEmpty then "W" else Compiler.composite c.colors

end Seamark.Color
