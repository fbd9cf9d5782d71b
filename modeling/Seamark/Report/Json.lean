import Seamark.Decimal.Spelling
import Seamark.Text.Quoted

/-!
# Report values

A report for other programs is a value of texts, numbers, lists and named fields, written with two
spaces for each level and with every character outside of the plain alphabet escaped by its 16-bit
units.
-/

namespace Seamark

/-- A value in a report. -/
inductive Json where
  /-- Nothing. -/
  | null
  /-- A truth value. -/
  | bool (b : Bool)
  /-- A number. -/
  | number (x : Float)
  /-- A text. -/
  | text (s : String)
  /-- Values in order. -/
  | array (items : List Json)
  /-- Fields in order. -/
  | object (fields : List (String × Json))

namespace Json

/-- The numbers of a report: infinity and undefined numbers have names. -/
def numberSpelling : Spelling := ⟨"NaN", "Infinity", false⟩

/-- A 16-bit unit as an escape. -/
def unitEscape (n : Nat) : String := "\\u" ++ Text.hexDigits 4 n

/-- A character as it stands between quotes, if it is not an escape by its units. -/
def shortForm? (c : Char) : Option String :=
  if c = '"' || c = '\\' then some (String.ofList ['\\', c])
  else if c = '\n' then some "\\n"
  else if c = '\r' then some "\\r"
  else if c = '\t' then some "\\t"
  else if c = '\x08' then some "\\b"
  else if c = '\x0c' then some "\\f"
  else if 0x20 ≤ c.toNat && c.toNat ≤ 0x7e then some c.toString
  else none

/-- The units of a code as escapes. -/
def codeEscape (n : Nat) : String :=
  if n < 0x10000 then unitEscape n
  else unitEscape (0xd800 + (n - 0x10000) / 0x400) ++ unitEscape (0xdc00 + (n - 0x10000) % 0x400)

/-- A letter as it stands between quotes. -/
def escaped : Text.Letter → String
  | .char c => (shortForm? c).getD (codeEscape c.toNat)
  | .half place => codeEscape (Text.Letter.half place).code

/-- A text between quotes. -/
def quoted (s : String) : String :=
  "\"" ++ String.join ((Text.letters s).map escaped) ++ "\""

/-- Lines between an opening and a closing bracket, each on its own and indented one level more. -/
def bracketed (opening closing : String) (level : Nat) (lines : List String) : String :=
  if lines.isEmpty then opening ++ closing
  else
    let pad := "\n".pushn ' ' (2 * (level + 1))
    opening ++ pad ++ ("," ++ pad).intercalate lines ++ "\n".pushn ' ' (2 * level) ++ closing

mutual

/-- The text of a value at a level of indentation. -/
def render (level : Nat) : Json → String
  | null => "null"
  | bool b => if b then "true" else "false"
  | number x => numberSpelling.write x
  | text s => quoted s
  | array items => bracketed "[" "]" level (renderItems (level + 1) items)
  | object fields => bracketed "\x7b" "\x7d" level (renderFields (level + 1) fields)

/-- The texts of values. -/
def renderItems (level : Nat) : List Json → List String
  | [] => []
  | v :: vs => render level v :: renderItems level vs

/-- The texts of fields. -/
def renderFields (level : Nat) : List (String × Json) → List String
  | [] => []
  | (k, v) :: rest => (quoted k ++ ": " ++ render level v) :: renderFields level rest

end

end Json

end Seamark
