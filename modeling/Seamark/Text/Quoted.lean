import Seamark.Text.Letter
import Seamark.Text.Printable

/-!
# Quoted text

A text is shown between quotes with every character that would not show replaced by an escape. The
quotes are single ones, unless the text holds a single quote and no double one.
-/

namespace Seamark.Text

/-- A number in sixteens, padded with zeros to the given width, in small letters. -/
def hexDigits (width n : Nat) : String :=
  let digits := Nat.toDigits 16 n
  String.ofList (List.replicate (width - digits.length) '0' ++ digits)

/-- The quote that surrounds a text. -/
def quoteFor (cs : List Char) : Char :=
  if cs.contains '\'' && !cs.contains '"' then '"' else '\''

/-- A code as an escape. -/
def codeEscape (n : Nat) : String :=
  if n < 0x100 then "\\x" ++ hexDigits 2 n
  else if n < 0x10000 then "\\u" ++ hexDigits 4 n
  else "\\U" ++ hexDigits 8 n

/-- A letter as it stands between two quotes of the given kind. -/
def escaped (quote : Char) : Letter → String
  | .half place => codeEscape (Letter.half place).code
  | .char c =>
    if c = quote ∨ c = '\\' then String.ofList ['\\', c]
    else if c = '\n' then "\\n"
    else if c = '\r' then "\\r"
    else if c = '\t' then "\\t"
    else if isPrintable c then c.toString
    else codeEscape c.toNat

/-- The text between quotes, with escapes for what would not show. -/
def quoted (s : String) : String :=
  let quote := quoteFor s.toList
  quote.toString ++ String.join ((letters s).map (escaped quote)) ++ quote.toString

end Seamark.Text
