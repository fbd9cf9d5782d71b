import Seamark.Table
import Seamark.Text.Upper

/-!
# The Morse alphabet

A table gives the dots and dashes of a character. A character without an entry is looked up in
capitals, and if it still has none it is sent as the letter A.
-/

namespace Seamark.Morse

/-- What is sent for a character that the table does not know: the letter A. -/
def fallbackCode : String := ".-"

/-- The letters and digits. -/
def builtin : Table String := ⟨[
  ("A", ".-"), ("B", "-..."), ("C", "-.-."), ("D", "-.."), ("E", "."),
  ("F", "..-."), ("G", "--."), ("H", "...."), ("I", ".."), ("J", ".---"),
  ("K", "-.-"), ("L", ".-.."), ("M", "--"), ("N", "-."), ("O", "---"),
  ("P", ".--."), ("Q", "--.-"), ("R", ".-."), ("S", "..."), ("T", "-"),
  ("U", "..-"), ("V", "...-"), ("W", ".--"), ("X", "-..-"), ("Y", "-.--"),
  ("Z", "--.."),
  ("0", "-----"), ("1", ".----"), ("2", "..---"), ("3", "...--"), ("4", "....-"),
  ("5", "....."), ("6", "-...."), ("7", "--..."), ("8", "---.."), ("9", "----.")]⟩

/-- The dots and dashes of a character: its entry, else the entry of its capital, else the letter
A. -/
def lookup (table : Table String) (character : String) : String :=
  match table.get? character with
  | some code => code
  | none => (table.get? (Text.upper character)).getD fallbackCode

end Seamark.Morse
