import Seamark.Characteristic.Groups
import Seamark.Document.Moment.Basic

/-!
# Texts without a value

A text may not be a document, or hold a scalar that looks like a number, a date or a character and is
none.
-/

namespace Seamark.Document

/-- Why a text gives no value. -/
inductive ReadError where
  /-- The text is not one document. -/
  | malformed (reason : String)
  /-- An escape gives a code beyond the last character; so many characters are before its digits. -/
  | noCharacter (code index : Nat)
  /-- An integer is written with too many digits. -/
  | tooManyDigits (cause : TooManyDigits)
  /-- An integer in base two or sixteen has no digits, only underscores. -/
  | noDigits (base : Nat)
  /-- A double in groups of sixty has more groups than doubles reach. -/
  | tooManyGroups
  /-- The calendar has no such date, or the day no such time. -/
  | noMoment (cause : MomentError)
deriving DecidableEq, Repr

namespace ReadError

/-- The largest number that is looked up as the code of a character. -/
def largestCode : Nat := 0x7fffffff

/-- A number is too large to be looked at: as a code, or as a double. -/
def isOverflow : ReadError → Bool
  | noCharacter code _ => largestCode < code
  | tooManyGroups => true
  | _ => false

/-- The text of an error. -/
def message : ReadError → String
  | malformed reason => "malformed document: " ++ reason
  | noCharacter code _ =>
    if largestCode < code then "signed integer is greater than maximum"
    else "chr() arg not in range(0x110000)"
  | tooManyDigits cause => cause.message
  | noDigits base => "invalid literal for int() with base " ++ toString base ++ ": ''"
  | tooManyGroups => "int too large to convert to float"
  | noMoment cause => cause.message

end ReadError

end Seamark.Document
