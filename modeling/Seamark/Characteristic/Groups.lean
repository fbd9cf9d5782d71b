import Seamark.Text.Blank
import Seamark.Text.Digit

/-!
# Group counts

A group such as `2+1` stands for a count of flashes in each group. Entries between the plus signs
that are no positive number are passed over; if none is left, there is one group of one.
-/

namespace Seamark

/-- A number in a group with more digits than can be read. -/
structure TooManyDigits where
  /-- How many digits the number has. -/
  digits : Nat
deriving DecidableEq, Repr

/-- The most digits that a number may be written with. -/
def maxDigits : Nat := 4300

/-- The text of the error that a number has too many digits. -/
def TooManyDigits.message (e : TooManyDigits) : String :=
  "Exceeds the limit (" ++ toString maxDigits
    ++ " digits) for integer string conversion: value has " ++ toString e.digits
    ++ " digits; use sys.set_int_max_str_digits() to increase the limit"

namespace Group

open Seamark.Text

/-- A digit of the plain numerals. -/
def isPlainDigit (c : Char) : Bool := '0' ≤ c && c ≤ '9'

/-- The counts of one entry: one, or none if it is not a positive number. -/
def entryCounts (entry : List Char) : Except TooManyDigits (List Nat) :=
  let digits := trim entry
  if digits.isEmpty || !digits.all isPlainDigit then .ok []
  else if maxDigits < digits.length then .error ⟨digits.length⟩
  else if digitsValue digits = 0 then .ok [] else .ok [digitsValue digits]

/-- The counts of several entries, in order. -/
def entriesCounts : List (List Char) → Except TooManyDigits (List Nat)
  | [] => .ok []
  | entry :: entries =>
    match entryCounts entry with
    | .error e => .error e
    | .ok first => (entriesCounts entries).map (first ++ ·)

/-- The counts that a group stands for: at least one, and all of them positive. -/
def counts (group : Option String) : Except TooManyDigits (List Nat) :=
  match group with
  | none => .ok [1]
  | some text =>
    (entriesCounts (splitAt '+' text.toList)).map fun ns => if ns.isEmpty then [1] else ns

end Group

end Seamark
