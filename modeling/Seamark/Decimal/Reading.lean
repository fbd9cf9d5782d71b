import Seamark.Decimal.Basic
import Seamark.Text.Blank
import Seamark.Text.Digit

/-!
# Reading numbers

A number is written as an optional sign and then digits with an optional point and an optional
exponent, or as a word for infinity or for an undefined number, in any case. Digits of every script
count, a single underscore may stand between two digits, and spaces around the number do not matter.
-/

namespace Seamark.Decimal

open Seamark.Text

/-- A blank that may stand around a number: not one of the four information separators. -/
def isMargin (c : Char) : Bool :=
  isBlank c && !(0x1c ≤ c.toNat && c.toNat ≤ 0x1f)

/-- The text without the margins at its two ends. -/
def trimMargins (cs : List Char) : List Char :=
  ((cs.dropWhile isMargin).reverse.dropWhile isMargin).reverse

/-- Takes out the underscores, each of which must stand between two digits. The first argument says
whether a digit stands before the text. -/
def dropUnderscores (afterDigit : Bool) : List Char → Option (List Char)
  | [] => some []
  | '_' :: c :: cs =>
    if afterDigit && isDigit c then (dropUnderscores true cs).map (c :: ·) else none
  | c :: cs => if c = '_' then none else (dropUnderscores (isDigit c) cs).map (c :: ·)

/-- The sign at the start of a text, if there is one, and what follows: `true` for a minus. -/
def takeSign : List Char → Bool × List Char
  | '-' :: cs => (true, cs)
  | '+' :: cs => (false, cs)
  | cs => (false, cs)

/-- Reads digits with an optional point among or beside them, at least one digit in all, and gives
what follows. -/
def takeDecimal? (cs : List Char) : Option (Decimal × List Char) :=
  let whole := cs.takeWhile isDigit
  match cs.dropWhile isDigit with
  | '.' :: rest =>
    let fraction := rest.takeWhile isDigit
    if whole.isEmpty && fraction.isEmpty then none
    else some (⟨digitsValue (whole ++ fraction), -fraction.length⟩, rest.dropWhile isDigit)
  | rest => if whole.isEmpty then none else some (⟨digitsValue whole, 0⟩, rest)

/-- Reads an exponent that takes up the whole text: nothing, or a letter, a sign and digits. -/
def exponent? : List Char → Option Int
  | [] => some 0
  | e :: cs =>
    let (negative, digits) := takeSign cs
    if (e = 'e' ∨ e = 'E') ∧ !digits.isEmpty ∧ digits.all isDigit then
      let n : Nat := digitsValue digits
      some (if negative then -(n : Int) else n)
    else none

/-- Reads a number without a sign. -/
def unsigned? (cs : List Char) : Option Float :=
  let word := String.ofList (cs.map Char.toLower)
  if word = "inf" ∨ word = "infinity" then some (1.0 / 0.0)
  else if word = "nan" then some (0.0 / 0.0)
  else do
    let (d, rest) ← takeDecimal? cs
    let e ← exponent? rest
    return Decimal.toFloat ⟨d.digits, d.exponent + e⟩

/-- The double that a text denotes. -/
def readFloat? (s : String) : Option Float := do
  let (negative, cs) := takeSign (← dropUnderscores false (trimMargins s.toList))
  let x ← unsigned? cs
  return if negative then -x else x

end Seamark.Decimal
