import Seamark.Color.Basic
import Seamark.Decimal.Reading
import Seamark.Text.Upper

/-!
# Colours in hexadecimal digits

A colour is written as a number sign and two hexadecimal digits for each channel. When it is read,
any number of number signs may stand in front, and one digit for each channel stands for two equal
ones. A pair is read as a number in sixteens: digits of every script count, and one of the two
characters may be a sign in front or a space beside the other.
-/

namespace Seamark.Color

open Seamark.Text

/-- The value of a hexadecimal digit. -/
def hexValue? (c : Char) : Option Int :=
  match digitValue? c with
  | some d => some d
  | none =>
    let n := c.toLower.toNat
    if 'a'.toNat ≤ n ∧ n ≤ 'f'.toNat then some (n - 'a'.toNat + 10 : Nat) else none

/-- The number that a pair of characters denotes. -/
def pairValue? (a b : Char) : Option Int :=
  match hexValue? a, hexValue? b with
  | some x, some y => some (16 * x + y)
  | none, some y =>
    if a = '-' then some (-y) else if a = '+' ∨ Decimal.isMargin a = true then some y else none
  | some x, none => if Decimal.isMargin b then some x else none
  | none, none => none

/-- The six characters of the channels: each of three doubled, or six as they are. -/
def sixCharacters? : List Char → Option (List Char)
  | [r, g, b] => some [r, r, g, g, b, b]
  | cs => if cs.length = 6 then some cs else none

/-- The three channel numbers of a text. -/
def channels? (text : String) : Option (Int × Int × Int) := do
  match ← sixCharacters? (text.toList.dropWhile (· = '#')) with
  | [a, b, c, d, e, f] => return (← pairValue? a b, ← pairValue? c d, ← pairValue? e f)
  | _ => none

variable {α : Type} [Scalar α]

/-- The colour of three channel numbers out of 255. -/
def ofChannels (red green blue : Int) : Rgb α :=
  ⟨Scalar.ofInt red / 255.0, Scalar.ofInt green / 255.0, Scalar.ofInt blue / 255.0⟩

/-- The colour that a text in hexadecimal digits denotes. -/
def ofHex (text : String) : Except ColorError (Hsv α) :=
  match channels? text with
  | none => .error (.invalidHex text)
  | some (r, g, b) => (ofChannels r g b).toHsv

/-- A channel number in at least two hexadecimal digits. -/
def hexPair (n : Int) : String :=
  let digits := (Nat.toDigits 16 n.natAbs).map Char.toUpper
  let signed := if n < 0 then '-' :: digits else digits
  String.ofList (if signed.length < 2 then '0' :: signed else signed)

/-- The channel number nearest to a channel from 0 to 1. -/
def channelNumber (x : α) : Except ColorError Int :=
  match Scalar.round (x * 255.0) with
  | .ok n => .ok n
  | .error cause => .error (.noChannel cause)

/-- The text of a colour in hexadecimal digits. -/
def toHex (c : Hsv α) : Except ColorError String := do
  let rgb ← c.toRgb
  return "#" ++ hexPair (← channelNumber rgb.red) ++ hexPair (← channelNumber rgb.green)
    ++ hexPair (← channelNumber rgb.blue)

end Seamark.Color
