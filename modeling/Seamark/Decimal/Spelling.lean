import Seamark.Decimal.Shortest

/-!
# How a number is spelled

A number is written with the fewest digits that identify it: with a point for sizes from a
ten-thousandth up to `10 ^ 16`, otherwise with a signed exponent of at least two digits. A spelling
says how the values without digits are written and whether a mantissa of one digit takes a point.
-/

namespace Seamark

/-- The choices that differ between the formats that write numbers. -/
structure Spelling where
  /-- The text of an undefined number. -/
  notANumber : String
  /-- The text of an infinite number, after its sign. -/
  infinity : String
  /-- A mantissa of one digit is written `1.0` before an exponent, and not `1`. -/
  pointedMantissa : Bool
deriving DecidableEq, Repr

namespace Decimal

/-- Moves the zeros at the end of the digits into the exponent. -/
def strip (d : Decimal) : Decimal :=
  let digits := Nat.toDigits 10 d.digits
  let kept := (digits.reverse.dropWhile (· == '0')).reverse
  ⟨(String.ofList kept).toNat?.getD 0, d.exponent + (digits.length - kept.length : Nat)⟩

/-- The number of digits before the point; zero and negative for sizes below a tenth. -/
def places (d : Decimal) : Int :=
  (Nat.toDigits 10 d.digits).length + d.exponent

/-- The text of a decimal's size with the point in its place. -/
def positional (d : Decimal) : String :=
  let digits := Nat.toDigits 10 d.digits
  let text :=
    if d.places ≤ 0 then '0' :: '.' :: List.replicate (-d.places).toNat '0' ++ digits
    else if 0 ≤ d.exponent then digits ++ List.replicate d.exponent.toNat '0' ++ ['.', '0']
    else digits.take d.places.toNat ++ '.' :: digits.drop d.places.toNat
  String.ofList text

/-- The text of an exponent: a sign and at least two digits. -/
def exponentText (e : Int) : String :=
  let digits := toString e.natAbs
  (if e < 0 then "e-" else "e+") ++ (if digits.length < 2 then "0" else "") ++ digits

/-- The text of a decimal's size as a mantissa and an exponent. -/
def scientific (pointed : Bool) (d : Decimal) : String :=
  let mantissa := match Nat.toDigits 10 d.digits with
    | [] => []
    | [c] => if pointed then [c, '.', '0'] else [c]
    | c :: cs => c :: '.' :: cs
  String.ofList mantissa ++ exponentText (d.places - 1)

end Decimal

namespace Spelling

/-- The text of a number. -/
def write (s : Spelling) (x : Float) : String :=
  match doubleShape x with
  | .notANumber => s.notANumber
  | .infinite negative => (if negative then "-" else "") ++ s.infinity
  | .finite negative b =>
    let sign := if negative then "-" else ""
    let d := b.shortest.strip
    if b.mantissa = 0 then sign ++ "0.0"
    else if -4 < d.places ∧ d.places ≤ 16 then sign ++ d.positional
    else sign ++ d.scientific s.pointedMantissa

/-- Plain text: `nan` and `inf`, and a bare digit before an exponent. -/
def plain : Spelling := ⟨"nan", "inf", false⟩

end Spelling

end Seamark
