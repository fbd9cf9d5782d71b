import Seamark.Decimal.Spelling

/-!
# Rounded numbers

Two ways to write a number with less than all its digits: with a set number of places after the
point, and with six significant digits and no zeros at the end. Both round the exact value of the
double to the nearest decimal, and a half to the even one.
-/

namespace Seamark

/-- A quotient rounded to the nearest integer, a half to the even one. -/
def roundHalfEven (n d : Nat) : Nat :=
  let q := n / d
  let r := n % d
  if 2 * r < d ∨ (2 * r = d ∧ q % 2 = 0) then q else q + 1

/-- The integer nearest to a double, a half to the even one. -/
def floatRound (x : Float) : Except NoInteger Int :=
  match doubleShape x with
  | .notANumber => .error .notANumber
  | .infinite _ => .error .infinite
  | .finite negative b =>
    let size : Nat := roundHalfEven b.ratio.1 b.ratio.2
    .ok (if negative then -(size : Int) else size)

namespace Decimal

/-- A quotient written with a set number of places after the point. -/
def fixedQuotient (places n d : Nat) : String :=
  let units := roundHalfEven (n * tenTo places) d
  let fraction := Nat.toDigits 10 (units % tenTo places)
  let whole := toString (units / tenTo places)
  if places = 0 then whole
  else whole ++ "." ++ String.ofList (List.replicate (places - fraction.length) '0' ++ fraction)

/-- The size written with a set number of places after the point. -/
def fixedSize (places : Nat) (b : Binary) : String :=
  fixedQuotient places b.ratio.1 b.ratio.2

/-- The size rounded to six significant digits. -/
def sixDigits (b : Binary) : Decimal :=
  let (n, d) := b.ratio
  let exponent := b.magnitude - 6
  ⟨roundHalfEven (n * tenTo (-exponent).toNat) (d * tenTo exponent.toNat), exponent⟩

/-- The text of a decimal's size without a point when there is nothing after it. -/
def wholeOrPositional (d : Decimal) : String :=
  if 0 ≤ d.exponent then toString (d.digits * tenTo d.exponent.toNat) else d.positional

end Decimal

/-- The number with a set number of places after the point. -/
def fixedText (places : Nat) (x : Float) : String :=
  match doubleShape x with
  | .notANumber => "nan"
  | .infinite negative => if negative then "-inf" else "inf"
  | .finite negative b => (if negative then "-" else "") ++ Decimal.fixedSize places b

/-- The number with at most six significant digits: with a point for sizes from a ten-thousandth up
to a million, otherwise with an exponent. -/
def generalText (x : Float) : String :=
  match doubleShape x with
  | .notANumber => "nan"
  | .infinite negative => if negative then "-inf" else "inf"
  | .finite negative b =>
    let sign := if negative then "-" else ""
    let d := (Decimal.sixDigits b).strip
    if b.mantissa = 0 then sign ++ "0"
    else if -4 < d.places ∧ d.places ≤ 6 then sign ++ d.wholeOrPositional
    else sign ++ d.scientific false

end Seamark
