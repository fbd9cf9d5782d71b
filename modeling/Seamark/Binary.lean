import Seamark.Power

/-!
# Doubles in binary

A double is not a number, infinite, or a sign with a natural mantissa and a power of two. Whatever
must be exact (digits, remainders, integer parts) is computed on this form with integers.
-/

namespace Seamark

/-- The size of a finite double: `mantissa * 2 ^ exponent`. -/
structure Binary where
  /-- Below `2 ^ 53`. -/
  mantissa : Nat
  /-- At least `-1074`. -/
  exponent : Int
deriving DecidableEq, Repr

namespace Binary

/-- The size as a quotient of natural numbers. -/
def ratio (b : Binary) : Nat × Nat :=
  (b.mantissa * twoTo b.exponent.toNat, twoTo (-b.exponent).toNat)

/-- The double of this size, positive or with the given sign. A size beyond the mantissa of a double
is not met: callers keep below `2 ^ 53`. -/
def toFloat (negative : Bool) (b : Binary) : Float :=
  if b.mantissa = 0 then if negative then -0.0 else 0.0
  else
    let lift := min (52 - b.mantissa.log2) (b.exponent + 1074).toNat
    let mantissa := b.mantissa * twoTo lift
    let exponent := b.exponent - lift
    let magnitude :=
      if mantissa < twoTo 52 then mantissa
      else (exponent + 1075).toNat * twoTo 52 + (mantissa - twoTo 52)
    Float.ofBits (UInt64.ofNat (magnitude + if negative then twoTo 63 else 0))

end Binary

/-- What a double stands for. -/
inductive DoubleShape where
  /-- The result of an operation without a value. -/
  | notANumber
  /-- Larger than every finite double, or smaller if negative. -/
  | infinite (negative : Bool)
  /-- A finite value; zero has a sign too. -/
  | finite (negative : Bool) (size : Binary)
deriving DecidableEq, Repr

/-- Takes a double apart into sign, exponent and fraction. -/
def doubleShape (x : Float) : DoubleShape :=
  let bits : Nat := x.toBits.toNat
  let negative := decide (twoTo 63 ≤ bits)
  let exponent : Nat := bits / twoTo 52 % twoTo 11
  let fraction : Nat := bits % twoTo 52
  if exponent = 2047 then
    if fraction = 0 then .infinite negative else .notANumber
  else if exponent = 0 then .finite negative ⟨fraction, -1074⟩
  else .finite negative ⟨twoTo 52 + fraction, (exponent : Int) - 1075⟩

/-- The double is a number and not infinite. -/
def isFinite (x : Float) : Bool :=
  match doubleShape x with
  | .finite _ _ => true
  | _ => false

/-- The remainder of two sizes, exact. -/
def Binary.remainder (a b : Binary) : Binary :=
  let e := min a.exponent b.exponent
  ⟨a.mantissa * twoTo (a.exponent - e).toNat % (b.mantissa * twoTo (b.exponent - e).toNat), e⟩

/-- The double that stands for an undefined result. -/
def undefinedDouble : Float := 0.0 / 0.0

/-- The exact remainder of a division by a positive double, with the sign of the divisor: a negative
remainder is moved up by the divisor. It is undefined for an infinite or undefined dividend. -/
def floatModulo (x y : Float) : Float :=
  match doubleShape x, doubleShape y with
  | .finite negative a, .finite _ b =>
    if b.mantissa = 0 then undefinedDouble
    else
      let r := a.remainder b
      if r.mantissa = 0 then 0.0
      else if negative then r.toFloat true + y else r.toFloat false
  | .finite negative a, .infinite _ =>
    if a.mantissa = 0 then 0.0 else if negative then x + y else x
  | _, _ => undefinedDouble

/-- Why a double has no integer part. -/
inductive NoInteger where
  /-- It is not a number. -/
  | notANumber
  /-- It is infinite. -/
  | infinite
deriving DecidableEq, Repr

/-- The integer part of a double: the fraction is dropped, towards zero. -/
def floatTruncate (x : Float) : Except NoInteger Int :=
  match doubleShape x with
  | .notANumber => .error .notANumber
  | .infinite _ => .error .infinite
  | .finite negative b =>
    let size : Nat := b.ratio.1 / b.ratio.2
    .ok (if negative then -(size : Int) else size)

end Seamark
