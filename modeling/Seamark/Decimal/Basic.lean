import Seamark.Power

/-!
# Decimals

A decimal is a natural number times a power of ten, as it is written with digits. It denotes a
rational number, and it is read into a double by rounding once, to the nearest.
-/

namespace Seamark

/-- The number `digits * 10 ^ exponent`. -/
structure Decimal where
  /-- The digits, read as one natural number. -/
  digits : Nat
  /-- The power of ten that the last digit counts. -/
  exponent : Int
deriving DecidableEq, Repr

namespace Decimal

/-- The number of digits written for a natural number, one for zero. -/
def digitCount (n : Nat) : Nat :=
  (Nat.toDigits 10 n).length

/-- The rational number that the decimal denotes. -/
def toRat (d : Decimal) : Rat :=
  if 0 ≤ d.exponent then ((d.digits * tenTo d.exponent.toNat : Nat) : Rat)
  else (d.digits : Rat) / ((tenTo (-d.exponent).toNat : Nat) : Rat)

/-- The double nearest to the decimal. A decimal of more than 310 integer digits is infinite and one
below `10 ^ -330` is zero, whatever its digits, so no larger power of ten is ever computed. -/
def toFloat (d : Decimal) : Float :=
  let places := (digitCount d.digits : Int) + d.exponent
  if d.digits = 0 ∨ places < -330 then 0.0
  else if 310 < places then 1.0 / 0.0
  else if 0 ≤ d.exponent then Float.ofScientific d.digits false d.exponent.toNat
  else Float.ofScientific d.digits true (-d.exponent).toNat

end Decimal

end Seamark
