import Seamark.Decimal.Rounded

/-!
# Scalars

Durations, times and colour components are measured in a type of numbers with the four operations,
an order and a few conversions. Two types of numbers are scalars: doubles, on which programs run, and
rationals, on which the rules of timing hold exactly. Every rule is written once for both, so what is
proved of the rationals is a statement about the rule that runs.
-/

namespace Seamark

/-- Numbers in which durations, times and colour components are measured. -/
class Scalar (α : Type) extends Add α, Sub α, Mul α, Div α, LT α, LE α, BEq α, OfScientific α where
  /-- The strict order can be decided. -/
  decideLT : DecidableLT α
  /-- The order can be decided. -/
  decideLE : DecidableLE α
  /-- A count as a number, unless it is larger than every number of the type. -/
  ofCount? : Nat → Option α
  /-- An integer of a moderate size as a number. -/
  ofInt : Int → α
  /-- The number nearest to a decimal. -/
  ofDecimal : Decimal → α
  /-- The remainder of a division by a positive number, never negative. -/
  modulo : α → α → α
  /-- The integer part, towards zero. -/
  truncate : α → Except NoInteger Int
  /-- The nearest integer, a half to the even one. -/
  round : α → Except NoInteger Int
  /-- The number written with a set number of places after the point. -/
  fixed : Nat → α → String

instance Scalar.instDecidableLT {α : Type} [Scalar α] : DecidableLT α := Scalar.decideLT

instance Scalar.instDecidableLE {α : Type} [Scalar α] : DecidableLE α := Scalar.decideLE

/-- A count as a double; beyond the largest double there is none. -/
def floatOfCount? (n : Nat) : Option Float :=
  let x := Decimal.toFloat ⟨n, 0⟩
  if isFinite x then some x else none

instance Scalar.instFloat : Scalar Float where
  decideLT := inferInstance
  decideLE := inferInstance
  ofCount? := floatOfCount?
  ofInt := Float.ofInt
  ofDecimal := Decimal.toFloat
  modulo := floatModulo
  truncate := floatTruncate
  round := floatRound
  fixed := fixedText

/-- The integer nearest to a rational, a half to the even one. -/
def ratRound (x : Rat) : Int :=
  let below := x.floor
  let rest := x - below
  if rest < 1 / 2 ∨ (rest = 1 / 2 ∧ below % 2 = 0) then below else below + 1

/-- A rational written with a set number of places after the point. -/
def ratFixed (places : Nat) (x : Rat) : String :=
  (if x < 0 then "-" else "") ++ Decimal.fixedQuotient places x.num.natAbs x.den

instance Scalar.instRat : Scalar Rat where
  decideLT := inferInstance
  decideLE := inferInstance
  ofCount? n := some (n : Rat)
  ofInt i := (i : Rat)
  ofDecimal := Decimal.toRat
  modulo x y := x - y * (x / y).floor
  truncate x := .ok (x.num.tdiv x.den)
  round x := .ok (ratRound x)
  fixed := ratFixed

section

variable {α : Type} [Scalar α]

/-- The lesser of two numbers; the first if they cannot be told apart. -/
def lesser (x y : α) : α := if y < x then y else x

/-- The greater of two numbers; the first if they cannot be told apart. -/
def greater (x y : α) : α := if x < y then y else x

/-- A number that is equal to zero. -/
def isZero (x : α) : Bool := x == 0.0

/-- The sum of numbers, added from the left. -/
def sumOf (xs : List α) : α := xs.foldl (· + ·) 0.0

end

end Seamark
