import Seamark.Binary
import Seamark.Decimal.Basic

/-!
# Shortest decimals

The reals that round to a double form an interval around it, reaching halfway to its two neighbours;
the ends belong to it when the mantissa is even. The shortest decimal of a double is the one with the
fewest digits in that interval and, among those, the one nearest to the double.
-/

namespace Seamark

namespace Binary

/-- The double below is half as far away as the one above: the mantissa is the least of its power. -/
def narrowBelow (b : Binary) : Bool :=
  b.mantissa == twoTo 52 && decide (-1074 < b.exponent)

/-- The decimal lies in the interval of reals that round to this size. Both are compared with the
ends of the interval in quarters of the last binary place. -/
def holds (b : Binary) (d : Decimal) : Bool :=
  let quarters : Nat := 4 * b.mantissa
  let low := if b.narrowBelow then quarters - 1 else quarters - 2
  let high := quarters + 2
  let e := b.exponent - 2
  let point := d.digits * tenTo d.exponent.toNat * twoTo (-e).toNat
  let unit := twoTo e.toNat * tenTo (-d.exponent).toNat
  if b.mantissa % 2 = 0 then low * unit ≤ point && point ≤ high * unit
  else low * unit < point && point < high * unit

/-- The least number of integer digits that the size needs: the least `k` with size below `10 ^ k`;
zero and negative for a size below a tenth. -/
def magnitude (b : Binary) : Int :=
  let (n, d) := b.ratio
  if d ≤ n then Decimal.digitCount (n / d)
  else
    match (List.range 400).find? fun j => d ≤ n * tenTo (j + 1) with
    | some j => -j
    | none => -400

/-- The decimals with a given exponent next to the size from below and above. -/
def neighbours (b : Binary) (exponent : Int) : Decimal × Decimal :=
  let (n, d) := b.ratio
  let below := n * tenTo (-exponent).toNat / (d * tenTo exponent.toNat)
  (⟨below, exponent⟩, ⟨below + 1, exponent⟩)

/-- The lower of two neighbouring decimals is nearer to the size than the upper one, or as near and
even. -/
def lowerNearer (b : Binary) (lower : Decimal) : Bool :=
  let (n, d) := b.ratio
  let twice := 2 * n * tenTo (-lower.exponent).toNat
  let middle := (2 * lower.digits + 1) * d * tenTo lower.exponent.toNat
  twice < middle || (twice == middle && lower.digits % 2 == 0)

/-- The decimal with a given exponent that rounds to the size and is nearest to it, if there is one. -/
def decimalAt? (b : Binary) (exponent : Int) : Option Decimal :=
  let (lower, upper) := b.neighbours exponent
  match b.holds lower, b.holds upper with
  | true, true => some (if b.lowerNearer lower then lower else upper)
  | true, false => some lower
  | false, true => some upper
  | false, false => none

/-- The decimal with the fewest digits that rounds to the size. Seventeen digits are always enough;
past them the exact value would be given. -/
def shortest (b : Binary) : Decimal :=
  if b.mantissa = 0 then ⟨0, 0⟩
  else
    let k := b.magnitude
    match (List.range 17).findSome? fun i : Nat => b.decimalAt? (k - (i + 1)) with
    | some d => d
    | none =>
      if 0 ≤ b.exponent then ⟨b.mantissa * twoTo b.exponent.toNat, 0⟩
      else ⟨b.mantissa * Nat.pow 5 (-b.exponent).toNat, b.exponent⟩

end Binary

end Seamark
