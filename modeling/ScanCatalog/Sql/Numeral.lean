import ScanCatalog.Binary64.Extended
import ScanCatalog.Binary64.Shortest

/-!
# Numbers and texts in columns

A number column reads a decimal by its first nineteen digits or so and scales them by
a power of ten in extended precision. A text column writes a number with fifteen
digits, which are taken off one by one in extended precision. Both can end one step
away from the nearest.

## Main definitions

* `Decimal.cut`, `Decimal.settle`: a decimal whose coefficient has at most 63 bits;
* `Binary64.ofColumnDecimal`: what a number column reads for a decimal;
* `Binary64.columnDigits`: the digits that a text column writes.
-/

namespace ScanCatalog

namespace Decimal

/-- The greatest integer of 64 bits. -/
def greatestInt : Nat := 0x7FFFFFFFFFFFFFFF

/-- From here on a coefficient takes no further digit. -/
def fullFrom : Nat := (greatestInt - 9) / 10

/-- The decimal without the digits that come after its coefficient is full. -/
def cut (d : Decimal) : Decimal :=
  if h : fullFrom ≤ d.coefficient / 10 then cut ⟨d.coefficient / 10, d.exponent + 1⟩ else d
termination_by d.coefficient
decreasing_by
  have : 0 < fullFrom := by decide
  omega

/-- Moves up to `fuel` powers of ten from the exponent into the coefficient, as long as
63 bits hold it. -/
def absorb : Nat → Decimal → Decimal
  | 0, d => d
  | fuel + 1, d =>
    if greatestInt / 10 ≤ d.coefficient then d
    else absorb fuel ⟨d.coefficient * 10, d.exponent - 1⟩

/-- The decimal with an exponent as near to zero as a coefficient of 63 bits allows. -/
def settle (d : Decimal) : Decimal :=
  if 0 ≤ d.exponent then absorb d.exponent.toNat d else trimZeros (-d.exponent).toNat d

end Decimal

namespace Extended

/-- The whole number ten. -/
def ten : Extended := ofNat 10

/-- Multiplies or divides by a power of ten. -/
def shiftTen (x : Extended) (up : Bool) (n : Nat) : Extended :=
  if up then x.times (ten.power n) else x.quotient (ten.power n)

end Extended

namespace Binary64

/-- The rank of the binary64 number next to `10 ^ 308`. -/
def farRank : Nat := rankOfRatio (tenTo 308) 1

/-- The rank that a number column gives to a coefficient of 63 bits with an exponent.
Beyond `10 ^ 307` it scales in two steps, the second one in binary64. -/
def columnRank (d : Decimal) : Nat :=
  let size := d.exponent.natAbs
  let up := decide (0 < d.exponent)
  let start := Extended.ofNat d.coefficient
  if size = 0 then start.toRank
  else if size ≤ 307 then (start.shiftTen up size).toRank
  else if size < 342 then
    let units := unitsOfRank (start.shiftTen up (size - 308)).toRank
    if up then rankOfRatio (units * unitsOfRank farRank) (unitsInOne * unitsInOne)
    else rankOfRatio units (unitsOfRank farRank)
  else if up then rankBound
  else 0

/-- What a number column reads for a decimal with a sign. -/
def ofColumnDecimal (negative : Bool) (d : Decimal) : Binary64 :=
  if d.coefficient = 0 then ofRank negative 0
  else ofRank negative (columnRank d.cut.settle)

/-- Multiplies the scale by `step` while it stays at most `x`, up to `fuel` times, and
counts the powers of ten. -/
def raiseScale (x step : Extended) (gain : Int) : Nat → Extended × Int → Extended × Int
  | 0, scaled => scaled
  | fuel + 1, (scale, power) =>
    if (step.times scale).atMost x then
      raiseScale x step gain fuel (scale.times step, power + gain)
    else (scale, power)

/-- Multiplies a magnitude by `step` while it is below `bound`, up to `fuel` times, and
counts the powers of ten. -/
def raiseTo (bound step : Extended) (gain : Int) : Nat → Extended × Int → Extended × Int
  | 0, scaled => scaled
  | fuel + 1, (x, power) =>
    if bound.atMost x then (x, power)
    else raiseTo bound step gain fuel (x.times step, power - gain)

/-- A magnitude of the leading digit's size, and the power of ten it was divided by. -/
def leadingScaled (x : Extended) : Extended × Int :=
  let hundreds := raiseScale x (.ofRank (rankOfRatio (tenTo 100) 1)) 100 4 (⟨1, 0⟩, 0)
  let tens := raiseScale x (.ofNat (tenTo 10)) 10 10 hundreds
  let (scale, power) := raiseScale x .ten 1 10 tens
  let eights := raiseTo (.ofRank (rankOfRatio 1 (tenTo 8))) (.ofNat (tenTo 8)) 8 45
    (x.quotient scale, power)
  raiseTo ⟨1, 0⟩ .ten 1 10 eights

/-- Takes digits off a magnitude below ten, `count` of them, onto those before. -/
def peelDigits : Nat → Nat → Extended → Nat
  | 0, digits, _ => digits
  | count + 1, digits, x =>
    peelDigits count (digits * 10 + x.floor) (x.fractionPart.times .ten)

/-- The fifteen digits, trailing zeros excepted, that a text column writes for the
magnitude of a rank. Half of the last place is added before digits are taken off. -/
def columnDigits (rank : Nat) : Decimal :=
  let (x, power) := leadingScaled (.ofRank rank)
  let x := x.plus (.ofRank (rankOfRatio 5 (tenTo 15)))
  let (x, power) :=
    if Extended.ten.atMost x then (x.times (.ofRank (rankOfRatio 1 10)), power + 1)
    else (x, power)
  Decimal.trimZeros 15 ⟨peelDigits 15 0 x, power - 14⟩

example : ofColumnDecimal false ⟨1269276274489519, -6⟩ =
    ofDecimal false 12692762744895191 (-7) := by decide +kernel
example : columnDigits (rankOfRatio 5247464313617595 10) = ⟨524746431361759, 0⟩ := by
  decide +kernel

end Binary64

end ScanCatalog
