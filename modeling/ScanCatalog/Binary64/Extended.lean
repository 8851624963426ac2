import ScanCatalog.Binary64.Rounding

/-!
# Extended precision

Magnitudes of 64 significant bits and of any size. Each operation gives the magnitude
nearest to its exact result, of two the one whose significand is even. A number that
goes through them on its way to binary64 is rounded twice, and so may end one step
away from the nearest.

## Main definitions

* `Extended`: a significand and a power of two;
* `Extended.ofRatio`: the magnitude nearest to a quotient;
* `Extended.times`, `Extended.quotient`, `Extended.plus`: the operations;
* `Extended.power`: a power by repeated squares;
* `Extended.ofRank`, `Extended.toRank`: from and to binary64.
-/

namespace ScanCatalog

/-- The magnitude `significand * 2 ^ exponent`. -/
structure Extended where
  significand : Nat
  exponent : Int
deriving DecidableEq, Repr

namespace Extended

/-- The magnitude as a quotient. -/
def ratio (x : Extended) : Nat × Nat :=
  if 0 ≤ x.exponent then (x.significand * twoTo x.exponent.toNat, 1)
  else (x.significand, twoTo (-x.exponent).toNat)

/-- The power of two of the leading bit of a quotient. The bit lengths give it up to
one. -/
def leadingBit (num den : Nat) : Int :=
  let guess : Int := (num.log2 : Int) - den.log2
  let reached :=
    if 0 ≤ guess then decide (den * twoTo guess.toNat ≤ num)
    else decide (den ≤ num * twoTo (-guess).toNat)
  if reached then guess else guess - 1

/-- The magnitude nearest to `num / den`. -/
def ofRatio (num den : Nat) : Extended :=
  if num = 0 then ⟨0, 0⟩
  else
    let shift := leadingBit num den - 63
    if 0 ≤ shift then ⟨roundHalfEven num (den * twoTo shift.toNat), shift⟩
    else ⟨roundHalfEven (num * twoTo (-shift).toNat) den, shift⟩

/-- A whole number as a magnitude. -/
def ofNat (n : Nat) : Extended := ofRatio n 1

/-- The product. -/
def times (a b : Extended) : Extended :=
  ofRatio (a.ratio.1 * b.ratio.1) (a.ratio.2 * b.ratio.2)

/-- The quotient by a magnitude that is not zero. -/
def quotient (a b : Extended) : Extended :=
  ofRatio (a.ratio.1 * b.ratio.2) (a.ratio.2 * b.ratio.1)

/-- The sum. -/
def plus (a b : Extended) : Extended :=
  ofRatio (a.ratio.1 * b.ratio.2 + b.ratio.1 * a.ratio.2) (a.ratio.2 * b.ratio.2)

/-- The order of magnitudes. -/
def atMost (a b : Extended) : Bool :=
  decide (a.ratio.1 * b.ratio.2 ≤ b.ratio.1 * a.ratio.2)

/-- The greatest whole number that is at most the magnitude. -/
def floor (x : Extended) : Nat := x.ratio.1 / x.ratio.2

/-- The magnitude less its whole part. -/
def fractionPart (x : Extended) : Extended := ofRatio (x.ratio.1 % x.ratio.2) x.ratio.2

/-- Multiplies `product` by the powers of `square` that the bits of `n` ask for, the
lowest bit first. -/
def powerFrom (square product : Extended) (n : Nat) : Extended :=
  let product := if n % 2 = 1 then product.times square else product
  if h : n / 2 = 0 then product else powerFrom (square.times square) product (n / 2)
termination_by n
decreasing_by omega

/-- A power by repeated squares. -/
def power (base : Extended) (n : Nat) : Extended := powerFrom base ⟨1, 0⟩ n

/-- The magnitude of a rank of binary64 numbers, which is exact. -/
def ofRank (rank : Nat) : Extended := ofRatio (Binary64.unitsOfRank rank) Binary64.unitsInOne

/-- The rank of the binary64 number nearest to the magnitude. -/
def toRank (x : Extended) : Nat := Binary64.rankOfRatio x.ratio.1 x.ratio.2

example : (ofRatio 1 3).times (ofNat 3) = ⟨twoTo 63, -63⟩ := by decide
example : (power (ofNat 10) 27).ratio = (tenTo 27, 1) := by decide +kernel

end Extended

end ScanCatalog
