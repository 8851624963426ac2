import ScanCatalog.Binary64.Basic

/-!
# Rounding to binary64

Ratios, integers and decimals are rounded to the nearest binary64 number, a tie to
the one whose rank is even, and to infinity from half a step above the greatest
finite number on. Everything is exact natural-number arithmetic.

## Main definitions

* `roundHalfEven`: the whole number nearest to a quotient;
* `Binary64.ofRatio`: the number nearest to a quotient;
* `Binary64.ofInt?`: the number nearest to an integer, if finite;
* `Binary64.ofDecimal`: the number nearest to a decimal;
* `Binary64.divideBy`: the number nearest to a quotient by a whole number.
-/

namespace ScanCatalog

/-- A power of ten. -/
def tenTo (n : Nat) : Nat := Nat.pow 10 n

/-- The whole number nearest to `num / den`, the even one of two at equal distance. -/
def roundHalfEven (num den : Nat) : Nat :=
  let quotient := num / den
  let twice := 2 * (num % den)
  if twice < den then quotient
  else if den < twice then quotient + 1
  else quotient + quotient % 2

/-- The rounded quotient is one of the two whole numbers around it. -/
theorem roundHalfEven_bounds (num den : Nat) :
    num / den ≤ roundHalfEven num den ∧ roundHalfEven num den ≤ num / den + 1 := by
  unfold roundHalfEven
  simp only
  split
  · omega
  · split <;> omega

namespace Binary64

/-- The rank nearest to `num / den`. The quotient, in units, is cut to the 53 bits
of its binade; a rounding up to the next power of two carries into the next binade
by itself. -/
def rankOfRatio (num den : Nat) : Nat :=
  let scaled := num * unitsInOne
  let shift := (scaled / den).log2 - 52
  shift * binadeSize + roundHalfEven scaled (den * twoTo shift)

/-- The number nearest to `num / den`, with a sign. -/
def ofRatio (negative : Bool) (num den : Nat) : Binary64 :=
  ofRank negative (rankOfRatio num den)

/-- The number itself, if it is finite. -/
def finite? (x : Binary64) : Option Binary64 := if x.isFinite then some x else none

theorem finite?_eq_some_iff {x y : Binary64} : x.finite? = some y ↔ x = y ∧ y.isFinite = true := by
  unfold finite?
  constructor
  · intro h
    split at h
    · cases h; exact ⟨rfl, by assumption⟩
    · cases h
  · rintro ⟨rfl, h⟩
    rw [if_pos h]

/-- The number nearest to an integer, if it is finite. -/
def ofInt? (i : Int) : Option Binary64 := (ofRatio (decide (i < 0)) i.natAbs 1).finite?

/-- Decimal exponents beyond this bound give zero or infinity whatever the digits. -/
def decimalBound : Int := 400

/-- The number nearest to `coefficient * 10 ^ exponent`, with a sign. -/
def ofDecimal (negative : Bool) (coefficient : Nat) (exponent : Int) : Binary64 :=
  if coefficient = 0 then ofRank negative 0
  else
    let size : Int := exponent + (Nat.toDigits 10 coefficient).length
    if decimalBound < size then .infinite negative
    else if size < -decimalBound then ofRank negative 0
    else if 0 ≤ exponent then ofRatio negative (coefficient * tenTo exponent.toNat) 1
    else ofRatio negative coefficient (tenTo (-exponent).toNat)

/-- The number nearest to the quotient of a number by a positive whole number. -/
def divideBy (x : Binary64) (den : Nat) : Binary64 :=
  match x with
  | .finite negative rank _ => ofRatio negative (unitsOfRank rank) (den * unitsInOne)
  | other => other

end Binary64

end ScanCatalog
