import ScanCatalog.Binary64.Rounding
import ScanCatalog.Text.Basic

/-!
# Decimal texts of binary64 numbers

A number is written with the fewest significant digits that read back to it, and
with the nearest such digits. Where the point goes and when an exponent is written
is a `NumberFormat`.

## Main definitions

* `Decimal`: a coefficient and a power of ten;
* `Binary64.shortest`: the shortest decimal that reads back to a magnitude;
* `NumberFormat.render`: the text of a decimal in a format;
* `Binary64.shown`: the text of a number in messages and JSON.
-/

namespace ScanCatalog

/-- The decimal `coefficient * 10 ^ exponent`. -/
structure Decimal where
  coefficient : Nat
  exponent : Int
deriving DecidableEq, Repr

namespace Decimal

/-- The same decimal without trailing zeros, up to `fuel` of them. -/
def trimZeros : Nat → Decimal → Decimal
  | 0, d => d
  | fuel + 1, d =>
    if d.coefficient ≠ 0 ∧ d.coefficient % 10 = 0 then
      trimZeros fuel ⟨d.coefficient / 10, d.exponent + 1⟩
    else d

end Decimal

namespace Binary64

/-- Whether `10 ^ e ≤ num / den`. -/
def reachesPower (num den : Nat) (e : Int) : Bool :=
  if 0 ≤ e then tenTo e.toNat * den ≤ num else den ≤ num * tenTo (-e).toNat

/-- The power of ten of the leading digit of `num / den`. The bit lengths give it
up to one. -/
def leadingPower (num den : Nat) : Int :=
  let guess := (((num.log2 : Int) - den.log2) * 30103).fdiv 100000
  if reachesPower num den (guess + 1) then guess + 1
  else if reachesPower num den guess then guess
  else guess - 1

/-- The quotient `num / den` in multiples of `10 ^ p`, as a fraction. -/
def onGrid (num den : Nat) (p : Int) : Nat × Nat :=
  if 0 ≤ p then (num, den * tenTo p.toNat) else (num * tenTo (-p).toNat, den)

/-- The multiple of `10 ^ p` next to `num / den` that reads back to `rank`: the
nearer one if both neighbours do. -/
def gridPoint? (rank num den : Nat) (p : Int) : Option Nat :=
  let (top, bottom) := onGrid num den p
  let low := top / bottom
  let readsBack := fun c => ofDecimal false c p == ofRank false rank
  match readsBack low, readsBack (low + 1) with
  | true, true => some (roundHalfEven top bottom)
  | true, false => some low
  | false, true => some (low + 1)
  | false, false => none

/-- Tries the grids of `power`, `power - 1`, … in turn. -/
def shortestFrom (rank num den : Nat) : Nat → Int → Decimal
  | 0, p => ⟨num * tenTo (-p).toNat / den, p⟩
  | fuel + 1, p =>
    match gridPoint? rank num den p with
    | some c => ⟨c, p⟩
    | none => shortestFrom rank num den fuel (p - 1)

/-- The shortest decimal that reads back to the magnitude of a rank. Seventeen
digits are always enough. -/
def shortest (rank : Nat) : Decimal :=
  let num := unitsOfRank rank
  let den := unitsInOne
  (shortestFrom rank num den 17 (leadingPower num den)).trimZeros 17

end Binary64

/-- How a decimal is laid out. Numbers whose leading digit stands for a power of
ten from `positionalFrom` to below `positionalBelow` have a point and no exponent;
all others have an exponent of at least two digits. -/
structure NumberFormat where
  positionalFrom : Int
  positionalBelow : Int
  /-- whether a coefficient of one digit has `.0` before an exponent -/
  pointBeforeExponent : Bool

namespace NumberFormat

/-- The exponent part: `e`, the sign and at least two digits. -/
def exponentPart (e : Int) : Text :=
  let digits := Text.ofNat e.natAbs
  (if e < 0 then "e-" else "e+") ++ (if digits.length < 2 then "0" ++ digits else digits)

/-- The text of a decimal whose coefficient is not zero. -/
def render (format : NumberFormat) (d : Decimal) : Text :=
  let digits := (Text.ofNat d.coefficient).codes
  let count : Int := digits.length
  let power := d.exponent + count - 1
  if format.positionalFrom ≤ power ∧ power < format.positionalBelow then
    if power < 0 then ⟨[48, 46] ++ List.replicate (-power - 1).toNat 48 ++ digits⟩
    else if count - 1 ≤ power then
      ⟨digits ++ List.replicate (power - count + 1).toNat 48 ++ [46, 48]⟩
    else ⟨digits.take (power + 1).toNat ++ [46] ++ digits.drop (power + 1).toNat⟩
  else
    let fraction := digits.drop 1
    let point :=
      if fraction.isEmpty then (if format.pointBeforeExponent then [46, 48] else [])
      else 46 :: fraction
    ⟨digits.take 1 ++ point⟩ ++ exponentPart power

end NumberFormat

namespace Binary64

/-- Numbers in messages and JSON: positional from `0.0001` to below `10 ^ 16`. -/
def messageFormat : NumberFormat := ⟨-4, 16, false⟩

/-- The text of a number by the shortest decimal that reads back to it. -/
def shown : Binary64 → Text
  | .nan => "nan"
  | .infinite true => "-inf"
  | .infinite false => "inf"
  | .finite negative rank _ =>
    let magnitude : Text := if rank = 0 then "0.0" else messageFormat.render (shortest rank)
    if negative then "-" ++ magnitude else magnitude

example : (ofDecimal false 1 (-1)).shown = "0.1" := by decide +kernel
example : (ofDecimal false 5 (-324)).shown = "5e-324" := by decide +kernel
example : (ofDecimal true 1 16).shown = "-1e+16" := by decide +kernel
example : (ofDecimal false 123456789125 (-3)).shown = "123456789.125" := by decide +kernel

end Binary64

end ScanCatalog
