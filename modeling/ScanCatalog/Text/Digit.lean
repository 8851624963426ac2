/-!
# Decimal digits

The decimal digits of Unicode 14.0 come in blocks of ten neighbours, zero first.
Numbers may be written with the digits of any of these blocks.
-/

namespace ScanCatalog.Text

/-- The zero of each block of decimal digits. -/
def digitZeros : List Nat := [
    48, 1632, 1776, 1984, 2406, 2534, 2662, 2790, 2918, 3046, 3174, 3302, 3430, 3558, 3664, 3792,
    3872, 4160, 4240, 6112, 6160, 6470, 6608, 6784, 6800, 6992, 7088, 7232, 7248, 42528, 43216,
    43264, 43472, 43504, 43600, 44016, 65296, 66720, 68912, 69734, 69872, 69942, 70096, 70384,
    70736, 70864, 71248, 71360, 71472, 71904, 72016, 72784, 73040, 73120, 92768, 92864, 93008,
    120782, 120792, 120802, 120812, 120822, 123200, 123632, 125264, 130032]

/-- The value of a decimal digit, or nothing for another code point. -/
def digitValue? (c : Nat) : Option Nat :=
  (digitZeros.find? fun origin => origin ≤ c && c < origin + 10).map (c - ·)

/-- The value of a hexadecimal digit in either case. -/
def hexDigit? (c : Nat) : Option Nat :=
  if 48 ≤ c ∧ c < 58 then some (c - 48)
  else if 97 ≤ c ∧ c < 103 then some (c - 87)
  else if 65 ≤ c ∧ c < 71 then some (c - 55)
  else none

end ScanCatalog.Text
