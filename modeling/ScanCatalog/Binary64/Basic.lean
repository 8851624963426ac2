/-!
# Binary64 numbers

The numbers of the IEEE 754 format with 64 bits, as exact data. A finite number is
its sign and its *rank*: the position of its magnitude among all finite magnitudes,
which is also the pattern of its low 63 bits. Ranks and magnitudes grow together,
so the next greater number is the next rank. Magnitudes are whole numbers of
*units* of `2 ^ -1074`.

## Main definitions

* `Binary64`: not-a-number, the two infinities and the finite numbers;
* `Binary64.units`: a finite number as a whole number of units;
* `Quantity`: an extended number of units, in which numbers of all kinds compare;
* `Binary64.next`: the least number above a given one.
-/

namespace ScanCatalog

/-- A power of two. -/
def twoTo (n : Nat) : Nat := Nat.pow 2 n

/-- The number of finite magnitudes: the pattern of infinity. -/
abbrev Binary64.rankBound : Nat := 0x7FF0000000000000

/-- The number of magnitudes in a binade. -/
abbrev Binary64.binadeSize : Nat := 0x10000000000000

/-- The units in one. -/
def Binary64.unitsInOne : Nat := twoTo 1074

/-- A binary64 number. -/
inductive Binary64
  /-- not a number -/
  | nan
  /-- an infinity -/
  | infinite (negative : Bool)
  /-- a finite number of the given sign and rank -/
  | finite (negative : Bool) (rank : Nat) (rank_lt : rank < Binary64.rankBound)
deriving DecidableEq, Repr

/-- A number on the line from minus to plus infinity, in units of `2 ^ -1074`, or
not a number. -/
inductive Quantity
  | nan
  | below
  | units (n : Int)
  | above
deriving DecidableEq, Repr

theorem twoTo_pos (n : Nat) : 0 < twoTo n := Nat.two_pow_pos n

theorem twoTo_succ (n : Nat) : twoTo (n + 1) = twoTo n * 2 := Nat.pow_succ 2 n

namespace Quantity

/-- Equality of numbers; what is not a number equals nothing. -/
def same : Quantity → Quantity → Bool
  | .below, .below => true
  | .units a, .units b => a == b
  | .above, .above => true
  | _, _ => false

/-- The strict order of numbers; what is not a number has no place in it. -/
def less : Quantity → Quantity → Bool
  | .nan, _ => false
  | _, .nan => false
  | .below, .below => false
  | .below, _ => true
  | _, .below => false
  | .above, _ => false
  | _, .above => true
  | .units a, .units b => decide (a < b)

/-- The order of numbers. -/
def atMost (a b : Quantity) : Bool := a.less b || a.same b

theorem same_comm (a b : Quantity) : a.same b = b.same a := by
  cases a <;> cases b <;> simp [same, Bool.beq_comm]

theorem same_iff {a b : Quantity} : a.same b = true ↔ a = b ∧ a ≠ .nan := by
  cases a <;> cases b <;> simp [same]

theorem less_irrefl (a : Quantity) : a.less a = false := by
  cases a <;> simp [less]

theorem less_trans {a b c : Quantity} (h₁ : a.less b = true) (h₂ : b.less c = true) :
    a.less c = true := by
  cases a <;> cases b <;> cases c <;> simp_all [less]
  omega

end Quantity

namespace Binary64

/-- The units of the magnitude of a rank: a fraction of 52 bits, below the lowest
binade as it is and above it with a leading one and the binade's scale. -/
def unitsOfRank (rank : Nat) : Nat :=
  let binade := rank / binadeSize
  let fraction := rank % binadeSize
  if binade = 0 then fraction else (binadeSize + fraction) * twoTo (binade - 1)

/-- Positive zero. -/
def zero : Binary64 := .finite false 0 (by decide)

/-- The number in exact units. -/
def quantity : Binary64 → Quantity
  | .nan => .nan
  | .infinite true => .below
  | .infinite false => .above
  | .finite true rank _ => .units (-(unitsOfRank rank : Int))
  | .finite false rank _ => .units (unitsOfRank rank)

/-- Equality of numbers: the zeros are equal, and what is not a number equals
nothing. -/
def same (a b : Binary64) : Bool := a.quantity.same b.quantity

/-- The strict order of numbers. -/
def less (a b : Binary64) : Bool := a.quantity.less b.quantity

/-- The order of numbers. -/
def atMost (a b : Binary64) : Bool := a.quantity.atMost b.quantity

/-- Whether the number is neither infinite nor not a number. -/
def isFinite : Binary64 → Bool
  | .finite .. => true
  | _ => false

/-- Negative zero becomes positive; all other numbers stay. -/
def dropZeroSign : Binary64 → Binary64
  | .finite true 0 h => .finite false 0 h
  | x => x

/-- The finite number of a sign and a rank, or the infinity of that sign if the
rank is too great. -/
def ofRank (negative : Bool) (rank : Nat) : Binary64 :=
  if h : rank < rankBound then .finite negative rank h else .infinite negative

/-- The least number above `x`; plus infinity and what is not a number stay. -/
def next : Binary64 → Binary64
  | .nan => .nan
  | .infinite false => .infinite false
  | .infinite true => .finite true (rankBound - 1) (by decide)
  | .finite false rank _ => ofRank false (rank + 1)
  | .finite true 0 _ => ofRank false 1
  | .finite true (rank + 1) h => .finite true rank (by omega)

theorem unitsOfRank_lt_succ (rank : Nat) : unitsOfRank rank < unitsOfRank (rank + 1) := by
  unfold unitsOfRank binadeSize
  by_cases carry : rank % 0x10000000000000 = 0xFFFFFFFFFFFFF
  · have hd : (rank + 1) / 0x10000000000000 = rank / 0x10000000000000 + 1 := by omega
    have hm : (rank + 1) % 0x10000000000000 = 0 := by omega
    rw [hd, hm, carry, if_neg (Nat.succ_ne_zero _), Nat.add_sub_cancel, Nat.add_zero]
    cases rank / 0x10000000000000 with
    | zero => decide
    | succ k =>
      rw [if_neg (Nat.succ_ne_zero _), Nat.add_sub_cancel, twoTo_succ k]
      have positive : 0 < twoTo k := twoTo_pos k
      omega
  · have hd : (rank + 1) / 0x10000000000000 = rank / 0x10000000000000 := by omega
    have hm : (rank + 1) % 0x10000000000000 = rank % 0x10000000000000 + 1 := by omega
    rw [hd, hm]
    dsimp only
    split
    · omega
    · exact Nat.mul_lt_mul_of_pos_right (by omega) (twoTo_pos _)

/-- Greater ranks have greater magnitudes. -/
theorem unitsOfRank_lt {a b : Nat} (h : a < b) : unitsOfRank a < unitsOfRank b := by
  induction h with
  | refl => exact unitsOfRank_lt_succ a
  | step _ ih => exact Nat.lt_trans ih (unitsOfRank_lt_succ _)

end Binary64

end ScanCatalog
