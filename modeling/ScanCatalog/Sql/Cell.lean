import ScanCatalog.Sql.Numeral
import ScanCatalog.Text.Numeral
import ScanCatalog.Value.Equality
import ScanCatalog.Fault

/-!
# Cells

What a column of a table holds. A number column makes a number of each text that
writes one, and keeps all numbers as binary64 numbers; a text column makes a text of
each number. Cells are ordered by sort, numbers before texts before byte strings, and
a cell that is null compares with nothing.

## Main definitions

* `Cell`, `Cell.toValue`: the contents of a column;
* `Cell.ofParameter`: the cell of a parameter of a statement;
* `Cell.asReal`, `Cell.asNumeric`, `Cell.asText`: what columns make of cells;
* `Cell.same`, `Cell.less`, `Cell.atMost`: comparisons of cells.
-/

namespace ScanCatalog

/-- What a column of a table holds. -/
inductive Cell
  | null
  | int (i : Int)
  | real (x : Binary64)
  | text (t : Text)
  | blob (octets : List Nat)
deriving DecidableEq, Repr

namespace Cell

/-- The value of a cell. -/
def toValue : Cell → Value
  | .null => .null
  | .int i => .int i
  | .real x => .float x
  | .text t => .text t
  | .blob octets => .bytes octets

/-- The integers that a cell can hold: those of 64 bits. -/
def holdsInt (i : Int) : Bool := -0x8000000000000000 ≤ i && i < 0x8000000000000000

/-- The cell of the parameter at a position. What is not a number is null. -/
def ofParameter (position : Nat) : Value → Except Fault Cell
  | .null => .ok .null
  | .bool b => .ok (.int (if b then 1 else 0))
  | .int i => if holdsInt i then .ok (.int i) else .error (.value .intTooWide)
  | .float .nan => .ok .null
  | .float x => .ok (.real x)
  | .text t =>
    match t.encodeFault? with
    | none => .ok (.text t)
    | some fault => .error (.value (.notEncodable fault))
  | .bytes octets => .ok (.blob octets)
  | v => .error (.driver ⟨.programmingError, [.text ("Error binding parameter " ++
      Text.ofNat position ++ ": type '" ++ v.kindName ++ "' is not supported")]⟩)

/-- The cells of parameters, the first of which is at a position. -/
def ofParameters (position : Nat) : List Value → Except Fault (List Cell)
  | [] => .ok []
  | v :: rest => do
    let cell ← ofParameter position v
    return cell :: (← ofParameters (position + 1) rest)

/-- The text between blanks of ASCII. -/
def trimmed (t : Text) : List Nat :=
  ((t.codes.dropWhile Numeral.isSpace).reverse.dropWhile Numeral.isSpace).reverse

/-- The number that a text writes: an integer of 64 bits if it can, else a binary64
number. -/
def numberOf? (t : Text) : Option Cell :=
  let (negative, body) := Numeral.spanSign (trimmed t)
  match Numeral.scanDecimal body with
  | some (coefficient, exponent, []) =>
    let i : Int := if negative then -(coefficient : Int) else coefficient
    if body.all Numeral.isDigit && holdsInt i then some (.int i)
    else some (.real (.ofColumnDecimal negative ⟨coefficient, exponent⟩))
  | _ => none

/-- A cell as a number if it is a text that writes one. -/
def asNumeric : Cell → Cell
  | .text t => (numberOf? t).getD (.text t)
  | cell => cell

/-- An integer as a binary64 number; those of 64 bits all have a finite one. -/
def realOfInt (i : Int) : Binary64 := .ofRatio (decide (i < 0)) i.natAbs 1

/-- What a number column holds for a cell. A zero has no sign there. -/
def asReal (cell : Cell) : Cell :=
  match cell.asNumeric with
  | .int i => .real (realOfInt i)
  | .real x => .real x.dropZeroSign
  | cell => cell

/-- Numbers in text columns: fifteen digits, positional from `0.0001` to below
`10 ^ 15`, always with a point. -/
def columnFormat : NumberFormat := ⟨-4, 15, true⟩

/-- The text of a number in a text column. -/
def textOfReal : Binary64 → Text
  | .nan => Text.empty
  | .infinite true => "-Inf"
  | .infinite false => "Inf"
  | .finite negative rank _ =>
    let magnitude : Text :=
      if rank = 0 then "0.0" else columnFormat.render (Binary64.columnDigits rank)
    if negative && rank != 0 then "-" ++ magnitude else magnitude

/-- What a text column holds for a cell. -/
def asText : Cell → Cell
  | .int i => .text (Text.ofInt i)
  | .real x => .text (textOfReal x)
  | cell => cell

/-- What a number cell amounts to. -/
def quantity? : Cell → Option Quantity
  | .int i => some (.units (i * Binary64.unitsInOne))
  | .real x => some x.quantity
  | _ => none

/-- The place of a cell among the sorts: numbers, texts, byte strings. -/
def sortRank : Cell → Nat
  | .null => 0
  | .int _ | .real _ => 1
  | .text _ => 2
  | .blob _ => 3

/-- Whether two cells hold the same; null is the same as nothing. -/
def same (a b : Cell) : Bool :=
  match a.quantity?, b.quantity? with
  | some p, some q => p.same q
  | none, none =>
    match a, b with
    | .text s, .text t => s == t
    | .blob s, .blob t => s == t
    | _, _ => false
  | _, _ => false

/-- Whether a cell comes before another; null has no place. -/
def less (a b : Cell) : Bool :=
  match a.quantity?, b.quantity? with
  | some p, some q => p.less q
  | _, _ =>
    match a, b with
    | .null, _ => false
    | _, .null => false
    | .text s, .text t => Text.codesPrecede s.toUtf8 t.toUtf8
    | .blob s, .blob t => Text.codesPrecede s t
    | a, b => a.sortRank < b.sortRank

/-- Whether a cell comes before another or holds the same. -/
def atMost (a b : Cell) : Bool := a.less b || a.same b

/-- Whether a cell is null. -/
def isNull : Cell → Bool
  | .null => true
  | _ => false

end Cell

end ScanCatalog
