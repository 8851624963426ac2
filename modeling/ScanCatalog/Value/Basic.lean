import ScanCatalog.Binary64.Basic
import ScanCatalog.Text.Basic

/-!
# Values

The data that records, filters and schemas are made of. Integers are unbounded and
differ from binary64 numbers, and a mapping keeps the order of its entries. Keys of
a mapping are values; those that come from JSON are texts.

## Main definitions

* `Value`, and `Entries` for the entries of a mapping;
* `Value.kindName`, `Value.truth`, `Value.isScalar`, `Value.isNumber`;
* decidable equality of values, which tells `1` from `1.0` and reads the order of
  entries. The equality that the rules of the catalog use is `Value.same`.
-/

namespace ScanCatalog

/-- A datum. -/
inductive Value
  | null
  | bool (b : Bool)
  | int (i : Int)
  | float (x : Binary64)
  | text (t : Text)
  | bytes (octets : List Nat)
  | list (items : List Value)
  | map (entries : List (Value × Value))
deriving Inhabited, Repr

/-- The entries of a mapping, in order. -/
abbrev Entries := List (Value × Value)

namespace Value

instance : Coe String Value := ⟨fun s => .text s⟩

/-- The name of the kind of a value, as messages give it. -/
def kindName : Value → Text
  | .null => "NoneType"
  | .bool _ => "bool"
  | .int _ => "int"
  | .float _ => "float"
  | .text _ => "str"
  | .bytes _ => "bytes"
  | .list _ => "list"
  | .map _ => "dict"

/-- Whether a value counts as true: all but null, false, zeros and what is empty. -/
def truth : Value → Bool
  | .null => false
  | .bool b => b
  | .int i => i != 0
  | .float x => !x.same .zero
  | .text t => !t.isEmpty
  | .bytes octets => !octets.isEmpty
  | .list items => !items.isEmpty
  | .map entries => !entries.isEmpty

/-- Null, booleans, numbers and texts. -/
def isScalar : Value → Bool
  | .null | .bool _ | .int _ | .float _ | .text _ => true
  | .bytes _ | .list _ | .map _ => false

/-- Integers and binary64 numbers; booleans are not numbers here. -/
def isNumber : Value → Bool
  | .int _ | .float _ => true
  | _ => false

/-- Whether the value can be a key of a mapping or a member of a set. -/
def isHashable : Value → Bool
  | .list _ | .map _ => false
  | _ => true

/-- Whether the value is null. -/
def isNull : Value → Bool
  | .null => true
  | _ => false

/-- The entries of a mapping. -/
def entries? : Value → Option Entries
  | .map entries => some entries
  | _ => none

mutual

/-- Decides whether two values are equal in every detail. -/
def decEq : (a b : Value) → Decidable (a = b)
  | .null, b => match b with
    | .null => isTrue rfl
    | .bool _ | .int _ | .float _ | .text _ | .bytes _ | .list _ | .map _ => isFalse (by simp)
  | .bool x, b => match b with
    | .bool y => if h : x = y then isTrue (by rw [h]) else isFalse (by simp [h])
    | .null | .int _ | .float _ | .text _ | .bytes _ | .list _ | .map _ => isFalse (by simp)
  | .int x, b => match b with
    | .int y => if h : x = y then isTrue (by rw [h]) else isFalse (by simp [h])
    | .null | .bool _ | .float _ | .text _ | .bytes _ | .list _ | .map _ => isFalse (by simp)
  | .float x, b => match b with
    | .float y => if h : x = y then isTrue (by rw [h]) else isFalse (by simp [h])
    | .null | .bool _ | .int _ | .text _ | .bytes _ | .list _ | .map _ => isFalse (by simp)
  | .text x, b => match b with
    | .text y => if h : x = y then isTrue (by rw [h]) else isFalse (by simp [h])
    | .null | .bool _ | .int _ | .float _ | .bytes _ | .list _ | .map _ => isFalse (by simp)
  | .bytes x, b => match b with
    | .bytes y => if h : x = y then isTrue (by rw [h]) else isFalse (by simp [h])
    | .null | .bool _ | .int _ | .float _ | .text _ | .list _ | .map _ => isFalse (by simp)
  | .list xs, b => match b with
    | .list ys => match decEqList xs ys with
      | .isTrue h => .isTrue (by rw [h])
      | .isFalse h => .isFalse (by simp [h])
    | .null | .bool _ | .int _ | .float _ | .text _ | .bytes _ | .map _ => isFalse (by simp)
  | .map xs, b => match b with
    | .map ys => match decEqEntries xs ys with
      | .isTrue h => .isTrue (by rw [h])
      | .isFalse h => .isFalse (by simp [h])
    | .null | .bool _ | .int _ | .float _ | .text _ | .bytes _ | .list _ => isFalse (by simp)
termination_by structural a => a

/-- Decides whether two lists of values are equal in every detail. -/
def decEqList : (xs ys : List Value) → Decidable (xs = ys)
  | [], ys => match ys with
    | [] => .isTrue rfl
    | _ :: _ => .isFalse (by simp)
  | x :: xs, ys => match ys with
    | [] => .isFalse (by simp)
    | y :: ys => match decEq x y, decEqList xs ys with
      | .isTrue h, .isTrue t => .isTrue (by rw [h, t])
      | .isFalse h, _ => .isFalse (by simp [h])
      | _, .isFalse t => .isFalse (by simp [t])
termination_by structural xs => xs

/-- Decides whether two lists of entries are equal in every detail. -/
def decEqEntries : (xs ys : List (Value × Value)) → Decidable (xs = ys)
  | [], ys => match ys with
    | [] => .isTrue rfl
    | _ :: _ => .isFalse (by simp)
  | (k, v) :: xs, ys => match ys with
    | [] => .isFalse (by simp)
    | (l, w) :: ys => match decEq k l, decEq v w, decEqEntries xs ys with
      | .isTrue h, .isTrue g, .isTrue t => .isTrue (by rw [h, g, t])
      | .isFalse h, _, _ => .isFalse (by simp [h])
      | _, .isFalse h, _ => .isFalse (by simp [h])
      | _, _, .isFalse t => .isFalse (by simp [t])
termination_by structural xs => xs

end

instance : DecidableEq Value := decEq

end Value

end ScanCatalog
