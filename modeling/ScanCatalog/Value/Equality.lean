import ScanCatalog.Value.Basic

/-!
# Equality of values

Numbers are equal by what they amount to, whatever their kind, and booleans count
as 0 and 1; mappings are equal whatever the order of their entries; not-a-number
equals nothing.

## Main definitions

* `Value.quantity?`: what a number or boolean amounts to;
* `Value.same`: equality of values;
* `Value.isIn`: membership by that equality;
* `Entries.get?`, `Entries.set`, `Entries.erase`: entries by key.
-/

namespace ScanCatalog

namespace Value

/-- What a number or boolean amounts to. -/
def quantity? : Value → Option Quantity
  | .bool b => some (.units (if b then Binary64.unitsInOne else 0))
  | .int i => some (.units (i * Binary64.unitsInOne))
  | .float x => some x.quantity
  | _ => none

/-- Equality of values that hold no others. -/
def sameAtom (a b : Value) : Bool :=
  match a.quantity?, b.quantity? with
  | some p, some q => p.same q
  | none, none =>
    match a, b with
    | .null, .null => true
    | .text s, .text t => s == t
    | .bytes s, .bytes t => s == t
    | _, _ => false
  | _, _ => false

mutual

/-- Equality of values. -/
def same : Value → Value → Bool
  | .list xs, b => match b with
    | .list ys => sameList xs ys
    | _ => false
  | .map xs, b => match b with
    | .map ys => xs.length == ys.length && sameEntries xs ys
    | _ => false
  | .null, b => sameAtom .null b
  | .bool x, b => sameAtom (.bool x) b
  | .int x, b => sameAtom (.int x) b
  | .float x, b => sameAtom (.float x) b
  | .text x, b => sameAtom (.text x) b
  | .bytes x, b => sameAtom (.bytes x) b
termination_by structural a => a

/-- Equality of lists, item by item. -/
def sameList : List Value → List Value → Bool
  | [], ys => ys.isEmpty
  | x :: xs, ys => match ys with
    | [] => false
    | y :: ys => same x y && sameList xs ys
termination_by structural xs => xs

/-- Whether every entry of the first mapping has an equal one in the second. -/
def sameEntries : List (Value × Value) → List (Value × Value) → Bool
  | [], _ => true
  | (k, v) :: xs, ys =>
    (match ys.find? fun e => same k e.1 with
      | some e => same v e.2
      | none => false) && sameEntries xs ys
termination_by structural xs => xs

end

/-- Whether a value equals one of the items. -/
def isIn (v : Value) (items : List Value) : Bool := items.any fun item => v.same item

@[simp] theorem same_text (s t : Text) : (Value.text s).same (.text t) = (s == t) := rfl

@[simp] theorem same_float (x y : Binary64) : (Value.float x).same (.float y) = x.same y := rfl

end Value

namespace Entries

/-- The value under a key. -/
def get? (entries : Entries) (key : Value) : Option Value :=
  (entries.find? fun e => key.same e.1).map (·.2)

/-- The value under a key, null if there is none. -/
def get (entries : Entries) (key : Value) : Value := (entries.get? key).getD .null

/-- Whether there is an entry under a key. -/
def has (entries : Entries) (key : Value) : Bool := entries.any fun e => key.same e.1

/-- The entries with a value under a key: in the place of the old value if there is
one, else at the end. -/
def set : Entries → Value → Value → Entries
  | [], key, value => [(key, value)]
  | (k, v) :: rest, key, value =>
    if key.same k then (k, value) :: rest else (k, v) :: set rest key value

/-- The entries with all those of `changes` put in, in their order. -/
def update (entries changes : Entries) : Entries :=
  changes.foldl (fun acc e => acc.set e.1 e.2) entries

/-- The entries of the pairs of a list; the last value of a key counts, in the place
of its first. -/
def ofPairs (pairs : List (Value × Value)) : Entries := update [] pairs

/-- The entries without the one under a key. -/
def erase (entries : Entries) (key : Value) : Entries := entries.filter fun e => !key.same e.1

/-- The keys, in order. -/
def keys (entries : Entries) : List Value := entries.map (·.1)

@[simp] theorem get?_nil (key : Value) : get? [] key = none := rfl

theorem get?_cons (k v key : Value) (rest : Entries) :
    get? ((k, v) :: rest) key = if key.same k then some v else get? rest key := by
  cases h : key.same k <;> simp [get?, h]

@[simp] theorem has_nil (key : Value) : has [] key = false := rfl

theorem has_eq_isSome (entries : Entries) (key : Value) :
    entries.has key = (entries.get? key).isSome := by
  induction entries with
  | nil => rfl
  | cons e rest ih =>
    obtain ⟨k, v⟩ := e
    rw [get?_cons]
    cases h : key.same k <;> simp_all [has]

end Entries

end ScanCatalog
