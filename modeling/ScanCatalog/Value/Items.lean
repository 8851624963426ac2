import ScanCatalog.Value.Equality
import ScanCatalog.Value.Fault

/-!
# The items of values

A list has items, a text its code points, a byte string its octets, and a mapping its
keys. Entries can be changed by anything whose items are pairs, and a value can be
looked for in anything that has items.

## Main definitions

* `Value.items`: the items of a value;
* `Value.isMember`: whether a value is in another;
* `Entries.merge`: entries changed by a mapping or by pairs.
-/

namespace ScanCatalog

namespace Value

/-- The items of a value. -/
def items : Value → Except ValueFault (List Value)
  | .list items => .ok items
  | .text t => .ok (t.codes.map fun c => .text (Text.single c))
  | .bytes octets => .ok (octets.map fun (octet : Nat) => .int octet)
  | .map entries => .ok (Entries.keys entries)
  | v => .error (.notIterable v.kindName)

/-- Whether a value is in a byte string: an octet, or a byte string that is a run of
it. -/
def isInBytes (v : Value) (octets : List Nat) : Except ValueFault Bool :=
  let asOctet := fun (i : Int) =>
    if 0 ≤ i ∧ i < 256 then .ok (octets.contains i.toNat) else .error .octetOutOfRange
  match v with
  | .int i => asOctet i
  | .bool b => asOctet (if b then 1 else 0)
  | .bytes part => .ok (Text.occurs part octets)
  | v => .error (.notBytes v.kindName)

/-- Whether a value is in another: an item of a list, a part of a text or a byte string,
or a key of a mapping. -/
def isMember (v : Value) : Value → Except ValueFault Bool
  | .list items => .ok (v.isIn items)
  | .text t =>
    match v with
    | .text part => .ok (t.contains part)
    | v => .error (.notInText v.kindName)
  | .bytes octets => isInBytes v octets
  | .map entries =>
    if v.isHashable then .ok (Entries.has entries v) else .error (.unhashable v.kindName)
  | container => .error (.notContainer container.kindName)

/-- The fault of asking a value that is no text whether it begins with a text. -/
def startFault : Value → ValueFault
  | .bytes _ => .notTextStart
  | v => .noMember v.kindName "startswith"

/-- The fault of cutting a value that is no text at a text. -/
def cutFault : Value → ValueFault
  | .bytes _ => .notBytes "str"
  | v => .noMember v.kindName "split"

/-- The pair that the item of a sequence at an index makes. -/
def pairOf (index : Nat) (item : Value) : Except ValueFault (Value × Value) :=
  match item.items with
  | .error _ => .error (.notSequence index)
  | .ok [k, v] => if k.isHashable then .ok (k, v) else .error (.unhashable k.kindName)
  | .ok items => .error (.notPair index items.length)

end Value

namespace Entries

/-- The entries with pairs put in, the first of which has the given index, and the fault
that stopped it, if any. -/
def mergePairs (index : Nat) (entries : Entries) : List Value → Entries × Option ValueFault
  | [] => (entries, none)
  | item :: rest =>
    match Value.pairOf index item with
    | .ok (k, v) => mergePairs (index + 1) (entries.set k v) rest
    | .error fault => (entries, some fault)

/-- The entries with those of a mapping, or the pairs that are the items of a value, put
in. The fault that stopped it, if any, leaves in what came before. -/
def merge (entries : Entries) : Value → Entries × Option ValueFault
  | .map changes => (entries.update changes, none)
  | v =>
    match v.items with
    | .ok items => mergePairs 0 entries items
    | .error fault => (entries, some fault)

/-- The entries that a mapping or pairs make. -/
def ofValue (v : Value) : Except ValueFault Entries :=
  match merge [] v with
  | (entries, none) => .ok entries
  | (_, some fault) => .error fault

end Entries

end ScanCatalog
