import ScanCatalog.Fault
import ScanCatalog.Text.Blank

/-!
# Bodies of requests

A request carries records or a query as bytes, as a text or as a value that has been
read already. Bytes are read as UTF-8 and texts as JSON; numbers that are not finite
are refused by their names.

## Main definitions

* `decodeText`, `decodeStored`: the value of a JSON text, sent or kept;
* `decodeJson`: the value of a body, whatever form it has;
* `decodeRecords`: the records of a body;
* `decodeQuery`: the filter of a query; an empty query matches everything.
-/

namespace ScanCatalog

/-- The text of bytes or the fault in them, as a fault of the given sort. -/
def decodeUtf8 (sort : DecodeFault → Fault) (octets : List Nat) : Except Fault Text :=
  match Text.ofUtf8 octets with
  | .ok t => .ok t
  | .error fault => .error (sort (.notUtf8 fault))

/-- The value of a JSON text, with faults of the given sort. An integer numeral that is
too long and containers too deep are faults of their own. -/
def decodeText (sort : DecodeFault → Fault) (t : Text) : Except Fault Value :=
  match Json.read false t with
  | .ok v => .ok v
  | .error (.malformed cause place) => .error (sort (.notJson ⟨cause, place⟩))
  | .error (.constant name) => .error (sort (.constant name))
  | .error (.tooManyDigits digits) => .error (.value (.tooManyDigits digits))
  | .error (.tooDeep container) => .error (.value (.tooDeep container.name))

/-- The value of a JSON text that is kept in a file or sent as an answer. Constants are
allowed there, so none is refused; an integer numeral that is too long and containers
too deep are faults of their own. -/
def decodeStored (sort : Json.Malformation → Fault) (t : Text) : Except Fault Value :=
  match Json.read true t with
  | .ok v => .ok v
  | .error (.malformed cause place) => .error (sort ⟨cause, place⟩)
  | .error (.constant _) => .error (sort ⟨.expectingValue, Json.placeOf t.codes 0⟩)
  | .error (.tooManyDigits digits) => .error (.value (.tooManyDigits digits))
  | .error (.tooDeep container) => .error (.value (.tooDeep container.name))

/-- The value of a body: bytes and texts are read, other values stand for themselves. -/
def decodeJson (sort : DecodeFault → Fault) : Value → Except Fault Value
  | .bytes octets => do decodeText sort (← decodeUtf8 sort octets)
  | .text t => decodeText sort t
  | v => .ok v

/-- The records of the items of an array, the first of which has the given position. -/
def recordsOfItems (position : Nat) : List Value → Except Fault (List Entries)
  | [] => .ok []
  | .map entries :: rest => do return entries :: (← recordsOfItems (position + 1) rest)
  | item :: _ => .error (.request (.badItem position item.kindName))

/-- The records of a decoded body: one object, or an array of objects. -/
def recordsOf : Value → Except Fault (List Entries)
  | .map entries => .ok [entries]
  | .list items => recordsOfItems 0 items
  | v => .error (.request (.badKind v.kindName))

/-- The records of a body. -/
def decodeRecords (body : Value) : Except Fault (List Entries) := do
  recordsOf (← decodeJson (fun fault => .request (.undecodable fault)) body)

/-- The filter of a query in a text; a blank text matches everything. -/
def decodeQueryText (t : Text) : Except Fault Value :=
  if t.isBlank then .ok (.map [])
  else decodeText (fun fault => .filter (.undecodable fault)) t

/-- The filter of a query; null and a blank text match everything. -/
def decodeQuery (query : Value) : Except Fault Entries := do
  let decoded ← match query with
    | .null => .ok (.map [])
    | .bytes octets => do
      decodeQueryText (← decodeUtf8 (fun fault => .filter (.undecodable fault)) octets)
    | .text t => decodeQueryText t
    | v => .ok v
  match decoded with
  | .map entries => .ok entries
  | v => .error (.filter (.queryNotObject v.kindName))

end ScanCatalog
