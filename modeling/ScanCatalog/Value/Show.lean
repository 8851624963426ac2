import ScanCatalog.Binary64.Shortest
import ScanCatalog.Text.Quoted
import ScanCatalog.Value.Basic

/-!
# Values in messages

A value stands in a message either as a *literal*, with its texts between quotes, or
on *display*, where a text stands for itself.

## Main definitions

* `Value.literal`: the value with its texts between quotes;
* `Value.display`: the value as a text;
* `Value.literalItems`, `Value.literalEntries`: the inside of a list or a mapping;
* `Text.literalList`: a list of texts.
-/

namespace ScanCatalog

namespace Value

/-- What stands between the items of a list and between the entries of a mapping. -/
def itemSeparator : Text := ", "

mutual

/-- The value with its texts between quotes. -/
def literal : Value → Text
  | .null => "None"
  | .bool true => "True"
  | .bool false => "False"
  | .int i => Text.ofInt i
  | .float x => x.shown
  | .text t => t.quoted
  | .bytes octets => Text.quotedBytes octets
  | .list items => "[" ++ Text.join itemSeparator (literalItems items) ++ "]"
  | .map entries => "\x7b" ++ Text.join itemSeparator (literalEntries entries) ++ "\x7d"
termination_by structural v => v

/-- The literals of the items of a list. -/
def literalItems : List Value → List Text
  | [] => []
  | v :: rest => literal v :: literalItems rest
termination_by structural vs => vs

/-- The literals of the entries of a mapping. -/
def literalEntries : List (Value × Value) → List Text
  | [] => []
  | (k, v) :: rest => (literal k ++ ": " ++ literal v) :: literalEntries rest
termination_by structural es => es

end

/-- The value as a text: a text stands for itself, all else as a literal. -/
def display : Value → Text
  | .text t => t
  | v => v.literal

/-- The items of a list that cannot change, as a literal: between parentheses, with a
comma after a single one. -/
def literalRow : List Value → Text
  | [v] => "(" ++ v.literal ++ ",)"
  | items => "(" ++ Text.join itemSeparator (literalItems items) ++ ")"

@[simp] theorem display_text (t : Text) : (Value.text t).display = t := rfl

example : (Value.map [("a", .list [.int 1, .null])]).literal = "\x7b'a': [1, None]\x7d" := by
  decide

end Value

/-- A list of texts as a literal. -/
def Text.literalList (texts : List Text) : Text := (Value.list (texts.map Value.text)).literal

end ScanCatalog
