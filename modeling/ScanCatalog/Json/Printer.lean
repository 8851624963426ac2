import ScanCatalog.Value.Show

/-!
# Writing JSON

A value is written as JSON in ASCII alone: other code points are escaped, those beyond
U+FFFF by two surrogates. Numbers that are not finite are written by their names, and
byte strings as the text that they are on display.

## Main definitions

* `Json.quoteText`: a text as a JSON string;
* `Json.write`: a value on one line;
* `Json.writeIndented`: a value with an item or entry a line.
-/

namespace ScanCatalog.Json

/-- The escape of a UTF-16 unit. -/
def unitEscape (unit : Nat) : List Nat := [92, 117] ++ (Text.hex 4 unit).codes

/-- How a code point is written in a JSON string. -/
def escapeCode (c : Nat) : List Nat :=
  if c = 34 then [92, 34]
  else if c = 92 then [92, 92]
  else if c = 10 then [92, 110]
  else if c = 13 then [92, 114]
  else if c = 9 then [92, 116]
  else if c = 8 then [92, 98]
  else if c = 12 then [92, 102]
  else if 32 ≤ c ∧ c < 127 then [c]
  else if c < 0x10000 then unitEscape c
  else
    unitEscape (0xD800 + (c - 0x10000) / 0x400) ++ unitEscape (0xDC00 + (c - 0x10000) % 0x400)

/-- A text as a JSON string. -/
def quoteText (t : Text) : Text := ⟨34 :: (t.codes.flatMap escapeCode ++ [34])⟩

/-- A number as JSON. -/
def writeReal : Binary64 → Text
  | .nan => "NaN"
  | .infinite false => "Infinity"
  | .infinite true => "-Infinity"
  | x => x.shown

/-- A value that holds no others as JSON. -/
def writeAtom : Value → Text
  | .null => "null"
  | .bool true => "true"
  | .bool false => "false"
  | .int i => Text.ofInt i
  | .float x => writeReal x
  | .text t => quoteText t
  | v => quoteText v.display

/-- A key of an object as JSON. -/
def writeKey : Value → Text
  | .text t => quoteText t
  | v => quoteText (writeAtom v)

/-- Items between an opening and a closing mark. -/
def enclose (opening closing separator : Text) (items : List Text) : Text :=
  if items.isEmpty then opening ++ closing
  else opening ++ Text.join separator items ++ closing

/-- The marks around the entries of an object. -/
def openObject : Text := "\x7b"

/-- The mark after the entries of an object. -/
def closeObject : Text := "\x7d"

mutual

/-- A value as JSON on one line. -/
def write : Value → Text
  | .list items => enclose "[" "]" ", " (writeItems items)
  | .map entries => enclose openObject closeObject ", " (writeEntries entries)
  | .null => writeAtom .null
  | .bool b => writeAtom (.bool b)
  | .int i => writeAtom (.int i)
  | .float x => writeAtom (.float x)
  | .text t => writeAtom (.text t)
  | .bytes octets => writeAtom (.bytes octets)
termination_by structural v => v

/-- The items of an array. -/
def writeItems : List Value → List Text
  | [] => []
  | v :: rest => write v :: writeItems rest
termination_by structural vs => vs

/-- The entries of an object. -/
def writeEntries : List (Value × Value) → List Text
  | [] => []
  | (k, v) :: rest => (writeKey k ++ ": " ++ write v) :: writeEntries rest
termination_by structural es => es

end

/-- The start of a line at a depth. -/
def lineAt (depth : Nat) : Text := ⟨10 :: List.replicate (2 * depth) 32⟩

/-- Items on lines of their own, one level below a depth. -/
def encloseLines (depth : Nat) (opening closing : Text) (items : List Text) : Text :=
  enclose (if items.isEmpty then opening else opening ++ lineAt (depth + 1))
    (if items.isEmpty then closing else lineAt depth ++ closing) ("," ++ lineAt (depth + 1)) items

mutual

/-- A value at a depth as JSON with an item or entry a line. -/
def writeAt (depth : Nat) : Value → Text
  | .list items => encloseLines depth "[" "]" (writeItemsAt (depth + 1) items)
  | .map entries => encloseLines depth openObject closeObject (writeEntriesAt (depth + 1) entries)
  | .null => writeAtom .null
  | .bool b => writeAtom (.bool b)
  | .int i => writeAtom (.int i)
  | .float x => writeAtom (.float x)
  | .text t => writeAtom (.text t)
  | .bytes octets => writeAtom (.bytes octets)
termination_by structural v => v

/-- The items of an array at a depth. -/
def writeItemsAt (depth : Nat) : List Value → List Text
  | [] => []
  | v :: rest => writeAt depth v :: writeItemsAt depth rest
termination_by structural vs => vs

/-- The entries of an object at a depth. -/
def writeEntriesAt (depth : Nat) : List (Value × Value) → List Text
  | [] => []
  | (k, v) :: rest => (writeKey k ++ ": " ++ writeAt depth v) :: writeEntriesAt depth rest
termination_by structural es => es

end

/-- A value as JSON with an item or entry a line, indented by its depth. -/
def writeIndented (v : Value) : Text := writeAt 0 v

example : write (.list [.int 1, "é", .map []]) = "[1, \"\\u00e9\", \x7b\x7d]" := by
  decide

end ScanCatalog.Json
