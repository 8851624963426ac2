import ScanCatalog.Text.Basic
import ScanCatalog.Text.Edges

/-!
# Lines

Lines are written with a line feed after each. They are read more broadly: a carriage
return, a form feed, a separator or a line break of Unicode ends a line too, and a
carriage return with a line feed after it is one end.

## Main definitions

* `Text.lines`: texts as lines;
* `Text.lastLine`: the last line of a text;
* `Text.unifyLineEnds`: a text whose line ends are line feeds.
-/

namespace ScanCatalog.Text

/-- The texts as lines, each with its line feed. -/
def lines (texts : List Text) : Text := ⟨texts.flatMap fun t => t.codes ++ [10]⟩

/-- The edges of the code points that end a line. -/
def lineEdges : List Nat := [10, 14, 28, 31, 133, 134, 8232, 8234]

/-- Whether a code point ends a line. -/
def endsLine (c : Nat) : Bool := Edges.holds lineEdges c

/-- The code points of a text from the last one back, without the line end there. -/
def dropLineEnd : List Nat → List Nat
  | [] => []
  | 10 :: 13 :: rest => rest
  | c :: rest => if endsLine c then rest else c :: rest

/-- The last line of a text, which may have a line end. -/
def lastLine (t : Text) : Text :=
  ⟨((dropLineEnd t.codes.reverse).takeWhile fun c => !endsLine c).reverse⟩

/-- The code points with each carriage return, and a line feed after it, as a line
feed. -/
def unifyLineEnds : List Nat → List Nat
  | [] => []
  | [13] => [10]
  | 13 :: c :: rest => if c = 10 then 10 :: unifyLineEnds rest else 10 :: unifyLineEnds (c :: rest)
  | c :: rest => c :: unifyLineEnds rest

example : lastLine "a\nb\n" = "b" := by decide
example : lastLine "a\x0c\n" = "" := by decide

end ScanCatalog.Text
