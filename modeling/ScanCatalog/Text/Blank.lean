import ScanCatalog.Text.Basic
import ScanCatalog.Text.Edges

/-!
# Blanks

The code points that count as white space at the ends of a text: the Unicode
white space together with the four information separators U+001C to U+001F.

## Main definitions

* `Text.isBlankCode`: one code point;
* `Text.strip`: a text without the blanks at its ends.
-/

namespace ScanCatalog.Text

/-- The edges of the blanks. -/
def blankEdges : List Nat :=
  [9, 14, 28, 33, 133, 134, 160, 161, 5760, 5761, 8192, 8203, 8232, 8234, 8239, 8240, 8287, 8288,
   12288, 12289]

/-- Whether a code point is a blank. -/
def isBlankCode (c : Nat) : Bool := Edges.holds blankEdges c

/-- A code point sequence without the blanks at its ends. -/
def stripCodes (codes : List Nat) : List Nat :=
  ((codes.dropWhile isBlankCode).reverse.dropWhile isBlankCode).reverse

/-- The text without the blanks at its ends. -/
def strip (t : Text) : Text := ⟨stripCodes t.codes⟩

/-- Whether the text holds blanks only. -/
def isBlank (t : Text) : Bool := t.codes.all isBlankCode

end ScanCatalog.Text
