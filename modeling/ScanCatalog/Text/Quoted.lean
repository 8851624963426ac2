import ScanCatalog.Text.Basic
import ScanCatalog.Text.Printable

/-!
# Quoted texts

How a text or a byte sequence is shown inside a message: between quotes, with the
quote that needs no escape if there is one, and with every code point that does
not print written as an escape.

## Main definitions

* `Text.quoted`: a text between quotes;
* `Text.quotedBytes`: a byte sequence between quotes, after `b`.
-/

namespace ScanCatalog.Text

/-- The quote around a sequence: `"` if `'` occurs in it and `"` does not, else `'`. -/
def quoteFor (codes : List Nat) : Nat :=
  if codes.contains 39 && !codes.contains 34 then 34 else 39

/-- The escapes with a letter of their own. -/
def namedEscape? : Nat → Option (List Nat)
  | 9 => some [92, 116]
  | 10 => some [92, 110]
  | 13 => some [92, 114]
  | _ => none

/-- The escape of a code point by its number, with the shortest of three widths. -/
def numberEscape (c : Nat) : List Nat :=
  if c < 0x100 then [92, 120] ++ (hex 2 c).codes
  else if c < 0x10000 then [92, 117] ++ (hex 4 c).codes
  else [92, 85] ++ (hex 8 c).codes

/-- How a code point is written between the quotes `quote`. -/
def escape (printable : Nat → Bool) (quote c : Nat) : List Nat :=
  if c = quote ∨ c = 92 then [92, c]
  else
    match namedEscape? c with
    | some escaped => escaped
    | none => if printable c then [c] else numberEscape c

/-- The sequence between its quotes. -/
def quotedCodes (printable : Nat → Bool) (codes : List Nat) : List Nat :=
  let quote := quoteFor codes
  [quote] ++ codes.flatMap (escape printable quote) ++ [quote]

/-- Whether a code point is written as it is: the visible ASCII ones and, beyond
ASCII, the printable ones. -/
def isShown (c : Nat) : Bool := if c < 128 then 32 ≤ c && c < 127 else isPrintableCode c

/-- The text between quotes. -/
def quoted (t : Text) : Text := ⟨quotedCodes isShown t.codes⟩

/-- The bytes between quotes; only visible ASCII is written as it is. -/
def quotedBytes (bytes : List Nat) : Text :=
  ⟨98 :: quotedCodes (fun c => 32 ≤ c && c < 127) bytes⟩

example : quoted "it's" = "\"it's\"" := by decide
example : quoted "a\n\x00" = "'a\\n\\x00'" := by decide

end ScanCatalog.Text
