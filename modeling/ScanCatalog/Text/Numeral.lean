import ScanCatalog.Text.Blank
import ScanCatalog.Text.Digit
import ScanCatalog.Binary64.Rounding

/-!
# Numerals

Reading numbers from texts. A numeral may stand between blanks, may use the decimal
digits of any script, and may have single underscores between digits.

## Main definitions

* `Numeral.spanDigits`, `Numeral.scanDecimal`: the leading digits and the leading
  decimal of a code point sequence;
* `Text.readReal?`: a binary64 number, also `inf` and `nan`;
* `Text.readInt`: an integer of at most `Numeral.digitLimit` digits.
-/

namespace ScanCatalog

namespace Numeral

/-- An integer with more digits than this is not read. -/
def digitLimit : Nat := 4300

/-- Whether the code point is one of `0` to `9`. -/
def isDigit (c : Nat) : Bool := 48 ≤ c && c < 58

/-- The digits at the beginning, and what follows them. -/
def spanDigits (codes : List Nat) : List Nat × List Nat :=
  (codes.takeWhile isDigit, codes.dropWhile isDigit)

/-- The number written by a sequence of digits. -/
def valueOf (digits : List Nat) : Nat := digits.foldl (fun n c => n * 10 + (c - 48)) 0

/-- The sign at the beginning, and what follows it. -/
def spanSign : List Nat → Bool × List Nat
  | 43 :: rest => (false, rest)
  | 45 :: rest => (true, rest)
  | codes => (false, codes)

/-- The exponent at the beginning, if a whole one stands there, and what follows. -/
def spanExponent : List Nat → Int × List Nat
  | [] => (0, [])
  | c :: rest =>
    if c = 101 ∨ c = 69 then
      let (negative, afterSign) := spanSign rest
      match spanDigits afterSign with
      | ([], _) => (0, c :: rest)
      | (digits, rest) =>
        (if negative then -(valueOf digits : Int) else valueOf digits, rest)
    else (0, c :: rest)

/-- The unsigned decimal at the beginning: digits with or without a point among
them, at least one, and an exponent. Gives its coefficient, its power of ten and
what follows. -/
def scanDecimal (codes : List Nat) : Option (Nat × Int × List Nat) :=
  let (whole, rest) := spanDigits codes
  let (fraction, rest) :=
    match rest with
    | 46 :: rest => spanDigits rest
    | rest => ([], rest)
  if whole.isEmpty && fraction.isEmpty then none
  else
    let (exponent, rest) := spanExponent rest
    some (valueOf (whole ++ fraction), exponent - fraction.length, rest)

/-- A code point as numerals see it: blanks beyond ASCII are spaces, digits of any
script are `0` to `9`, and other code points beyond ASCII are nothing a numeral has. -/
def plainCode (c : Nat) : Nat :=
  if c < 127 then c
  else if Text.isBlankCode c then 32
  else
    match Text.digitValue? c with
    | some d => 48 + d
    | none => 63

/-- Whether the code point is white space in ASCII, separators excepted. -/
def isSpace (c : Nat) : Bool := (9 ≤ c && c < 14) || c == 32

/-- The code points of a numeral between its blanks. -/
def bare (t : Text) : List Nat :=
  let codes := (t.codes.map plainCode).dropWhile isSpace
  (codes.reverse.dropWhile isSpace).reverse

/-- The code points without the underscores between digits, or nothing if an
underscore stands elsewhere; `before` is the code point before them. -/
def dropUnderscores (before : Nat) : List Nat → Option (List Nat)
  | [] => if before = 95 then none else some []
  | c :: rest =>
    if c = 95 then
      if isDigit before then dropUnderscores c rest else none
    else if before = 95 ∧ ¬ isDigit c then none
    else (dropUnderscores c rest).map (c :: ·)

/-- An ASCII letter in lower case. -/
def lowerLetter (c : Nat) : Nat := if 65 ≤ c ∧ c < 91 then c + 32 else c

/-- The number written by a signed decimal or word. -/
def realOf? (codes : List Nat) : Option Binary64 :=
  let (negative, body) := spanSign codes
  let word : Text := ⟨body.map lowerLetter⟩
  if word = "inf" ∨ word = "infinity" then some (.infinite negative)
  else if word = "nan" then some .nan
  else
    match scanDecimal body with
    | some (coefficient, exponent, []) => some (.ofDecimal negative coefficient exponent)
    | _ => none

/-- What an integer numeral reads as. -/
inductive IntReading
  | value (i : Int)
  | malformed
  | tooLong (digits : Nat)
deriving DecidableEq, Repr

/-- The digits at the beginning, single underscores between them left out, and what
follows them; an underscore with no digit after it follows them too. `before` is the
code point before these. -/
def digitsOf (before : Nat) : List Nat → List Nat × List Nat
  | [] => ([], if before = 95 then [95] else [])
  | c :: rest =>
    if c = 95 then
      if before = 95 then ([], c :: rest) else digitsOf c rest
    else if isDigit c then
      let (digits, rest) := digitsOf c rest
      (c :: digits, rest)
    else ([], if before = 95 then 95 :: c :: rest else c :: rest)

end Numeral

namespace Text

/-- The binary64 number a text writes. -/
def readReal? (t : Text) : Option Binary64 :=
  match Numeral.dropUnderscores 0 (Numeral.bare t) with
  | some codes => Numeral.realOf? codes
  | none => none

/-- The integer a text writes. -/
def readInt (t : Text) : Numeral.IntReading :=
  let (negative, body) := Numeral.spanSign (Numeral.bare t)
  match body with
  | c :: _ =>
    if Numeral.isDigit c then
      let (digits, rest) := Numeral.digitsOf 0 body
      if rest.head? = some 95 then .malformed
      else if Numeral.digitLimit < digits.length then .tooLong digits.length
      else if rest.isEmpty then
        .value (if negative then -(Numeral.valueOf digits : Int) else Numeral.valueOf digits)
      else .malformed
    else .malformed
  | [] => .malformed

example : readInt " -1_0 " = .value (-10) := by decide
example : readInt "1__0" = .malformed := by decide
example : readReal? "-Infinity" = some (.infinite true) := by decide
example : readReal? "1e" = none := by decide

end Text

end ScanCatalog
