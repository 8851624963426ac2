/-!
# Text

A text is a finite sequence of Unicode code points. Unlike a `String` it may hold
a surrogate code point that stands alone, because the escapes of a JSON string can
name one; `Text.Encodable` (in `ScanCatalog.Text.Utf8`) says when a text has a
UTF-8 form.

## Main definitions

* `Text`: sequences of code points, with `++`, `Text.length`, `Text.take` and
  `Text.drop`;
* `Text.ofString`: the text of a string, also used as a coercion;
* `Text.startsWith`, `Text.contains`, `Text.pieces`: comparing and cutting;
* `Text.precedes`: the order by code point.
-/

namespace ScanCatalog

/-- A sequence of code points. -/
structure Text where
  codes : List Nat
deriving DecidableEq, Inhabited, Repr

namespace Text

/-- The text with no code points. -/
def empty : Text := ⟨[]⟩

/-- The code points of a string, in order. -/
def ofString (s : String) : Text := ⟨s.toList.map Char.toNat⟩

instance : Coe String Text := ⟨ofString⟩

instance : Append Text := ⟨fun a b => ⟨a.codes ++ b.codes⟩⟩

@[simp] theorem codes_append (a b : Text) : (a ++ b).codes = a.codes ++ b.codes := rfl

/-- A string of the same code points, with U+FFFD for a surrogate. -/
def toString (t : Text) : String :=
  String.ofList (t.codes.map fun c => if c.isValidChar then Char.ofNat c else '\uFFFD')

/-- The text holding one code point. -/
def single (c : Nat) : Text := ⟨[c]⟩

/-- The number of code points. -/
def length (t : Text) : Nat := t.codes.length

/-- Whether the text holds no code point. -/
def isEmpty (t : Text) : Bool := t.codes.isEmpty

@[simp] theorem isEmpty_iff (t : Text) : t.isEmpty = true ↔ t = empty := by
  cases t; simp [isEmpty, empty]

/-- Whether `t` begins with `start`. -/
def startsWith (t start : Text) : Bool := start.codes.isPrefixOf t.codes

theorem startsWith_iff {t start : Text} :
    t.startsWith start = true ↔ ∃ rest : Text, t = start ++ rest := by
  simp only [startsWith, List.isPrefixOf_iff_prefix, List.IsPrefix]
  constructor
  · rintro ⟨rest, h⟩
    exact ⟨⟨rest⟩, by cases t; exact congrArg Text.mk h.symm⟩
  · rintro ⟨rest, rfl⟩
    exact ⟨rest.codes, rfl⟩

/-- The text without its first `n` code points. -/
def drop (t : Text) (n : Nat) : Text := ⟨t.codes.drop n⟩

/-- The first `n` code points. -/
def take (t : Text) (n : Nat) : Text := ⟨t.codes.take n⟩

/-- Whether `part` is a run of neighbouring code points of `codes`. -/
def occurs (part : List Nat) : List Nat → Bool
  | [] => part.isEmpty
  | c :: rest => part.isPrefixOf (c :: rest) || occurs part rest

/-- Whether `part` occurs in `t` as a run of neighbouring code points. -/
def contains (t part : Text) : Bool := occurs part.codes t.codes

/-- The pieces of a code point sequence between occurrences of `mark`; there is
always at least one. -/
def cut (mark : Nat) : List Nat → List (List Nat)
  | [] => [[]]
  | c :: rest =>
    if c = mark then [] :: cut mark rest
    else
      match cut mark rest with
      | [] => [[c]]
      | piece :: pieces => (c :: piece) :: pieces

/-- The pieces of the text between occurrences of `mark`. -/
def pieces (mark : Nat) (t : Text) : List Text := (cut mark t.codes).map Text.mk

/-- The texts in order, with `separator` between neighbours. -/
def join (separator : Text) : List Text → Text
  | [] => empty
  | [t] => t
  | t :: rest => t ++ separator ++ join separator rest

/-- The decimal digits of a natural number. -/
def ofNat (n : Nat) : Text := ⟨(Nat.toDigits 10 n).map Char.toNat⟩

/-- The decimal digits of an integer, after `-` for a negative one. -/
def ofInt : Int → Text
  | .ofNat n => ofNat n
  | .negSucc n => "-" ++ ofNat (n + 1)

/-- The lower-case hexadecimal digits of `n`, filled with zeros to `width`. -/
def hex (width n : Nat) : Text :=
  let digits := (Nat.toDigits 16 n).map Char.toNat
  ⟨List.replicate (width - digits.length) 48 ++ digits⟩

/-- The order by code point: a proper beginning comes first. -/
def codesPrecede : List Nat → List Nat → Bool
  | [], [] => false
  | [], _ :: _ => true
  | _ :: _, [] => false
  | a :: as, b :: bs => if a < b then true else if b < a then false else codesPrecede as bs

/-- Whether `a` comes before `b` in the order by code point. -/
def precedes (a b : Text) : Bool := codesPrecede a.codes b.codes

/-- The texts in the order by code point; equal ones keep their order. -/
def sorted (texts : List Text) : List Text := texts.mergeSort fun a b => !b.precedes a

end Text

end ScanCatalog
