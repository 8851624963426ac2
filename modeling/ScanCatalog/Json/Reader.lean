import ScanCatalog.Text.Numeral
import ScanCatalog.Value.Equality

/-!
# Reading JSON

A JSON text is read to a value: an integer numeral to an integer, one with a point
or an exponent to the nearest binary64 number, and an object to a mapping in the
order of its keys, where a repeated key keeps its first place and its last value.
The names `NaN`, `Infinity` and `-Infinity` are numbers of the grammar that a
reader may refuse. A text that cannot be read is refused at one position.

## Main definitions

* `Json.Cause`, `Json.ReadFault`: why and where a text is refused;
* `Json.readString`, `Json.readNumber`, `Json.readValue`: the parts of the grammar;
* `Json.read`: reading a whole text.
-/

namespace ScanCatalog.Json

/-- Why a text is not JSON. -/
inductive Cause
  | expectingValue
  | expectingProperty
  | expectingColon
  | expectingComma
  | extraData
  | unterminatedString
  | controlCharacter
  | badEscape
  | badUnicodeEscape
  | byteOrderMark
deriving DecidableEq, Repr

/-- The containers of the grammar. -/
inductive Container
  | array
  | object
deriving DecidableEq, Repr

/-- What stops a reader: a place that the grammar does not allow, a refused constant,
an integer that is too long, or a container inside too many others. -/
inductive Stop
  | malformed (cause : Cause) (offset : Nat)
  | constant (name : Text)
  | tooManyDigits (digits : Nat)
  | tooDeep (container : Container)
deriving DecidableEq, Repr

/-- A place in a text: its offset, and its line and column counted from 1. -/
structure Place where
  offset : Nat
  line : Nat
  column : Nat
deriving DecidableEq, Repr

/-- Why a text was refused. -/
inductive ReadFault
  | malformed (cause : Cause) (place : Place)
  | constant (name : Text)
  | tooManyDigits (digits : Nat)
  | tooDeep (container : Container)
deriving DecidableEq, Repr

/-- The place of an offset: a line ends with a line feed. -/
def placeOf (codes : List Nat) (offset : Nat) : Place :=
  let before := codes.take offset
  ⟨offset, before.count 10 + 1, (before.reverse.takeWhile (· != 10)).length + 1⟩

/-- A part read from a text, the offset after it, and what follows. -/
structure Part (α : Type) where
  value : α
  offset : Nat
  rest : List Nat

/-- Whether the code point may stand between the tokens of a JSON text. -/
def isSpace (c : Nat) : Bool := c == 32 || c == 9 || c == 10 || c == 13

/-- What follows the spaces at the beginning, with its offset. -/
def skipSpaces (offset : Nat) (codes : List Nat) : Nat × List Nat :=
  (offset + (codes.takeWhile isSpace).length, codes.dropWhile isSpace)

/-- The code point of an escape with a letter of its own. -/
def escapeOf? : Nat → Option Nat
  | 34 => some 34
  | 92 => some 92
  | 47 => some 47
  | 98 => some 8
  | 102 => some 12
  | 110 => some 10
  | 114 => some 13
  | 116 => some 9
  | _ => none

/-- The number written by four hexadecimal digits. -/
def hexValue? (a b c d : Nat) : Option Nat :=
  match Text.hexDigit? a, Text.hexDigit? b, Text.hexDigit? c, Text.hexDigit? d with
  | some a, some b, some c, some d => some (((a * 16 + b) * 16 + c) * 16 + d)
  | _, _, _, _ => none

/-- The code point that the escape `\u` stands for, how many code points the escape has,
and what follows it, given what comes after `\u`; or the distance of the fault from
the backslash. The escapes of two surrogates that make a pair are read together. At
least one code point has to follow, as the string is not closed yet. -/
def readUnicodeEscape : List Nat → Except Nat (Nat × Nat × List Nat)
  | a :: b :: c :: d :: next :: rest =>
    match hexValue? a b c d with
    | none => .error 1
    | some high =>
      if 0xD800 ≤ high ∧ high < 0xDC00 then
        match next, rest with
        | 92, 117 :: e :: f :: g :: h :: after :: behind =>
          match hexValue? e f g h with
          | none => .error 7
          | some low =>
            if 0xDC00 ≤ low ∧ low < 0xE000 then
              .ok (0x10000 + (high - 0xD800) * 0x400 + (low - 0xDC00), 12, after :: behind)
            else .ok (high, 6, next :: rest)
        | _, _ => .ok (high, 6, next :: rest)
      else .ok (high, 6, next :: rest)
  | _ => .error 1

/-- Reads the code points of a string up to its closing quote. `start` is the offset
of the opening quote and `taken` holds the code points read so far, in reverse. Every
step takes a code point off the text, which bounds `fuel`. -/
def readString (start : Nat) : Nat → List Nat → Nat → List Nat → Except Stop (Part Text)
  | 0, _, _, _ => .error (.malformed .unterminatedString start)
  | fuel + 1, taken, offset, codes =>
    match codes with
    | [] => .error (.malformed .unterminatedString start)
    | 34 :: rest => .ok ⟨⟨taken.reverse⟩, offset + 1, rest⟩
    | [92] => .error (.malformed .unterminatedString start)
    | 92 :: c :: rest =>
      if c = 117 then
        match readUnicodeEscape rest with
        | .ok (code, size, rest) => readString start fuel (code :: taken) (offset + size) rest
        | .error distance => .error (.malformed .badUnicodeEscape (offset + distance))
      else
        match escapeOf? c with
        | some escaped => readString start fuel (escaped :: taken) (offset + 2) rest
        | none => .error (.malformed .badEscape offset)
    | c :: rest =>
      if c < 32 then .error (.malformed .controlCharacter offset)
      else readString start fuel (c :: taken) (offset + 1) rest

/-- The digits before the point of a number: a zero alone, or digits that do not
begin with one. -/
def spanWhole : List Nat → List Nat × List Nat
  | 48 :: rest => ([48], rest)
  | codes => Numeral.spanDigits codes

/-- The point and the digits after it, if both stand at the beginning. -/
def spanFraction : List Nat → List Nat × List Nat
  | 46 :: rest =>
    match Numeral.spanDigits rest with
    | ([], _) => ([], 46 :: rest)
    | spanned => spanned
  | codes => ([], codes)

/-- Whether the code point is one that numbers are written with. -/
def isOfNumber (c : Nat) : Bool :=
  Numeral.isDigit c || c == 43 || c == 45 || c == 46 || c == 69 || c == 101

/-- Reads a number, which lies within the code points of numbers at the beginning. -/
def readNumber (offset : Nat) (codes : List Nat) : Except Stop (Part Value) :=
  let span := codes.takeWhile isOfNumber
  let (negative, body) :=
    match span with
    | 45 :: rest => (true, rest)
    | _ => (false, span)
  match spanWhole body with
  | ([], _) => .error (.malformed .expectingValue offset)
  | (whole, afterWhole) =>
    let (fraction, afterFraction) := spanFraction afterWhole
    let (exponent, unread) := Numeral.spanExponent afterFraction
    let size := span.length - unread.length
    if unread.length = afterWhole.length then
      if Numeral.digitLimit < whole.length then .error (.tooManyDigits whole.length)
      else
        let magnitude : Int := Numeral.valueOf whole
        .ok ⟨.int (if negative then -magnitude else magnitude), offset + size, codes.drop size⟩
    else
      let x := Binary64.ofDecimal negative (Numeral.valueOf (whole ++ fraction))
        (exponent - fraction.length)
      .ok ⟨.float x, offset + size, codes.drop size⟩

/-- The words of the grammar with their values; those of the second list name
numbers that a reader may refuse. -/
def words : List (Text × Value) := [("null", .null), ("true", .bool true), ("false", .bool false)]

/-- The names of numbers that are not finite. -/
def constants : List (Text × Value) :=
  [("NaN", .float .nan), ("Infinity", .float (.infinite false)),
    ("-Infinity", .float (.infinite true))]

/-- The word of a list that stands at the beginning. -/
def wordAt? (list : List (Text × Value)) (codes : List Nat) : Option (Text × Value) :=
  list.find? fun word => word.1.codes.isPrefixOf codes

/-- Reads a value that is not a string, an array or an object. -/
def readAtom (allowConstants : Bool) (offset : Nat) (codes : List Nat) :
    Except Stop (Part Value) :=
  match wordAt? words codes with
  | some (name, value) => .ok ⟨value, offset + name.length, codes.drop name.length⟩
  | none =>
    match wordAt? constants codes with
    | some (name, value) =>
      if allowConstants then .ok ⟨value, offset + name.length, codes.drop name.length⟩
      else .error (.constant name)
    | none => readNumber offset codes

mutual

/-- Reads a value, inside which there may be `room` levels of containers. Every two
steps of the recursion take a code point off the text, which bounds `fuel`: there is
always more of it than there are code points, so that a string can be read with it. -/
def readValue (allowConstants : Bool) (room : Nat) :
    Nat → Nat → List Nat → Except Stop (Part Value)
  | 0, offset, _ => .error (.malformed .expectingValue offset)
  | fuel + 1, offset, codes =>
    match codes with
    | [] => .error (.malformed .expectingValue offset)
    | 34 :: rest =>
      match readString offset fuel [] (offset + 1) rest with
      | .ok part => .ok ⟨.text part.value, part.offset, part.rest⟩
      | .error stop => .error stop
    | 91 :: rest =>
      if room = 0 then .error (.tooDeep .array)
      else
        match skipSpaces (offset + 1) rest with
        | (offset, 93 :: rest) => .ok ⟨.list [], offset + 1, rest⟩
        | (offset, rest) => readItems allowConstants (room - 1) fuel [] offset rest
    | 123 :: rest =>
      if room = 0 then .error (.tooDeep .object)
      else
        match skipSpaces (offset + 1) rest with
        | (offset, 125 :: rest) => .ok ⟨.map [], offset + 1, rest⟩
        | (offset, rest) => readFields allowConstants (room - 1) fuel [] offset rest
    | _ => readAtom allowConstants offset codes

/-- Reads the items of an array from one of them on; `taken` holds those before it,
in reverse. -/
def readItems (allowConstants : Bool) (room : Nat) :
    Nat → List Value → Nat → List Nat → Except Stop (Part Value)
  | 0, _, offset, _ => .error (.malformed .expectingValue offset)
  | fuel + 1, taken, offset, codes =>
    match readValue allowConstants room fuel offset codes with
    | .error stop => .error stop
    | .ok part =>
      match skipSpaces part.offset part.rest with
      | (offset, 93 :: rest) => .ok ⟨.list (part.value :: taken).reverse, offset + 1, rest⟩
      | (offset, 44 :: rest) =>
        let (offset, rest) := skipSpaces (offset + 1) rest
        readItems allowConstants room fuel (part.value :: taken) offset rest
      | (offset, _) => .error (.malformed .expectingComma offset)

/-- Reads the fields of an object from one of them on; `taken` holds those before. -/
def readFields (allowConstants : Bool) (room : Nat) :
    Nat → Entries → Nat → List Nat → Except Stop (Part Value)
  | 0, _, offset, _ => .error (.malformed .expectingValue offset)
  | fuel + 1, taken, offset, codes =>
    match codes with
    | 34 :: rest =>
      match readString offset fuel [] (offset + 1) rest with
      | .error stop => .error stop
      | .ok key =>
        match skipSpaces key.offset key.rest with
        | (offset, 58 :: rest) =>
          let (offset, rest) := skipSpaces (offset + 1) rest
          match readValue allowConstants room fuel offset rest with
          | .error stop => .error stop
          | .ok part =>
            let taken := taken.set (.text key.value) part.value
            match skipSpaces part.offset part.rest with
            | (offset, 125 :: rest) => .ok ⟨.map taken, offset + 1, rest⟩
            | (offset, 44 :: rest) =>
              let (offset, rest) := skipSpaces (offset + 1) rest
              readFields allowConstants room fuel taken offset rest
            | (offset, _) => .error (.malformed .expectingComma offset)
        | (offset, _) => .error (.malformed .expectingColon offset)
    | _ => .error (.malformed .expectingProperty offset)

end

/-- The levels of containers that a text may have. -/
def depthLimit : Nat := 990

/-- Reads a whole text: one value between spaces, with no byte order mark before it. -/
def readCodes (allowConstants : Bool) (codes : List Nat) : Except Stop Value :=
  if codes.head? = some 0xFEFF then .error (.malformed .byteOrderMark 0)
  else
    let (offset, body) := skipSpaces 0 codes
    match readValue allowConstants depthLimit (2 * codes.length + 2) offset body with
    | .error stop => .error stop
    | .ok part =>
      match skipSpaces part.offset part.rest with
      | (_, []) => .ok part.value
      | (offset, _) => .error (.malformed .extraData offset)

/-- Reads a JSON text to a value. -/
def read (allowConstants : Bool) (t : Text) : Except ReadFault Value :=
  match readCodes allowConstants t.codes with
  | .ok value => .ok value
  | .error (.malformed cause offset) => .error (.malformed cause (placeOf t.codes offset))
  | .error (.constant name) => .error (.constant name)
  | .error (.tooManyDigits digits) => .error (.tooManyDigits digits)
  | .error (.tooDeep container) => .error (.tooDeep container)

end ScanCatalog.Json
