import ScanCatalog.Json.Reader

/-!
# Messages of refused JSON

A refused JSON text is reported by what was expected and by the place: its line and
column, counted from 1, and its offset, counted from 0.

## Main definitions

* `Json.Cause.message`, `Json.Container.name`, `Json.Place.message`;
* `Json.Malformation`: a cause at a place, with its message.
-/

namespace ScanCatalog.Json

/-- What was expected or found. -/
def Cause.message : Cause → Text
  | .expectingValue => "Expecting value"
  | .expectingProperty => "Expecting property name enclosed in double quotes"
  | .expectingColon => "Expecting ':' delimiter"
  | .expectingComma => "Expecting ',' delimiter"
  | .extraData => "Extra data"
  | .unterminatedString => "Unterminated string starting at"
  | .controlCharacter => "Invalid control character at"
  | .badEscape => "Invalid \\escape"
  | .badUnicodeEscape => "Invalid \\uXXXX escape"
  | .byteOrderMark => "Unexpected UTF-8 BOM (decode using utf-8-sig)"

/-- The name of a container. -/
def Container.name : Container → Text
  | .array => "array"
  | .object => "object"

/-- A place in a text. -/
def Place.message (place : Place) : Text :=
  "line " ++ Text.ofNat place.line ++ " column " ++ Text.ofNat place.column ++ " (char " ++
    Text.ofNat place.offset ++ ")"

/-- A place that the grammar does not allow. -/
structure Malformation where
  cause : Cause
  place : Place
deriving DecidableEq, Repr

/-- The message of a malformed text. -/
def Malformation.message (m : Malformation) : Text := m.cause.message ++ ": " ++ m.place.message

end ScanCatalog.Json
