import ScanCatalog.Text.Utf8
import ScanCatalog.Value.Show

/-!
# Operations that a value does not have

Reading a number from a value, comparing two values or looking into one can fail
because of the value's kind. Each way to fail is a `ValueFault`, with the kind of
error it is reported as and its message.

## Main definitions

* `ValueFault`: the ways to fail;
* `ValueFault.kind`, `ValueFault.message`: how each is reported.
-/

namespace ScanCatalog

/-- An operation that a value does not have. -/
inductive ValueFault
  /-- the text or byte string does not write a number -/
  | realSyntax (v : Value)
  /-- a value of this kind is no number and writes none -/
  | notReal (kind : Text)
  /-- the integer lies beyond the finite binary64 numbers -/
  | intTooLarge
  /-- the text or byte string does not write an integer -/
  | intSyntax (v : Value)
  /-- a value of this kind is no integer and writes none -/
  | notInt (kind : Text)
  /-- an infinity is not cut to an integer -/
  | infinityToInt
  /-- what is not a number is not cut to an integer -/
  | nanToInt
  /-- the integer numeral has too many digits -/
  | tooManyDigits (digits : Nat)
  /-- the integer has no place in 64 bits -/
  | intTooWide
  /-- the text has no UTF-8 form -/
  | notEncodable (fault : EncodeFault)
  /-- the bytes are not UTF-8 -/
  | notUtf8 (fault : Utf8Fault)
  /-- a value of this kind cannot be a key or a member -/
  | unhashable (kind : Text)
  /-- values of these kinds have no order -/
  | notOrdered (symbol left right : Text)
  /-- a value of this kind has no members -/
  | notContainer (kind : Text)
  /-- only a text occurs in a text, not a value of this kind -/
  | notInText (kind : Text)
  /-- only a byte string occurs in a byte string, not a value of this kind -/
  | notBytes (kind : Text)
  /-- an integer is no octet -/
  | octetOutOfRange
  /-- a byte string does not begin with a text -/
  | notTextStart
  /-- a value of this kind has no items -/
  | notIterable (kind : Text)
  /-- a value of this kind is no mapping -/
  | notMapping (kind : Text)
  /-- a value of this kind has no items by position -/
  | notSubscriptable (kind : Text)
  /-- a value of this kind lacks an operation -/
  | noMember (kind member : Text)
  /-- there is no entry under the key -/
  | noKey (key : Value)
  /-- there is no item at the position -/
  | noIndex
  /-- fewer items than wanted -/
  | tooFewItems (wanted got : Nat)
  /-- more items than wanted -/
  | tooManyItems (wanted : Nat)
  /-- the item is not a key with a value -/
  | notPair (index length : Nat)
  /-- the item is no sequence -/
  | notSequence (index : Nat)
  /-- a path or a variable holds a null code point -/
  | nullInPath
  /-- containers of this name lie inside each other too deep -/
  | tooDeep (container : Text)
deriving DecidableEq, Repr

namespace Utf8Fault

/-- What is wrong with the bytes. -/
def reason : Utf8Cause → Text
  | .badStart => "invalid start byte"
  | .badContinuation => "invalid continuation byte"
  | .cutShort => "unexpected end of data"

/-- The message of a fault in UTF-8 bytes. -/
def message (fault : Utf8Fault) : Text :=
  let place : Text :=
    if fault.first = fault.last then
      "byte 0x" ++ Text.hex 2 fault.byte ++ " in position " ++ Text.ofNat fault.first
    else "bytes in position " ++ Text.ofNat fault.first ++ "-" ++ Text.ofNat fault.last
  "'utf-8' codec can't decode " ++ place ++ ": " ++ reason fault.cause

end Utf8Fault

/-- The message of a text without a UTF-8 form. -/
def EncodeFault.message (fault : EncodeFault) : Text :=
  let place : Text :=
    if fault.first = fault.last then
      "character '" ++ ⟨Text.numberEscape fault.code⟩ ++ "' in position " ++
        Text.ofNat fault.first
    else "characters in position " ++ Text.ofNat fault.first ++ "-" ++ Text.ofNat fault.last
  "'utf-8' codec can't encode " ++ place ++ ": surrogates not allowed"

namespace ValueFault

/-- The kind of error a fault is reported as. -/
def kind : ValueFault → Text
  | .realSyntax _ | .intSyntax _ | .nanToInt | .tooManyDigits _ | .tooFewItems .. |
    .tooManyItems _ | .notPair .. | .nullInPath | .octetOutOfRange => "ValueError"
  | .notReal _ | .notInt _ | .unhashable _ | .notOrdered .. | .notContainer _ | .notInText _ |
    .notBytes _ | .notTextStart | .notIterable _ | .notMapping _ | .notSubscriptable _ |
    .notSequence _ => "TypeError"
  | .intTooLarge | .infinityToInt | .intTooWide => "OverflowError"
  | .notEncodable _ => "UnicodeEncodeError"
  | .notUtf8 _ => "UnicodeDecodeError"
  | .noMember .. => "AttributeError"
  | .noKey _ => "KeyError"
  | .tooDeep _ => "RecursionError"
  | .noIndex => "IndexError"

/-- The code points that a message shows of what is no integer numeral. -/
def shownLength : Nat := 200

/-- The message of a fault. -/
def message : ValueFault → Text
  | .realSyntax v => "could not convert string to float: " ++ v.literal
  | .notReal kind => "float() argument must be a string or a real number, not '" ++ kind ++ "'"
  | .intTooLarge => "int too large to convert to float"
  | .intSyntax v => "invalid literal for int() with base 10: " ++ v.literal.take shownLength
  | .notInt kind =>
    "int() argument must be a string, a bytes-like object or a real number, not '" ++ kind ++ "'"
  | .infinityToInt => "cannot convert float infinity to integer"
  | .nanToInt => "cannot convert float NaN to integer"
  | .tooManyDigits digits =>
    "Exceeds the limit (4300 digits) for integer string conversion: value has " ++
      Text.ofNat digits ++ " digits; use sys.set_int_max_str_digits() to increase the limit"
  | .intTooWide => "Python int too large to convert to SQLite INTEGER"
  | .notEncodable fault => fault.message
  | .notUtf8 fault => fault.message
  | .unhashable kind => "unhashable type: '" ++ kind ++ "'"
  | .notOrdered symbol left right =>
    "'" ++ symbol ++ "' not supported between instances of '" ++ left ++ "' and '" ++ right ++
      "'"
  | .notContainer kind => "argument of type '" ++ kind ++ "' is not iterable"
  | .notInText kind => "'in <string>' requires string as left operand, not " ++ kind
  | .notBytes kind => "a bytes-like object is required, not '" ++ kind ++ "'"
  | .octetOutOfRange => "byte must be in range(0, 256)"
  | .notTextStart => "startswith first arg must be bytes or a tuple of bytes, not str"
  | .notMapping kind => "'" ++ kind ++ "' object is not a mapping"
  | .notIterable kind => "'" ++ kind ++ "' object is not iterable"
  | .notSubscriptable kind => "'" ++ kind ++ "' object is not subscriptable"
  | .noMember kind member => "'" ++ kind ++ "' object has no attribute '" ++ member ++ "'"
  | .noKey key => key.literal
  | .noIndex => "list index out of range"
  | .tooFewItems wanted got =>
    "not enough values to unpack (expected " ++ Text.ofNat wanted ++ ", got " ++
      Text.ofNat got ++ ")"
  | .tooManyItems wanted =>
    "too many values to unpack (expected " ++ Text.ofNat wanted ++ ")"
  | .notPair index length =>
    "dictionary update sequence element #" ++ Text.ofNat index ++ " has length " ++
      Text.ofNat length ++ "; 2 is required"
  | .notSequence index =>
    "cannot convert dictionary update sequence element #" ++ Text.ofNat index ++ " to a sequence"
  | .nullInPath => "embedded null byte"
  | .tooDeep container =>
    "maximum recursion depth exceeded while decoding a JSON " ++ container ++
      " from a unicode string"

end ValueFault

end ScanCatalog
