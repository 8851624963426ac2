import ScanCatalog.Fault
import ScanCatalog.Value.Items
import ScanCatalog.Value.Sorting

/-!
# Faults by name

A fault can be given by the name of its kind and some arguments. What it reports is made
of the arguments in a way of the kind's own: the families of the catalog that have
details take them as arguments, errors of files take a number and words, errors of
codecs take a place in what they were given, and all others show their arguments.
Arguments that a kind cannot take are a fault themselves.

## Main definitions

* `Signature`: how many arguments a kind takes, and what they are called;
* `FileErrorKind.ofNumber?`: the kind of file error of a number;
* `CodecError`: the arguments of an error of a codec;
* `Fault.state`: the fault of a kind and arguments.
-/

namespace ScanCatalog

/-- A fault that arguments are of the wrong kind or number. -/
def argumentFault (words : Text) : Fault := .stated { kind := "TypeError", message := words }

/-! ### Families with arguments of their own -/

/-- The arguments of a kind: those it needs and the number of those it may have besides. -/
structure Signature where
  required : List Text
  extra : Nat := 0

namespace Signature

/-- Words in a row, the last after `and`. -/
def enumeration : List Text → Text
  | [] => Text.empty
  | [a] => a
  | [a, b] => a ++ " and " ++ b
  | words => Text.join ", " words.dropLast ++ ", and " ++ words.getLast?.getD Text.empty

/-- The plural ending of a noun for a number of things. -/
def plural (count : Nat) : Text := if count = 1 then Text.empty else "s"

/-- Faults if a kind cannot take some number of arguments. The kind itself counts as one
where arguments are too many. -/
def check (signature : Signature) (kind : Text) (given : Nat) : Except Fault Unit :=
  let least := signature.required.length
  let most := least + signature.extra
  if given < least then
    let missing := signature.required.drop given
    .error (argumentFault (kind ++ ".__init__() missing " ++ Text.ofNat missing.length ++
      " required positional argument" ++ plural missing.length ++ ": " ++
        enumeration (missing.map Text.quoted)))
  else if most < given then
    let takes : Text :=
      if signature.extra = 0 then Text.ofNat (most + 1)
      else "from " ++ Text.ofNat (least + 1) ++ " to " ++ Text.ofNat (most + 1)
    .error (argumentFault (kind ++ ".__init__() takes " ++ takes ++
      " positional arguments but " ++ Text.ofNat (given + 1) ++ " were given"))
  else .ok ()

end Signature

/-- The texts of items, the first of which has the given index. -/
def textsFrom (index : Nat) : List Value → Except Fault (List Text)
  | [] => .ok []
  | .text t :: rest => do return t :: (← textsFrom (index + 1) rest)
  | v :: _ => .error (argumentFault ("sequence item " ++ Text.ofNat index ++
      ": expected str instance, " ++ v.kindName ++ " found"))

namespace StatedFault

/-- A refused record with its problems. -/
def ofProblems (problems : Value) : Except Fault StatedFault := do
  let problems ← liftValue problems.items
  let text := Text.join "; " (← textsFrom 0 problems)
  return {
    kind := Family.validation.name
    message := if text.isEmpty then "invalid record" else text
    detail := some ("problems", .list problems) }

/-- A filter with keys that no backend owns. -/
def ofKeys (service keys : Value) : Except Fault StatedFault := do
  let keys ← liftValue keys.items
  let sorted ← liftValue (Value.sort keys)
  return {
    kind := Family.unroutable.name
    message := "Fields " ++ (Value.list sorted).literal ++ " are not routable for service '" ++
      service.display ++ "'"
    detail := some ("keys", .list keys) }

/-- An edit that does not name one record. -/
def ofLookup (lookup count : Value) : StatedFault where
  kind := Family.editLookup.name
  message := "Edit lookup " ++ lookup.display ++ " matched " ++ count.display ++
    " records, expected exactly 1"
  detail := some ("matches", count)

/-- A scan that is already stored. -/
def ofScan (sid detail : Value) : StatedFault where
  kind := Family.duplicateScan.name
  message := duplicateScanMessage sid (if detail.truth then detail.display else Text.empty)
  detail := some ("sid", sid)

/-- What arguments a family takes, if it has some of its own. -/
def signature? : Family → Option Signature
  | .validation => some ⟨["problems"], 0⟩
  | .unroutable => some ⟨["service", "keys"], 0⟩
  | .editLookup => some ⟨["lookup", "matches"], 0⟩
  | .duplicateScan => some ⟨["sid"], 1⟩
  | _ => none

/-- A fault of a family. -/
def ofFamily (family : Family) (arguments : List Value) : Except Fault StatedFault :=
  match family, arguments with
  | .validation, [problems] => ofProblems problems
  | .unroutable, [service, keys] => ofKeys service keys
  | .editLookup, [lookup, count] => .ok (ofLookup lookup count)
  | .duplicateScan, [sid] => .ok (ofScan sid .null)
  | .duplicateScan, [sid, detail] => .ok (ofScan sid detail)
  | family, arguments => .ok { kind := family.name, message := argumentText arguments }

end StatedFault

/-! ### Errors of files -/

namespace FileErrorKind

/-- The kind of all errors of files. -/
def general : Text := "OSError"

/-- Other names of that kind. -/
def aliases : List Text := ["OSError", "IOError", "EnvironmentError"]

/-- The kinds of errors of files that have numbers, each with its numbers. -/
def numbered : List (Text × List Int) :=
  [("BlockingIOError", [11, 114, 115]), ("BrokenPipeError", [32, 108]),
    ("ChildProcessError", [10]), ("ConnectionAbortedError", [103]),
    ("ConnectionRefusedError", [111]), ("ConnectionResetError", [104]),
    ("FileExistsError", [17]), ("FileNotFoundError", [2]), ("IsADirectoryError", [21]),
    ("NotADirectoryError", [20]), ("InterruptedError", [4]), ("PermissionError", [13, 1]),
    ("ProcessLookupError", [3]), ("TimeoutError", [110])]

/-- The kind of errors of files that has a number. -/
def ofNumber? : Value → Option Text
  | .int i => (numbered.find? fun kind => kind.2.contains i).map (·.1)
  | .bool b => (numbered.find? fun kind => kind.2.contains (if b then 1 else 0)).map (·.1)
  | _ => none

/-- The kind of an error of files by its name, if it is one, where an error of no
special kind gets that of its number. -/
def ofName? (name : Text) (arguments : List Value) : Option Text :=
  if aliases.contains name then
    match arguments with
    | number :: _ :: rest =>
      if rest.length ≤ 3 then some ((ofNumber? number).getD general) else some general
    | _ => some general
  else if name = "ConnectionError" || numbered.any fun kind => kind.1 == name then some name
  else none

/-- The message of an error of files: a number and words, and the names of one or two
files. -/
def message (arguments : List Value) : Text :=
  match arguments with
  | number :: words :: rest =>
    let base : Text := "[Errno " ++ number.display ++ "] " ++ words.display
    match rest with
    | [] => base
    | [file] | [file, _] => if file.isNull then base else base ++ ": " ++ file.literal
    | [file, _, second] =>
      if file.isNull then base
      else if second.isNull then base ++ ": " ++ file.literal
      else base ++ ": " ++ file.literal ++ " -> " ++ second.literal
    | _ => argumentText arguments
  | arguments => argumentText arguments

end FileErrorKind

/-! ### Errors of codecs -/

/-- The arguments of an error of a codec: its name, what it was given, the part of that
which is at fault, and why. -/
structure CodecError where
  codec : Text
  given : Value
  first : Int
  stop : Int
  reason : Text

namespace CodecError

/-- The name of a kind in a message about an argument. -/
def argumentKind : Value → Text
  | .null => "None"
  | v => v.kindName

/-- The text of the argument at a position. -/
def textArgument (position : Nat) : Value → Except Fault Text
  | .text t => .ok t
  | v => .error (argumentFault ("argument " ++ Text.ofNat position ++ " must be str, not " ++
      argumentKind v))

/-- The integer of an argument. -/
def intArgument : Value → Except Fault Int
  | .int i => .ok i
  | .bool b => .ok (if b then 1 else 0)
  | v => .error (argumentFault ("'" ++ v.kindName ++ "' object cannot be interpreted as an integer"))

/-- The arguments of an error, which are five. -/
def ofArguments : List Value → Except Fault CodecError
  | [codec, given, first, stop, reason] => do
    return {
      codec := ← textArgument 1 codec
      given
      first := ← intArgument first
      stop := ← intArgument stop
      reason := ← textArgument 5 reason }
  | arguments => .error (argumentFault ("function takes exactly 5 arguments (" ++
      Text.ofNat arguments.length ++ " given)"))

/-- A code point in a message. -/
def codeText (c : Nat) : Text :=
  if c < 0x100 then "\\x" ++ Text.hex 2 c
  else if c < 0x10000 then "\\u" ++ Text.hex 4 c
  else "\\U" ++ Text.hex 8 c

/-- The one unit of what was given that is at fault, if it is just one. -/
def single? (error : CodecError) (units : List Nat) : Option Nat :=
  if error.stop = error.first + 1 then units[error.first.toNat]? else none

/-- The message of an error, for the words about one unit and about several. -/
def message (error : CodecError) (verb one several : Text) (isOne : Bool) : Text :=
  let place : Text :=
    if isOne then one ++ " in position " ++ Text.ofInt error.first
    else several ++ " in position " ++ Text.ofInt error.first ++ "-" ++ Text.ofInt (error.stop - 1)
  "'" ++ error.codec ++ "' codec can't " ++ verb ++ " " ++ place ++ ": " ++ error.reason

/-- The message of an error of reading bytes. -/
def decodeMessage (error : CodecError) : Except Fault Text :=
  match error.given with
  | .bytes octets =>
    match error.single? octets with
    | some octet => .ok (error.message "decode" ("byte 0x" ++ Text.hex 2 octet) "bytes" true)
    | none => .ok (error.message "decode" Text.empty "bytes" false)
  | v => .error (.value (.notBytes v.kindName))

/-- The message of an error of writing a text. -/
def encodeMessage (error : CodecError) : Except Fault Text := do
  let given ← textArgument 2 error.given
  match error.single? given.codes with
  | some c =>
    return error.message "encode" ("character '" ++ codeText c ++ "'") "characters" true
  | none => return error.message "encode" Text.empty "characters" false

end CodecError

/-! ### All kinds -/

namespace StatedFault

/-- A fault of a kind that is none of the catalog's. -/
def ofOther (kind : Text) (arguments : List Value) : Except Fault StatedFault :=
  match FileErrorKind.ofName? kind arguments with
  | some kind => .ok { kind, message := FileErrorKind.message arguments }
  | none =>
    if kind = "UnicodeDecodeError" then do
      return { kind, message := ← (← CodecError.ofArguments arguments).decodeMessage }
    else if kind = "UnicodeEncodeError" then do
      return { kind, message := ← (← CodecError.ofArguments arguments).encodeMessage }
    else
      match kind == "KeyError", arguments with
      | true, [key] => .ok { kind, message := key.literal }
      | _, arguments => .ok { kind, message := argumentText arguments }

/-- The fault of a kind and arguments. -/
def ofArguments (kind : Text) (arguments : List Value) : Except Fault StatedFault :=
  match Family.ofName? kind with
  | some family => do
    if let some signature := signature? family then signature.check kind arguments.length
    ofFamily family arguments
  | none => ofOther kind arguments

end StatedFault

/-- The fault of a kind and arguments, or that of arguments that the kind cannot take. -/
def Fault.state (kind : Text) (arguments : List Value) : Except Fault Fault := do
  return .stated (← StatedFault.ofArguments kind arguments)

/-- The fault that comes of stating one. -/
def Fault.ofStatement (kind : Text) (arguments : List Value) : Fault :=
  match Fault.state kind arguments with
  | .ok fault | .error fault => fault

end ScanCatalog
