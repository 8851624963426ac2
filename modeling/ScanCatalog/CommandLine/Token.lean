import ScanCatalog.CommandLine.Level
import ScanCatalog.Text.Digit

/-!
# Argument tokens

Before any option gets its value, each argument is marked as an option or as plain. An
option may be written by the beginning of a long name that no other long name has, and
its value after `=`; a value may also follow a short name at once. The first `--` ends
the options: all arguments after it are plain.

## Main definitions

* `Token`: a marked argument;
* `Token.ofText`: the token of an argument;
* `Token.ofTexts`: the tokens of arguments;
* `Token.written`: the argument of a token.
-/

namespace ScanCatalog

/-- An argument marked as what it is. -/
inductive Token
  | plain (t : Text)
  /-- the end of the options -/
  | endMark
  /-- an option under one of its names, with a value if one is attached -/
  | option (written : Text) (kind : OptionKind) (name : Text) (value : Option Text)
  /-- an argument that looks like an option and is none -/
  | unknown (t : Text)
deriving DecidableEq, Repr

namespace Token

/-- The argument that ends the options. -/
def endText : Text := "--"

/-- The argument of a token. -/
def written : Token → Text
  | .plain t => t
  | .endMark => endText
  | .option written .. => written
  | .unknown t => t

/-- The code point that options begin with. -/
def dash : Nat := 45

/-- The code points before and after the first `=`, if there is one. -/
def splitValue : List Nat → Option (List Nat × List Nat)
  | [] => none
  | c :: rest =>
    if c = 61 then some ([], rest)
    else (splitValue rest).map fun parts => (c :: parts.1, parts.2)

/-- Whether an argument is a negative number: digits after a dash, perhaps with a point
before the last ones. One line feed may follow. -/
def isNegativeNumber (codes : List Nat) : Bool :=
  let isDigit := fun c => (Text.digitValue? c).isSome
  let body := if codes.getLast? = some 10 then codes.dropLast else codes
  match body with
  | [] => false
  | first :: body =>
    first == dash &&
      match body.dropWhile isDigit with
      | [] => !body.isEmpty
      | c :: fraction => c == 46 && !fraction.isEmpty && fraction.all isDigit

/-- The readings of an argument with two dashes: the names that begin like it. -/
def longReadings (level : Level) (t : Text) : List (OptionKind × Text × Option Text) :=
  let (start, value) :=
    match splitValue t.codes with
    | some (start, value) => (Text.mk start, some (Text.mk value))
    | none => (t, none)
  (level.optionNames.filter fun option => option.1.startsWith start).map fun option =>
    (option.2, option.1, value)

/-- The readings of an argument with one dash: the short name that it begins with and the
names that begin like it. -/
def shortReadings (level : Level) (t : Text) : List (OptionKind × Text × Option Text) :=
  level.optionNames.filterMap fun option =>
    if option.1.codes = t.codes.take 2 then some (option.2, option.1, some (t.drop 2))
    else if option.1.startsWith t then some (option.2, option.1, none)
    else none

/-- The readings of an argument as an option whose name is not written in full. -/
def readings (level : Level) (t : Text) : List (OptionKind × Text × Option Text) :=
  if (t.codes.drop 1).head? = some dash then longReadings level t else shortReadings level t

/-- The reading of an argument as an option whose name is written in full. -/
def fullReading? (level : Level) (t : Text) : Option (OptionKind × Text × Option Text) :=
  match level.option? t with
  | some kind => some (kind, t, none)
  | none => do
    let (name, value) ← splitValue t.codes
    let kind ← level.option? ⟨name⟩
    return (kind, ⟨name⟩, some ⟨value⟩)

/-- The token of an argument before the end of the options. -/
def ofText (level : Level) (t : Text) : Except UsageFault Token :=
  if t.codes.head? != some dash || t.codes = [dash] then .ok (.plain t)
  else
    match fullReading? level t with
    | some (kind, name, value) => .ok (.option t kind name value)
    | none =>
      match readings level t with
      | [(kind, name, value)] => .ok (.option t kind name value)
      | [] =>
        if isNegativeNumber t.codes || t.codes.contains 32 then .ok (.plain t)
        else .ok (.unknown t)
      | several => .error (.ambiguous t (several.map fun reading => reading.2.1))

/-- The tokens of arguments. -/
def ofTexts (level : Level) : List Text → Except UsageFault (List Token)
  | [] => .ok []
  | t :: rest =>
    if t = endText then .ok (.endMark :: rest.map plain)
    else do return (← ofText level t) :: (← ofTexts level rest)

end Token

end ScanCatalog
