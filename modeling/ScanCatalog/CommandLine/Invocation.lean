import ScanCatalog.CommandLine.Token
import ScanCatalog.Text.Numeral

/-!
# Invocations

The tokens of a level are read in order. An option takes its value from the argument
that it is written in or from the next one; short options without values can share one
argument. A plain argument goes to the level as far as it takes any. What nobody takes
is left over, and left over arguments are refused in the end.

## Main definitions

* `Command`, `Invocation`: what arguments ask for;
* `Reading`: what has been read of the arguments of a level;
* `Reading.ofTokens`: reading tokens;
* `Invocation.ofArguments`: the invocation of arguments.
-/

namespace ScanCatalog

/-- What to do. The numbers of a search are missing where an option got `--` for its
value. -/
inductive Command
  | initDb
  | add (path : Text)
  | edit (path : Text)
  | search (query : Text) (idx limit : Option Int)
deriving DecidableEq, Repr

/-- A command with the number of times that more messages are asked for, if they are. -/
structure Invocation where
  command : Command
  verbose : Option Nat
deriving DecidableEq, Repr

/-- What has been read of the arguments of a level. -/
structure Reading where
  verbose : Option Nat := none
  idx : Option Int := some 0
  limit : Option Int := some 0
  /-- the plain arguments that the level took -/
  taken : List Text := []
  /-- the arguments that nobody took -/
  left : List Text := []
deriving DecidableEq, Repr

/-- How an option gets its value. -/
inductive OptionUse
  /-- options without values -/
  | flags (kinds : List OptionKind)
  | value (kind : OptionKind) (value : Text)
  /-- the value is the next argument -/
  | nextArgument (kind : OptionKind)
deriving DecidableEq, Repr

namespace OptionUse

/-- The options whose short names are written one after the other, the first without
its dash and the others likewise; `kind` is the option before them. -/
def shared (level : Level) (kind : OptionKind) : List Nat → Except UsageFault (List OptionKind)
  | [] => .ok [kind]
  | c :: rest =>
    match level.option? ⟨[Token.dash, c]⟩ with
    | some next => do return kind :: (← shared level next rest)
    | none => .error (.unwantedValue kind ⟨c :: rest⟩)

/-- Whether a name is a short one. -/
def isShort (name : Text) : Bool := (name.codes.drop 1).head? != some Token.dash

/-- The use of an option under a name, with a value if one is attached. -/
def ofOption (level : Level) (kind : OptionKind) (name : Text) (value : Option Text) :
    Except UsageFault OptionUse :=
  match kind.takesNumber, value with
  | true, some value => .ok (.value kind value)
  | true, none => .ok (.nextArgument kind)
  | false, none => .ok (.flags [kind])
  | false, some value =>
    if isShort name && !value.isEmpty then do return .flags (← shared level kind value.codes)
    else .error (.unwantedValue kind value)

end OptionUse

namespace Reading

/-- The number that a value writes. The mark that ends the options is no value. -/
def numberOf (kind : OptionKind) (value : Text) : Except UsageFault (Option Int) :=
  if value = Token.endText then .ok none
  else
    match value.readInt with
    | .value i => .ok (some i)
    | _ => .error (.notNumber kind value)

/-- The reading with the value of an option. -/
def setNumber (reading : Reading) (kind : OptionKind) (value : Text) :
    Except UsageFault Reading := do
  let number ← numberOf kind value
  match kind with
  | .idx => return { reading with idx := number }
  | .limit => return { reading with limit := number }
  | .help | .verbose => return reading

/-- The reading after an option without value; none if it asks for help. -/
def raise? (reading : Reading) (kind : OptionKind) : Option Reading :=
  match kind with
  | .help => none
  | .verbose => some { reading with verbose := some (reading.verbose.getD 0 + 1) }
  | .idx | .limit => some reading

/-- The reading with an argument that nobody takes. -/
def leave (reading : Reading) (t : Text) : Reading := { reading with left := reading.left ++ [t] }

/-- The reading with arguments that nobody takes. -/
def leaveAll (reading : Reading) (ts : List Text) : Reading :=
  { reading with left := reading.left ++ ts }

/-- Whether the level still takes a plain argument. -/
def wantsPlain (reading : Reading) (level : Level) : Bool :=
  level.positional != .nothing && reading.taken.isEmpty

/-- The reading after the end of the options and the arguments that follow it. A level
that takes one argument takes the first of these without the mark; one that takes all
that follow takes the mark too. -/
def afterEndMark (reading : Reading) (level : Level) (arguments : List Text) : Reading :=
  if reading.wantsPlain level then
    match level.positional, arguments with
    | .allFromOne, t :: rest => { reading with taken := Token.endText :: t :: rest }
    | .atMostOne, [] => reading
    | _, t :: rest => { reading with taken := [t] }.leaveAll rest
    | _, [] => reading.leave Token.endText
  else reading.leaveAll (Token.endText :: arguments)

/-- Reads the tokens of a level. -/
def ofTokens (level : Level) (reading : Reading) : List Token → Except Refusal Reading
  | [] => .ok reading
  | .unknown t :: rest => ofTokens level (reading.leave t) rest
  | .endMark :: rest => .ok (reading.afterEndMark level (rest.map Token.written))
  | .plain t :: rest =>
    if reading.wantsPlain level then
      if level.positional = .allFromOne then
        .ok { reading with taken := t :: rest.map Token.written }
      else
        match rest with
        | .endMark :: rest =>
          .ok ({ reading with taken := [t] }.leaveAll (rest.map Token.written))
        | rest => ofTokens level { reading with taken := [t] } rest
    else ofTokens level (reading.leave t) rest
  | .option _ kind name value :: rest =>
    match OptionUse.ofOption level kind name value with
    | .error fault => .error (.misuse level fault)
    | .ok (.flags kinds) =>
      match kinds.foldlM raise? reading with
      | none => .error (.help level)
      | some reading => ofTokens level reading rest
    | .ok (.value kind value) =>
      match reading.setNumber kind value with
      | .error fault => .error (.misuse level fault)
      | .ok reading => ofTokens level reading rest
    | .ok (.nextArgument kind) =>
      match rest with
      | .plain value :: rest =>
        match reading.setNumber kind value with
        | .error fault => .error (.misuse level fault)
        | .ok reading => ofTokens level reading rest
      | _ => .error (.misuse level (.missingValue kind))

/-- Reads the arguments of a level. -/
def ofArguments (level : Level) (arguments : List Text) : Except Refusal Reading :=
  match Token.ofTexts level arguments with
  | .ok tokens => ofTokens level {} tokens
  | .error fault => .error (.misuse level fault)

end Reading

namespace Command

/-- The query of a search that names none: it asks for everything. -/
def everything : Text := "\x7b\x7d"

/-- The path that a command took. -/
def pathOf (name : CommandName) (reading : Reading) : Except Refusal Text :=
  match reading.taken with
  | path :: _ => .ok path
  | [] => .error (.misuse (.command name) (.missing "file"))

/-- The command of a name with what its arguments say. -/
def ofReading (name : CommandName) (reading : Reading) : Except Refusal Command :=
  match name with
  | .initDb => .ok .initDb
  | .add => do return .add (← pathOf name reading)
  | .edit => do return .edit (← pathOf name reading)
  | .search =>
    .ok (.search (reading.taken.head?.getD everything) reading.idx reading.limit)

end Command

/-- The invocation that arguments ask for. -/
def Invocation.ofArguments (arguments : List Text) : Except Refusal Invocation := do
  let outer ← Reading.ofArguments .program arguments
  match outer.taken with
  | [] => .error (.misuse .program (.missing "command"))
  | word :: rest =>
    match CommandName.ofText? word with
    | none => .error (.misuse .program (.unknownCommand word))
    | some name =>
      let inner ← Reading.ofArguments (.command name) rest
      let command ← Command.ofReading name inner
      match outer.left ++ inner.left with
      | [] => return ⟨command, outer.verbose⟩
      | left => .error (.misuse .program (.unrecognized left))

end ScanCatalog
