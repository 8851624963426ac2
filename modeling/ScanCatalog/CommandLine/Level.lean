import ScanCatalog.Text.Quoted

/-!
# The levels of the command line

The arguments of the program begin with its own options and the name of a command; all
that follows is read by the command. So there is a level of arguments for the program
and one for each command. A level has options and at most one kind of plain argument.

## Main definitions

* `CommandName`: the commands;
* `Level`, `Level.options`, `Level.positional`: the levels and what each takes;
* `OptionKind`: the options, with their names;
* `Refusal`: why arguments do not lead to a command;
* `UsageFault.message`: what is wrong with arguments.
-/

namespace ScanCatalog

/-- The commands. -/
inductive CommandName
  | initDb
  | add
  | edit
  | search
deriving DecidableEq, Repr

namespace CommandName

/-- All commands, in the order in which they are listed. -/
def all : List CommandName := [.initDb, .add, .edit, .search]

/-- The text that names a command. -/
def text : CommandName → Text
  | .initDb => "init-db"
  | .add => "add"
  | .edit => "edit"
  | .search => "search"

/-- The command that a text names. -/
def ofText? (t : Text) : Option CommandName := all.find? fun name => name.text == t

end CommandName

/-- The options. -/
inductive OptionKind
  | help
  | verbose
  | idx
  | limit
deriving DecidableEq, Repr

namespace OptionKind

/-- The names of an option, a short one before a long one. -/
def names : OptionKind → List Text
  | .help => ["-h", "--help"]
  | .verbose => ["-v", "--verbose"]
  | .idx => ["--idx"]
  | .limit => ["--limit"]

/-- An option in a message. -/
def title (kind : OptionKind) : Text := Text.join "/" kind.names

/-- Whether an option is followed by a number. -/
def takesNumber : OptionKind → Bool
  | .help | .verbose => false
  | .idx | .limit => true

end OptionKind

/-- The plain arguments that a level takes. -/
inductive Positional
  | nothing
  /-- one, which has to be there -/
  | one
  /-- one, which may be missing -/
  | atMostOne
  /-- one and all arguments that follow it, options too -/
  | allFromOne
deriving DecidableEq, Repr

/-- Where arguments are read: by the program itself or by a command. -/
inductive Level
  | program
  | command (name : CommandName)
deriving DecidableEq, Repr

namespace Level

/-- The options of a level. -/
def options : Level → List OptionKind
  | .program => [.help, .verbose]
  | .command .search => [.help, .idx, .limit]
  | .command _ => [.help]

/-- The plain arguments of a level. -/
def positional : Level → Positional
  | .program => .allFromOne
  | .command .initDb => .nothing
  | .command .add | .command .edit => .one
  | .command .search => .atMostOne

/-- What a level is called. -/
def title : Level → Text
  | .program => "specscans"
  | .command name => "specscans " ++ name.text

/-- The names of the options of a level, each with its option. -/
def optionNames (level : Level) : List (Text × OptionKind) :=
  level.options.flatMap fun kind => kind.names.map fun name => (name, kind)

/-- The option of a name. -/
def option? (level : Level) (name : Text) : Option OptionKind := level.optionNames.lookup name

end Level

/-- What is wrong with the arguments of a level. -/
inductive UsageFault
  /-- the beginning of several option names -/
  | ambiguous (written : Text) (names : List Text)
  /-- a value for an option that takes none -/
  | unwantedValue (kind : OptionKind) (value : Text)
  | missingValue (kind : OptionKind)
  /-- the value of an option is no number -/
  | notNumber (kind : OptionKind) (value : Text)
  /-- there is no argument of the given name -/
  | missing (name : Text)
  | unknownCommand (name : Text)
  | unrecognized (arguments : List Text)
deriving DecidableEq, Repr

namespace UsageFault

/-- The message of a usage fault. -/
def message : UsageFault → Text
  | .ambiguous written names =>
    "ambiguous option: " ++ written ++ " could match " ++ Text.join ", " names
  | .unwantedValue kind value =>
    "argument " ++ kind.title ++ ": ignored explicit argument " ++ value.quoted
  | .missingValue kind => "argument " ++ kind.title ++ ": expected one argument"
  | .notNumber kind value =>
    "argument " ++ kind.title ++ ": invalid int value: " ++ value.quoted
  | .missing name => "the following arguments are required: " ++ name
  | .unknownCommand name =>
    "argument command: invalid choice: " ++ name.quoted ++ " (choose from " ++
      Text.join ", " (CommandName.all.map fun name => name.text.quoted) ++ ")"
  | .unrecognized arguments => "unrecognized arguments: " ++ Text.join " " arguments

end UsageFault

/-- Why arguments do not lead to a command. -/
inductive Refusal
  /-- they ask for help with a level -/
  | help (level : Level)
  | misuse (level : Level) (fault : UsageFault)
deriving DecidableEq, Repr

end ScanCatalog
