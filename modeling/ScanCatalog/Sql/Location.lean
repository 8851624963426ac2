import ScanCatalog.Text.Basic
import ScanCatalog.Text.Digit

/-!
# Where a database is

The name of a database is a path, or a URI that begins with `file:`. A URI may have an
authority, which is empty or `localhost`, a path with escapes, and options after a
question mark; a number sign ends it. Options say whether the file may be changed or
made, and which file system keeps it. All names are octets.

## Main definitions

* `AccessMode`, `FileSystem`: what options choose;
* `Location`: what a name says;
* `LocationFault`: why a name cannot be used;
* `Location.ofName`: reading a name.
-/

namespace ScanCatalog

/-- What may be done with the file of a database. -/
inductive AccessMode
  | reading
  | changing
  /-- changing it, and making it if there is none -/
  | making
  /-- there is no file: the database is kept in memory -/
  | memory
deriving DecidableEq, Repr

/-- Who keeps the file of a database. -/
inductive FileSystem
  | disk
  | memory
deriving DecidableEq, Repr

/-- What the name of a database says. -/
structure Location where
  path : List Nat
  mode : AccessMode := .making
  system : FileSystem := .disk
  /-- the file is said never to change -/
  immutable : Bool := false
  /-- the file whose permissions a new file gets -/
  modelFile : Option (List Nat) := none
deriving DecidableEq, Repr

/-- Why the name of a database cannot be used. -/
inductive LocationFault
  | authority (octets : List Nat)
  | unknownMode (option value : List Nat)
  /-- an option before allows less -/
  | widerMode (value : List Nat)
  | unknownSystem (name : List Nat)
deriving DecidableEq, Repr

namespace LocationFault

/-- The octets of a string. -/
def words (s : String) : List Nat := (Text.ofString s).codes

/-- The octets of the message of a fault. -/
def message : LocationFault → List Nat
  | .authority octets => words "invalid uri authority: " ++ octets
  | .unknownMode option value => words "no such " ++ option ++ words " mode: " ++ value
  | .widerMode value => words "access mode not allowed: " ++ value
  | .unknownSystem name => words "no such vfs: " ++ name

end LocationFault

namespace AccessMode

/-- The modes by their names. -/
def names : List (List Nat × AccessMode) :=
  [(LocationFault.words "ro", .reading), (LocationFault.words "rw", .changing),
    (LocationFault.words "rwc", .making), (LocationFault.words "memory", .memory)]

/-- How much a mode allows. -/
def breadth : AccessMode → Nat
  | .reading => 1
  | .changing => 2
  | .making => 3
  | .memory => 4

/-- Whether a mode may follow another; keeping no file always may. -/
def mayFollow (mode before : AccessMode) : Bool :=
  mode == .memory || mode.breadth ≤ before.breadth

end AccessMode

namespace FileSystem

/-- The file systems by their names. -/
def names : List (List Nat × FileSystem) :=
  [(LocationFault.words "unix", .disk), (LocationFault.words "unix-excl", .disk),
    (LocationFault.words "unix-dotfile", .disk), (LocationFault.words "unix-none", .disk),
    (LocationFault.words "memdb", .memory)]

end FileSystem

namespace Location

/-- The octets with escapes replaced by what they stand for; an escaped null octet ends
them. -/
def unescape : List Nat → List Nat
  | [] => []
  | 37 :: high :: low :: rest =>
    match Text.hexDigit? high, Text.hexDigit? low with
    | some h, some l => if h * 16 + l = 0 then [] else (h * 16 + l) :: unescape rest
    | _, _ => 37 :: unescape (high :: low :: rest)
  | c :: rest => c :: unescape rest

/-- The octets before the first `mark`, and those after it. -/
def splitAt (mark : Nat) (octets : List Nat) : List Nat × List Nat :=
  (octets.takeWhile (· != mark), (octets.dropWhile (· != mark)).drop 1)

/-- The options in the octets after the question mark, each with its value. Those
without a name are left out. -/
def options (query : List Nat) : List (List Nat × List Nat) :=
  ((Text.cut 38 query).map fun option =>
    let (name, value) := splitAt 61 option
    (unescape name, unescape value)).filter fun option => !option.1.isEmpty

/-- Whether a value says yes: a word for it, or a number that is not zero. -/
def saysYes (value : List Nat) : Bool :=
  let lower := value.map fun c => if 65 ≤ c && c < 91 then c + 32 else c
  [LocationFault.words "on", LocationFault.words "yes", LocationFault.words "true"].contains lower ||
    ((value.takeWhile fun c => 48 ≤ c && c < 58).any (· != 48))

/-- The place and the name of the file system that options lead to. -/
def applyOption (state : Location × List Nat) (option : List Nat × List Nat) :
    Except LocationFault (Location × List Nat) :=
  let (name, value) := option
  let (location, system) := state
  if name == LocationFault.words "vfs" then .ok (location, value)
  else if name == LocationFault.words "cache" then
    if value == LocationFault.words "shared" || value == LocationFault.words "private" then
      .ok state
    else .error (.unknownMode name value)
  else if name == LocationFault.words "mode" then
    match AccessMode.names.lookup value with
    | none => .error (.unknownMode (LocationFault.words "access") value)
    | some mode =>
      if mode.mayFollow location.mode then .ok ({ location with mode }, system)
      else .error (.widerMode value)
  else .ok state

/-- What a URI says after its scheme and authority. -/
def ofRest (rest : List Nat) : Except LocationFault Location := do
  let (path, query) := splitAt 63 (splitAt 35 rest).1
  let found := options query
  let start : Location :=
    { path := unescape path
      immutable := ((found.lookup (LocationFault.words "immutable")).map saysYes).getD false
      modelFile := found.lookup (LocationFault.words "modeof") }
  let (location, system) ← found.foldlM applyOption (start, LocationFault.words "unix")
  match FileSystem.names.lookup system with
  | some system => .ok { location with system }
  | none => .error (.unknownSystem system)

/-- What a URI says after its scheme. -/
def ofUri (uri : List Nat) : Except LocationFault Location :=
  match uri with
  | 47 :: 47 :: rest =>
    let authority := rest.takeWhile (· != 47)
    if authority.isEmpty || authority == LocationFault.words "localhost" then
      ofRest (rest.dropWhile (· != 47))
    else .error (.authority authority)
  | rest => ofRest rest

/-- The octets that a URI begins with. -/
def scheme : List Nat := LocationFault.words "file:"

/-- What the name of a database says. -/
def ofName (name : List Nat) : Except LocationFault Location :=
  if scheme.isPrefixOf name then ofUri (name.drop scheme.length) else .ok { path := name }

/-- Whether the database has no file that outlasts the connection: it has no path, or
is kept in memory. -/
def isTransient (location : Location) : Bool :=
  location.path.isEmpty || location.path == LocationFault.words ":memory:" ||
    location.mode == .memory || location.system == .memory

end Location

end ScanCatalog
