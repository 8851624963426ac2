import ScanCatalog.Motor.Store

/-!
# A scripted driver

A driver that writes down its calls and answers them from a script: rows for one
selection after the other, and errors for the first calls that mention a given text.

## Main definitions

* `DriverEvent`: a call of a driver;
* `Script`: the calls so far, and the answers to come;
* `Script.driver`: the calls of the driver, in a dialect.
-/

namespace ScanCatalog

/-- A call of a driver. -/
inductive DriverEvent
  | connect (arguments : List Value) (options : Entries)
  | cursor
  | execute (text : Text) (parameters : Option (List Value))
  | commit
  | rollback
  | closeCursor
  | close
deriving DecidableEq, Repr

/-- The name of a call. -/
def DriverEvent.name : DriverEvent → Text
  | .connect .. => "connect"
  | .cursor => "cursor"
  | .execute .. => "execute"
  | .commit => "commit"
  | .rollback => "rollback"
  | .closeCursor => "cursor.close"
  | .close => "close"

/-- What a scripted error looks for in a call: the text of its statement if it has one,
else its name. -/
def DriverEvent.subject : DriverEvent → Text
  | .execute text _ => text
  | event => event.name

/-- An error for the first call that mentions a text. -/
structure ScriptedError where
  mention : Text
  fault : Fault

/-- The calls so far, and the answers to come. -/
structure Script where
  /-- the calls, the latest first -/
  calls : List DriverEvent := []
  results : List (List (List Value)) := []
  errors : List ScriptedError := []
  insertions : Nat := 0

namespace Script

/-- The calls in the order in which they were made. -/
def events (script : Script) : List DriverEvent := script.calls.reverse

/-- The error for a call, and the errors that remain. -/
def takeError (subject : Text) : List ScriptedError → Option Fault × List ScriptedError
  | [] => (none, [])
  | error :: rest =>
    if subject.contains error.mention then (some error.fault, rest)
    else
      let (found, rest) := takeError subject rest
      (found, error :: rest)

/-- Writes a call down and raises the error for it, if there is one. -/
def note (event : DriverEvent) : Action Script Unit := fun script =>
  let script := { script with calls := event :: script.calls }
  match takeError event.subject script.errors with
  | (some fault, errors) => (.error fault, { script with errors })
  | (none, _) => (.ok (), script)

/-- The answer to a statement that raises no error. -/
def answer (statement : Statement) : Action Script ResultSet := fun script =>
  if statement.isInsert then
    let insertions := script.insertions + 1
    (.ok { lastId := .int insertions }, { script with insertions })
  else if statement.isSelect then
    match script.results with
    | [] => (.ok {}, script)
    | rows :: results => (.ok { rows }, { script with results })
  else (.ok {}, script)

/-- The call that opens a connection in a dialect. -/
def connectEvent (dialect : Dialect) (config : MotorsConfig) : DriverEvent :=
  match dialect with
  | .sqlite => .connect [.text config.dbFile] [("check_same_thread", .bool false)]
  | .mysql =>
    .connect [] [("autocommit", .bool false), ("host", .text config.host),
      ("password", .text config.password), ("port", .int config.portNumber),
      ("user", .text config.user)]

/-- The calls of a scripted driver. -/
def driver (dialect : Dialect) : SqlDriver Script where
  connect config := note (connectEvent dialect config)
  openCursor := note .cursor
  execute statement parameters := do
    note (.execute (statement.text dialect) parameters)
    answer statement
  commit := note .commit
  rollback := note .rollback
  closeCursor := note .closeCursor
  close := note .close

end Script

end ScanCatalog
