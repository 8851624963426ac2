import ScanCatalog.Files.Tree
import ScanCatalog.Motor.Driver
import ScanCatalog.Sql.Limits
import ScanCatalog.Sql.Location

/-!
# A driver on tables

A driver that keeps the motor tables itself, in a file or in memory. The first change
after the end of a transaction begins the next one; what is not committed when the
connection is closed is lost, and so are tables in memory.

## Main definitions

* `Disk`: the files, and the tables of those that are databases;
* `Disk.tree`: all files, those of databases among them;
* `Disk.openName`: the connection to the database of a name;
* `TableServer`: the disk and the open connection;
* `TableServer.refusal?`: why a statement is refused before it is executed;
* `TableServer.executeOn`: what a statement does on a connection;
* `TableServer.driver`: the calls of the driver.
-/

namespace ScanCatalog

/-- The files, and the tables of those that hold a database. -/
structure Disk where
  files : FileTree
  databases : List (Place × Tables) := []

/-- Where the tables of a connection are kept. -/
inductive Storage
  | memory
  | file (place : Place)
  /-- a file that is no database -/
  | garbage
deriving DecidableEq, Repr

/-- An open connection: where its tables are kept, why they cannot be changed if so,
whether they have been made, the tables at the end of the last transaction, and the
tables now. -/
structure TableConnection where
  storage : Storage
  barrier : Option Fault := none
  made : Bool := false
  committed : Tables := {}
  working : Tables := {}
deriving DecidableEq, Repr

/-- The disk and the open connection, if there is one. -/
structure TableServer where
  disk : Disk
  connection : Option TableConnection := none

namespace Disk

/-- The disk with the tables of a file. -/
def store (disk : Disk) (place : Place) (tables : Tables) : Disk :=
  { disk with
    databases := (place, tables) :: disk.databases.filter fun d => d.1 != place }

/-- The octets that the file of a database begins with, up to the first that is not of
UTF-8: its title and its measures, then the head of the first page. -/
def fileStart : List Nat :=
  LocationFault.words "SQLite format 3" ++
    [0, 16, 0, 1, 1, 0, 64, 32, 32, 0, 0, 0, 5, 0, 0, 0, 8, 0, 0, 0, 0, 0, 0, 0, 0, 0, 0, 0, 5,
      0, 0, 0, 4] ++ List.replicate 11 0 ++ [1] ++ List.replicate 35 0 ++ [5, 0, 46, 99, 65] ++
    [13, 15, 248]

/-- All files, those of databases among them. -/
def tree (disk : Disk) : FileTree :=
  ⟨disk.databases.map (fun d => (d.1, fileStart)) ++ disk.files.files⟩

/-- An error of the database that concerns how it runs. -/
def operationalFault (words : Text) : Fault := .driver ⟨.operationalError, [.text words]⟩

/-- The error that a file cannot be opened. -/
def openFault : Fault := operationalFault "unable to open database file"

/-- The error that a file cannot be read. -/
def readFault : Fault := operationalFault "disk I/O error"

/-- The error that a database is only open for reading. -/
def readonlyFault : Fault := operationalFault "attempt to write a readonly database"

/-- The error that a file is no database. -/
def garbageFault : Fault := .driver ⟨.databaseError, ["file is not a database"]⟩

/-- The error that a table has not been made. -/
def noTableFault (table : Text) : Fault := operationalFault ("no such table: " ++ table)

/-- The error that a statement exceeds a limit. -/
def limitFault : StatementLimit → Fault
  | .parameters => operationalFault "too many SQL variables"
  | .depth =>
    operationalFault ("Expression tree is too large (maximum depth " ++
      Text.ofNat Statement.depthLimit ++ ")")

/-- The fault of a name that cannot be used; its message may not be text. -/
def locationFault (fault : LocationFault) : Fault :=
  match Text.ofUtf8 fault.message with
  | .ok words => operationalFault words
  | .error fault => .value (.notUtf8 fault)

/-- The place that names lead to without going there: the name of the parent takes back
the name before it. A file on the way, or a name in a directory with too many octets,
leads nowhere. -/
def lexicalPlace? (disk : Disk) : Place → List (List Nat) → Option Place
  | place, [] => some place
  | place, name :: rest =>
    if name == Path.here || name == Path.parent then lexicalPlace? disk (place.step name) rest
    else if (disk.tree.fileAt? place).isSome then none
    else if disk.files.isDirectory place && Path.nameLimit < name.length then none
    else lexicalPlace? disk (place ++ [name]) rest

/-- The octets that the name of a file beside a database has more than the database's,
while it is changed. -/
def journalSuffix : Nat := 8

/-- Why the database at a place cannot be changed, if so. A change needs a file beside
it, with a longer name. -/
def barrier? (location : Location) (place : Place) : Option Fault :=
  if location.mode == .reading || location.immutable then some readonlyFault
  else if Path.nameLimit < (place.getLast?.getD []).length + journalSuffix then some openFault
  else none

/-- A connection to the file at a place. -/
def openPlace (disk : Disk) (location : Location) (place : Place) :
    Except Fault TableConnection :=
  let barrier := barrier? location place
  if disk.files.isDirectory place then
    .error (if location.mode == .reading && place != Place.root then readFault else openFault)
  else
    match disk.databases.lookup place, disk.files.fileAt? place with
    | some tables, _ => .ok ⟨.file place, barrier, true, tables, tables⟩
    | none, some [] => .ok { storage := .file place, barrier }
    | none, some _ => .ok { storage := .garbage }
    | none, none =>
      if location.mode == .making && disk.files.isDirectory place.above then
        .ok { storage := .file place, barrier }
      else .error openFault

/-- A connection to the database at a location. A database that is not kept in a file
can still be open for reading only. -/
def openLocation (disk : Disk) (location : Location) : Except Fault TableConnection :=
  if location.isTransient then
    .ok { storage := .memory
          barrier := if location.mode == .reading then some readonlyFault else none }
  else
    match disk.lexicalPlace? (Place.start location.path) (Path.names location.path) with
    | some place =>
      if location.modelFile.any fun model => !disk.tree.leadsTo model then .error readFault
      else disk.openPlace location place
    | none => .error openFault

/-- A connection to the database of a name. -/
def openName (disk : Disk) (name : Text) : Except Fault TableConnection :=
  match Path.octets name with
  | .error fault => .error (.value fault)
  | .ok octets =>
    match Location.ofName octets with
    | .error fault => .error (locationFault fault)
    | .ok location => disk.openLocation location

end Disk

namespace TableServer

/-- Changes the open connection. -/
def onConnection {α : Type} (f : TableConnection → Except Fault (α × TableConnection)) :
    Action TableServer α := fun server =>
  match server.connection with
  | none => (.error Disk.openFault, server)
  | some connection =>
    match f connection with
    | .ok (a, connection) => (.ok a, { server with connection := some connection })
    | .error fault => (.error fault, server)

/-- Why a statement does not find its table, if so: the database of the connection is
none, or the table has not been made. -/
def absence? (connection : TableConnection) (statement : Statement) : Option Fault :=
  if connection.storage == .garbage then some Disk.garbageFault
  else if connection.made then none
  else statement.table?.map Disk.noTableFault

/-- Why a statement cannot be begun on a connection, if so: it exceeds a limit, or does not
find its table. It is read before its table is looked up, and joined after. -/
def refusal? (connection : TableConnection) (statement : Statement) : Option Fault :=
  (statement.exceededRead?.map Disk.limitFault).or
    ((absence? connection statement).or (statement.exceededJoined?.map Disk.limitFault))

/-- Makes the tables, unless they have been made. -/
def makeTables (connection : TableConnection) : Except Fault TableConnection :=
  if connection.made then .ok connection
  else
    match connection.barrier with
    | some fault => .error fault
    | none => .ok { connection with made := true }

/-- What a statement on rows does on a connection. -/
def executeRows (statement : Statement) (parameters : List Value) (connection : TableConnection) :
    Except Fault (ResultSet × TableConnection) := do
  let cells ← Cell.ofParameters 1 parameters
  match statement.isChange, connection.barrier with
  | true, some fault => .error fault
  | _, _ =>
    let (working, result) ← connection.working.execute statement cells
    .ok (result, { connection with working })

/-- What a statement does on a connection. -/
def executeOn (statement : Statement) (parameters : Option (List Value))
    (connection : TableConnection) : Except Fault (ResultSet × TableConnection) :=
  match refusal? connection statement with
  | some fault => .error fault
  | none =>
    match statement with
    | .create _ =>
      match makeTables connection with
      | .ok connection => .ok ({}, connection)
      | .error fault => .error fault
    | statement => executeRows statement (parameters.getD []) connection

/-- Makes the changes of the open transaction last. -/
def commit : Action TableServer Unit := fun server =>
  match server.connection with
  | none => (.ok (), server)
  | some connection =>
    let disk := match connection.storage, connection.made with
      | .file place, true => server.disk.store place connection.working
      | _, _ => server.disk
    (.ok (), ⟨disk, some { connection with committed := connection.working }⟩)

/-- Undoes the changes of the open transaction. -/
def rollback : Action TableServer Unit :=
  Action.modify fun server =>
    { server with
      connection := server.connection.map fun c => { c with working := c.committed } }

/-- The calls of a driver on tables. -/
def driver : SqlDriver TableServer where
  connect config := fun server =>
    match server.disk.openName config.dbFile with
    | .ok connection => (.ok (), { server with connection := some connection })
    | .error fault => (.error fault, server)
  openCursor := Action.pure ()
  execute statement parameters := onConnection (executeOn statement parameters)
  commit := commit
  rollback := rollback
  closeCursor := Action.pure ()
  close := Action.modify fun server => { server with connection := none }

/-- A server whose tables are kept in memory, without files. -/
def inMemory : TableServer := ⟨⟨⟨[]⟩, []⟩, none⟩

/-- The calls of a driver that reaches no server. -/
def unreachable : SqlDriver TableServer :=
  { driver with
    connect := fun _ =>
      Action.fail (.driver ⟨.operationalError, [.int 2003, "no server"]⟩) }

/-- The driver of a dialect where there are files but no servers. -/
def driverFor : Dialect → SqlDriver TableServer
  | .sqlite => driver
  | .mysql => unreachable

end TableServer

end ScanCatalog
