import ScanCatalog.Motor.Driver
import ScanCatalog.Record.Schema

/-!
# The motor store

The motor store keeps the motor record of each scan in the motor tables. Every change
is one transaction: it is made whole, or the store rolls it back and reports why. A
driver error is reported as a fault of the motor store; other faults pass as they are.

## Main definitions

* `Session`: a driver with the knowledge whether it is connected;
* `MotorStore`: a driver with the dialect of its statements;
* `MotorStore.connect`, `disconnect`, `createSchema`;
* `MotorStore.insert`, `replaceMotors`: the changes;
* `MotorStore.bySids`, `byQueries`, `byPosition`, `count`: the questions;
* `groupRows`: the motor records of selected rows.
-/

namespace ScanCatalog

/-- The state of a motor store: whether it holds a connection, and its driver's state. -/
structure Session (σ : Type) where
  connected : Bool
  server : σ

/-- A motor store: how to reach the tables, and by which driver. -/
structure MotorStore (σ : Type) where
  config : MotorsConfig
  dialect : Dialect
  driver : SqlDriver σ

/-- The motor store of a configuration, whose type must be that of a dialect. -/
def MotorStore.ofConfig {σ : Type} (config : MotorsConfig) (driver : Dialect → SqlDriver σ) :
    Except Fault (MotorStore σ) :=
  match Dialect.ofName? config.dbType with
  | some dialect => .ok ⟨config, dialect, driver dialect⟩
  | none => .error (.motorStore (.unsupportedType config.dbType))

/-! ### Motor records of rows -/

/-- The first three values of a row, which must have no others. -/
def rowParts : List Value → Except Fault (Value × Value × Value)
  | [sid, mnemonic, position] => .ok (sid, mnemonic, position)
  | row =>
    if row.length < 3 then .error (.value (.tooFewItems 3 row.length))
    else .error (.value (.tooManyItems 3))

/-- The motor of a row with its position as a number, if the row has both. -/
def rowMotor? (mnemonic position : Value) : Except Fault (Option (Value × Value)) :=
  if mnemonic.isNull || position.isNull then .ok none
  else do
    let x ← liftValue position.toReal
    if mnemonic.isHashable then return some (mnemonic, .float x)
    else .error (.value (.unhashable mnemonic.kindName))

/-- A record with the motor of a row, if it has one. -/
def MotorRecord.withMotor (record : MotorRecord) : Option (Value × Value) → MotorRecord
  | none => record
  | some motor => { record with motors := record.motors.set motor.1 motor.2 }

/-- The records, by the sids that rows gave, with a row put in: in the record of its sid,
or in a new one. A sid that equals nothing always makes a new one. -/
def addRow (records : List (Value × MotorRecord)) (row : List Value) :
    Except Fault (List (Value × MotorRecord)) := do
  let (sid, mnemonic, position) ← rowParts row
  if !sid.isHashable then .error (.value (.unhashable sid.kindName))
  if records.any fun r => sid.same r.1 then
    let motor ← rowMotor? mnemonic position
    return records.map fun r => if sid.same r.1 then (r.1, r.2.withMotor motor) else r
  else
    let x ← liftValue sid.toReal
    let motor ← rowMotor? mnemonic position
    return records ++ [(sid, MotorRecord.withMotor ⟨.float x, []⟩ motor)]

/-- The motor records of selected rows: rows of the same sid make one record, in the
order of their first rows. A row without a position adds no motor. -/
def groupRows (rows : List (List Value)) : Except Fault (List MotorRecord) := do
  return (← rows.foldlM addRow []).map (·.2)

/-! ### Checked motors -/

/-- The entries of motors with their positions as numbers; every mnemonic must be a
text that is not empty and every position a finite number. -/
def checkedEntries : Entries → Except Fault Entries
  | [] => .ok []
  | (mnemonic, position) :: rest =>
    match mnemonic with
    | .text t =>
      if t.isEmpty then .error (.motorStore (.badMnemonic mnemonic))
      else do
        if ← liftValue (isPosition position) then
          let x ← liftValue position.toReal
          return (mnemonic, .float x) :: (← checkedEntries rest)
        else .error (.motorStore (.badPosition t position))
    | _ => .error (.motorStore (.badMnemonic mnemonic))

/-- The motors to store: those of a mapping, or none for what counts as false. -/
def checkMotors (motors : Value) : Except Fault Entries :=
  if motors.truth then
    match motors with
    | .map entries => checkedEntries entries
    | v => .error (.value (.noMember v.kindName "items"))
  else .ok []

/-- The sids without those that come again. -/
def distinctSids : List Value → List Value → Except Fault (List Value)
  | taken, [] => .ok taken
  | taken, sid :: rest =>
    if !sid.isHashable then .error (.value (.unhashable sid.kindName))
    else if taken.any fun s => sid.same s then distinctSids taken rest
    else distinctSids (taken ++ [sid]) rest

/-- Whether sids are numbers that go up from a quantity. -/
def sidsRise (low : Quantity) : List Value → Bool
  | [] => true
  | sid :: rest =>
    match sid.quantity? with
    | some quantity => low.less quantity && sidsRise quantity rest
    | none => false

/-- The sids without those that come again. Sids that go up are not compared with all those
before them, since none of them can come again. -/
def uniqueSids (sids : List Value) : Except Fault (List Value) :=
  if sidsRise .below sids then .ok sids else distinctSids [] sids

namespace MotorStore

variable {σ α : Type}

/-- A call of the driver. -/
def call (action : Action σ α) : Action (Session σ) α :=
  action.zoom Session.server fun session server => { session with server }

/-- Remembers whether the store holds a connection. -/
def setConnected (connected : Bool) : Action (Session σ) Unit :=
  Action.modify fun session => { session with connected }

/-- Fails unless the store holds a connection. -/
def requireConnection : Action (Session σ) Unit := do
  let session ← Action.get
  if session.connected then Action.pure () else Action.fail (.motorStore .notConnected)

/-- Continues after a driver error that the store handles; other faults pass. -/
def onDriverError (action : Action (Session σ) α)
    (handler : DriverFault → Action (Session σ) α) : Action (Session σ) α :=
  action.handle fun fault =>
    match fault with
    | .driver reason => if reason.isError then handler reason else Action.fail fault
    | fault => Action.fail fault

/-- Runs a statement with parameters. -/
def execute (store : MotorStore σ) (statement : Statement) (parameters : List Value) :
    Action (Session σ) ResultSet :=
  call (store.driver.execute statement (some parameters))

/-- Rolls the transaction back and fails. -/
def undo (store : MotorStore σ) (fault : Fault) : Action (Session σ) α := do
  call store.driver.rollback
  Action.fail fault

/-- Does something with a cursor, which is closed in any case. -/
def withCursor (store : MotorStore σ) (action : Action (Session σ) α) :
    Action (Session σ) α := do
  call store.driver.openCursor
  action.always (call store.driver.closeCursor)

/-- Runs the statements that create the parts of the schema. -/
def createParts (store : MotorStore σ) : List SchemaPart → Action (Session σ) Unit
  | [] => Action.pure ()
  | part :: rest => do
    let _ ← call (store.driver.execute (.create part) none)
    createParts store rest

/-- Creates the tables that are missing. -/
def createSchema (store : MotorStore σ) : Action (Session σ) Unit := do
  requireConnection
  store.withCursor <| onDriverError
    (do
      store.createParts store.dialect.schema
      call store.driver.commit)
    fun reason => store.undo (.motorStore (.schema reason))

/-- Opens the connection; a server is asked for its database too. -/
def openConnection (store : MotorStore σ) : Action (Session σ) Unit := do
  call (store.driver.connect store.config)
  setConnected true
  match store.dialect with
  | .sqlite => Action.pure ()
  | .mysql =>
    call store.driver.openCursor
    let _ ← call (store.driver.execute (.createDatabase store.config.database) none)
    let _ ← call (store.driver.execute (.useDatabase store.config.database) none)
    call store.driver.closeCursor

/-- Connects, unless the store holds a connection already, and creates the tables that
are missing. -/
def connect (store : MotorStore σ) : Action (Session σ) Unit := do
  let session ← Action.get
  if session.connected then Action.pure ()
  else
    onDriverError store.openConnection fun reason => do
      setConnected false
      Action.fail (.motorStore (.connect reason))
    store.createSchema

/-- Closes the connection, if the store holds one. -/
def disconnect (store : MotorStore σ) : Action (Session σ) Unit := do
  let session ← Action.get
  if session.connected then
    call store.driver.close
    setConnected false
  else Action.pure ()

/-- Puts in the motors of a scan. -/
def insertMotors (store : MotorStore σ) (scanId : Value) : Entries → Action (Session σ) Unit
  | [] => Action.pure ()
  | (mnemonic, position) :: rest => do
    let motor ← store.execute .insertMnemonic [scanId, mnemonic]
    let _ ← store.execute .insertPosition [motor.lastId, position]
    insertMotors store scanId rest

/-- Whether a scan of a sid is stored. -/
def sidExists (store : MotorStore σ) (sid : Value) : Action (Session σ) Bool :=
  store.withCursor do
    let found ← store.execute .selectScanId [sid]
    return !found.rows.isEmpty

/-- Reports a driver error of an insertion, after rolling it back: a broken constraint
as a duplicate if a scan of the sid is stored. -/
def insertFailed (store : MotorStore σ) (sid : Value) (reason : DriverFault) :
    Action (Session σ) α := do
  call store.driver.rollback
  if reason.isIntegrity then
    if ← store.sidExists sid then Action.fail (.duplicateScan sid reason.message)
    else Action.fail (.motorStore (.insert sid reason))
  else Action.fail (.motorStore (.insert sid reason))

/-- Stores the motors of a new scan as one transaction, and gives its row number. -/
def insert (store : MotorStore σ) (sid motors : Value) : Action (Session σ) Value := do
  let motors ← Action.ofExcept (checkMotors motors)
  requireConnection
  store.withCursor <| onDriverError
    (do
      let scan ← store.execute .insertScan [sid]
      store.insertMotors scan.lastId motors
      call store.driver.commit
      return scan.lastId)
    (store.insertFailed sid)

/-- The row number in the first column of a row. -/
def firstColumn (row : List Value) : Except Fault Value :=
  match row with
  | v :: _ => .ok v
  | [] => .error (.value .noIndex)

/-- Reports a failed replacement, after rolling it back if the store or the driver
reported the failure. -/
def replaceFailed (store : MotorStore σ) (sid : Value) (fault : Fault) :
    Action (Session σ) α :=
  match fault with
  | .motorStore _ => store.undo fault
  | .driver reason =>
    if reason.isError then store.undo (.motorStore (.replace sid reason)) else Action.fail fault
  | fault => Action.fail fault

/-- Replaces the motors of a stored scan as one transaction. -/
def replaceMotors (store : MotorStore σ) (sid motors : Value) : Action (Session σ) Unit := do
  let motors ← Action.ofExcept (checkMotors motors)
  requireConnection
  store.withCursor <| Action.handle
    (do
      let found ← store.execute .selectScanId [sid]
      match found.rows with
      | [] => Action.fail (.motorStore (.unknownScan sid))
      | row :: _ =>
        let scanId ← Action.ofExcept (firstColumn row)
        let _ ← store.execute .deletePositions [scanId]
        let _ ← store.execute .deleteMnemonics [scanId]
        store.insertMotors scanId motors
        call store.driver.commit)
    (store.replaceFailed sid)

/-- The number in a row of one column. -/
def countOf (rows : List (List Value)) : Except Fault Int := do
  match rows with
  | [] => .error (.value (.notSubscriptable "NoneType"))
  | row :: _ => liftValue (← firstColumn row).toInt

/-- The number of stored scans. -/
def count (store : MotorStore σ) : Action (Session σ) Int := do
  requireConnection
  store.withCursor <| onDriverError
    (do
      let counted ← call (store.driver.execute .countScans none)
      Action.ofExcept (countOf counted.rows))
    fun reason => Action.fail (.motorStore (.count reason))

/-- The motor records that a statement selects. -/
def fetch (store : MotorStore σ) (statement : Statement) (parameters : List Value) :
    Action (Session σ) (List MotorRecord) := do
  requireConnection
  let selected ← store.withCursor <| onDriverError
    (do
      let selected ← store.execute statement parameters
      call store.driver.commit
      return selected)
    fun reason => store.undo (.motorStore (.query reason))
  Action.ofExcept (groupRows selected.rows)

/-- The motor records of the scans of some sids. -/
def bySids (store : MotorStore σ) (sids : List Value) :
    Action (Session σ) (List MotorRecord) := do
  let sids ← Action.ofExcept (uniqueSids sids)
  if sids.isEmpty then return []
  else store.fetch (.selectBySids sids.length) sids

/-- The motor records of the scans that satisfy all queries. -/
def byQueries (store : MotorStore σ) (queries : List PositionQuery) :
    Action (Session σ) (List MotorRecord) :=
  store.fetch (.ofQueries queries) (parametersOf queries)

/-- The motor records of the scans with a motor at a position. -/
def byPosition (store : MotorStore σ) (mnemonic position : Value) :
    Action (Session σ) (List MotorRecord) := do
  let x ← Action.ofExcept (liftValue position.toReal)
  store.byQueries [{ mnemonic, exact := some [.float x] }]

end MotorStore

end ScanCatalog
