import ScanCatalog.Motor.Store
import ScanCatalog.Motor.TableDriver
import ScanCatalog.Proofs.Action.Leads
import ScanCatalog.Proofs.Action.Outcome

/-!
# The motor store on a table connection

What each operation of the motor store does to an open connection of the table driver.
The disk behind the connection does not matter here: a session *is on* a connection if
it is connected and holds it, and every operation leads from one connection to another.
A function on connections says which fault or result it gives and where it leads, with
what the store reports for a driver error put in its place.

## Main definitions

* `Session.On`: a session that is on a connection;
* `TableConnection.insert`, `TableConnection.replace`, `TableConnection.fetch`: the
  operations up to the fault that the store handles;
* `TableConnection.reported`: the handling of a driver error.

## Main statements

* `TableServer.executeOn_ok`, `TableServer.executeOn_ready`: what a statement does;
* `MotorStore.insert_leads`, `MotorStore.replaceMotors_leads`, `MotorStore.fetch_leads`:
  where the operations lead.
-/

namespace ScanCatalog

open ScanCatalog.Action

/-- The motor store whose tables are kept by the table driver. -/
def MotorStore.onTables (config : MotorsConfig) : MotorStore TableServer :=
  ⟨config, .sqlite, TableServer.driver⟩

/-- A session that is connected and holds a connection. -/
def Session.On (session : Session TableServer) (c : TableConnection) : Prop :=
  session.connected = true ∧ session.server.connection = some c

/-- Whether a fault is an error of the driver that the store handles. -/
def Fault.isDriverError : Fault → Bool
  | .driver reason => reason.isError
  | _ => false

namespace TableConnection

/-- The connection after the end of a transaction. -/
def settled (c : TableConnection) : TableConnection := { c with committed := c.working }

/-- The connection after a transaction was undone. -/
def undone (c : TableConnection) : TableConnection := { c with working := c.committed }

/-- What becomes of an outcome when driver errors are undone and reported. -/
def reported {α : Type} (report : TableConnection → DriverFault → Fault) :
    Except Fault α × TableConnection → Except Fault α × TableConnection
  | (.error (.driver reason), c) =>
    if reason.isError then (.error (report c.undone reason), c.undone)
    else (.error (.driver reason), c)
  | outcome => outcome

/-- Puts in the motors of a scan one after the other, up to the first fault. -/
def putMotors (scanId : Value) (c : TableConnection) : Entries → Except Fault Unit × TableConnection
  | [] => (.ok (), c)
  | (mnemonic, position) :: rest =>
    match TableServer.executeOn .insertMnemonic (some [scanId, mnemonic]) c with
    | .error fault => (.error fault, c)
    | .ok (motor, c) =>
      match TableServer.executeOn .insertPosition (some [motor.lastId, position]) c with
      | .error fault => (.error fault, c)
      | .ok (_, c) => putMotors scanId c rest

/-- Puts in a scan with its motors, and ends the transaction if all went well. -/
def insert (c : TableConnection) (sid : Value) (motors : Entries) :
    Except Fault Value × TableConnection :=
  match TableServer.executeOn .insertScan (some [sid]) c with
  | .error fault => (.error fault, c)
  | .ok (scan, c) =>
    match putMotors scan.lastId c motors with
    | (.error fault, c) => (.error fault, c)
    | (.ok (), c) => (.ok scan.lastId, c.settled)

/-- What the store reports for a driver error of an insertion that was undone. -/
def insertFault (c : TableConnection) (sid : Value) (reason : DriverFault) : Fault :=
  if reason.isIntegrity then
    match TableServer.executeOn .selectScanId (some [sid]) c with
    | .error fault => fault
    | .ok (found, _) =>
      if found.rows.isEmpty then .motorStore (.insert sid reason)
      else .duplicateScan sid reason.message
  else .motorStore (.insert sid reason)

/-- The row number of the scan of a sid. -/
def scanIdOf (c : TableConnection) (sid : Value) : Except Fault Value :=
  match TableServer.executeOn .selectScanId (some [sid]) c with
  | .error fault => .error fault
  | .ok (found, _) =>
    match found.rows with
    | [] => .error (.motorStore (.unknownScan sid))
    | row :: _ => MotorStore.firstColumn row

/-- Takes out the motors of a scan and puts in others, and ends the transaction if all
went well. -/
def swapMotors (scanId : Value) (motors : Entries) (c : TableConnection) :
    Except Fault Unit × TableConnection :=
  match TableServer.executeOn .deletePositions (some [scanId]) c with
  | .error fault => (.error fault, c)
  | .ok (_, c) =>
    match TableServer.executeOn .deleteMnemonics (some [scanId]) c with
    | .error fault => (.error fault, c)
    | .ok (_, c) =>
      match putMotors scanId c motors with
      | (.error fault, c) => (.error fault, c)
      | (.ok (), c) => (.ok (), c.settled)

/-- Replaces the motors of the scan of a sid. -/
def replace (c : TableConnection) (sid : Value) (motors : Entries) :
    Except Fault Unit × TableConnection :=
  match c.scanIdOf sid with
  | .error fault => (.error fault, c)
  | .ok scanId => swapMotors scanId motors c

/-- What becomes of the outcome of a replacement: faults of the store are undone too. -/
def replaceReported (sid : Value) :
    Except Fault Unit × TableConnection → Except Fault Unit × TableConnection
  | (.error (.motorStore cause), c) => (.error (.motorStore cause), c.undone)
  | outcome => reported (fun _ reason => .motorStore (.replace sid reason)) outcome

/-- The rows that a statement selects; the transaction ends with it. -/
def fetch (c : TableConnection) (statement : Statement) (parameters : List Value) :
    Except Fault ResultSet × TableConnection :=
  match TableServer.executeOn statement (some parameters) c with
  | .error fault => (.error fault, c)
  | .ok (selected, c) => (.ok selected, c.settled)

theorem reported_driverError {α : Type} (report : TableConnection → DriverFault → Fault)
    {fault : Fault} (h : fault.isDriverError = true) (c : TableConnection) :
    ∃ reason, fault = .driver reason ∧
      reported report (.error fault, c) =
        ((.error (report c.undone reason) : Except Fault α), c.undone) := by
  cases fault with
  | driver reason =>
    refine ⟨reason, rfl, ?_⟩
    unfold reported
    exact if_pos h
  | _ => cases h

theorem reported_error {α : Type} (report : TableConnection → DriverFault → Fault)
    {fault : Fault} (h : fault.isDriverError = false) (c : TableConnection) :
    reported report (.error fault, c) = ((.error fault : Except Fault α), c) := by
  cases fault with
  | driver reason =>
    unfold reported
    exact if_neg (Bool.eq_false_iff.mp h)
  | _ => rfl

theorem replaceReported_driverError (sid : Value) {fault : Fault} (h : fault.isDriverError = true)
    (c : TableConnection) :
    ∃ reason, replaceReported sid (.error fault, c) =
      (.error (.motorStore (.replace sid reason)), c.undone) := by
  obtain ⟨reason, rfl, hreported⟩ := reported_driverError (α := Unit)
    (fun _ reason => .motorStore (.replace sid reason)) h c
  exact ⟨reason, hreported⟩

/-- The connection takes statements on rows: its tables are made and can be changed. -/
structure Ready (c : TableConnection) : Prop where
  storage : c.storage ≠ .garbage
  barrier : c.barrier = none
  made : c.made = true

/-- Other tables do not make a connection less ready. -/
theorem Ready.withTables {c : TableConnection} (h : c.Ready) (committed working : Tables) :
    { c with committed, working }.Ready :=
  ⟨h.storage, h.barrier, h.made⟩

end TableConnection

/-- A selection leaves the tables as they are. -/
theorem Tables.execute_select {tables tables' : Tables} {statement : Statement}
    {cells : List Cell} {result : ResultSet} (hselect : statement.isSelect)
    (h : tables.execute statement cells = .ok (tables', result)) : tables' = tables := by
  cases statement with
  | selectScanId =>
    rcases cells with _ | ⟨sid, _ | ⟨_, _⟩⟩ <;> cases h <;> rfl
  | countScans | selectBySids | selectByConditions => cases h; rfl
  | _ => cases hselect

namespace TableServer

/-! ### Statements on a connection -/

variable {statement : Statement} {parameters : Option (List Value)} {c c' : TableConnection}
  {result : ResultSet} {fault : Fault}

theorem executeOn_eq (hrows : ∀ part, statement ≠ .create part) :
    executeOn statement parameters c =
      match refusal? c statement with
      | some fault => .error fault
      | none => executeRows statement (parameters.getD []) c := by
  unfold executeOn
  cases statement <;> first | rfl | exact absurd rfl (hrows _)

/-- A statement that is begun does what it does on rows. -/
theorem executeOn_begun (hrows : ∀ part, statement ≠ .create part)
    (hbegun : refusal? c statement = none) :
    executeOn statement parameters c = executeRows statement (parameters.getD []) c := by
  rw [executeOn_eq hrows, hbegun]

theorem executeRows_eq (statement : Statement) (parameters : List Value) (c : TableConnection) :
    executeRows statement parameters c =
      match Cell.ofParameters 1 parameters with
      | .error fault => .error fault
      | .ok cells =>
        match if statement.isChange then c.barrier else none with
        | some fault => .error fault
        | none =>
          match c.working.execute statement cells with
          | .error fault => .error fault
          | .ok (tables, result) => .ok (result, { c with working := tables }) := by
  obtain ⟨storage, barrier, made, committed, working⟩ := c
  unfold executeRows
  cases Cell.ofParameters 1 parameters with
  | error fault => rfl
  | ok cells =>
    rw [Outcome.ok_bind]
    dsimp only
    cases statement.isChange <;> cases barrier <;>
      cases working.execute statement cells <;> simp

/-- A statement on rows that goes well binds its parameters and changes the tables now,
and nothing else of the connection. -/
theorem executeOn_ok (h : executeOn statement parameters c = .ok (result, c'))
    (hrows : ∀ part, statement ≠ .create part) :
    refusal? c statement = none ∧ (statement.isChange = true → c.barrier = none) ∧
      ∃ cells tables, Cell.ofParameters 1 (parameters.getD []) = .ok cells ∧
        c.working.execute statement cells = .ok (tables, result) ∧
        c' = { c with working := tables } := by
  rw [executeOn_eq hrows] at h
  split at h
  · cases h
  · next hrefusal =>
    rw [executeRows_eq] at h
    split at h
    · cases h
    · next cells hcells =>
      split at h
      · cases h
      · next hbarrier =>
        split at h
        · cases h
        · next tables _ hexecute =>
          cases h
          exact ⟨hrefusal, fun hchange => by simpa [hchange] using hbarrier, cells, tables,
            hcells, hexecute, rfl⟩

/-- A statement within the limits is refused only if it does not find its table. -/
theorem refusal?_within (hlimits : statement.exceeded? = none) (c : TableConnection) :
    refusal? c statement = absence? c statement := by
  obtain ⟨hread, hjoined⟩ := Option.or_eq_none_iff.mp hlimits
  rw [refusal?, hread, hjoined, Option.map_none, Option.none_or, Option.or_none]

/-- A connection that is ready refuses a statement for the limit that it exceeds, and for nothing
else. -/
theorem refusal?_ready (hc : c.Ready) (statement : Statement) :
    refusal? c statement = statement.exceeded?.map Disk.limitFault := by
  have hstorage : ¬ (c.storage == .garbage) = true := by simpa using hc.storage
  have hfound : absence? c statement = none := by
    rw [absence?, if_neg hstorage, if_pos hc.made]
  rw [refusal?, hfound, Option.none_or, Statement.exceeded?, Option.map_or]

/-- On a connection that is ready a statement within the limits does what it does to the
tables. -/
theorem executeOn_ready (hrows : ∀ part, statement ≠ .create part)
    (hlimits : statement.exceeded? = none) (hc : c.Ready) :
    executeOn statement parameters c =
      match Cell.ofParameters 1 (parameters.getD []) with
      | .error fault => .error fault
      | .ok cells =>
        match c.working.execute statement cells with
        | .error fault => .error fault
        | .ok (tables, result) => .ok (result, { c with working := tables }) := by
  have hrefusal : refusal? c statement = none := by
    rw [refusal?_ready hc, hlimits, Option.map_none]
  rw [executeOn_begun hrows hrefusal, executeRows_eq, hc.barrier, ite_self]

/-- A statement beyond a limit changes nothing. -/
theorem executeOn_exceeded {limit : StatementLimit} (hrows : ∀ part, statement ≠ .create part)
    (hlimits : statement.exceeded? = some limit) (hc : c.Ready) :
    executeOn statement parameters c = .error (Disk.limitFault limit) := by
  rw [executeOn_eq hrows, refusal?_ready hc, hlimits, Option.map_some]

/-- A selection changes nothing. -/
theorem executeOn_select (hselect : statement.isSelect)
    (h : executeOn statement parameters c = .ok (result, c')) : c' = c := by
  have hrows : ∀ part, statement ≠ .create part := by
    rintro part rfl
    cases hselect
  obtain ⟨-, -, cells, tables, -, hexecute, rfl⟩ := executeOn_ok h hrows
  rw [Tables.execute_select hselect hexecute]

/-! ### Calls of the driver -/

theorem run_execute (statement : Statement) (parameters : Option (List Value))
    (disk : Disk) (c : TableConnection) :
    (driver.execute statement parameters).run ⟨disk, some c⟩ =
      match executeOn statement parameters c with
      | .ok (result, c) => (.ok result, ⟨disk, some c⟩)
      | .error fault => (.error fault, ⟨disk, some c⟩) := by
  change onConnection (executeOn statement parameters) ⟨disk, some c⟩ = _
  unfold onConnection
  dsimp only
  cases executeOn statement parameters c <;> rfl

end TableServer

namespace MotorStore

variable {config : MotorsConfig} {c c' : TableConnection} {α : Type}

/-! ### Calls of the store -/

theorem call_leads {action : Action TableServer α} {outcome : Except Fault α}
    (h : ∀ disk, ∃ disk', action.run ⟨disk, some c⟩ = (outcome, ⟨disk', some c'⟩)) :
    Leads Session.On (call action) c outcome c' := by
  rintro ⟨connected, disk, connection⟩ ⟨hconnected, hc⟩
  cases hc
  obtain ⟨disk', hrun⟩ := h disk
  exact ⟨⟨connected, disk', some c'⟩, by rw [call, run_zoom, hrun], hconnected, rfl⟩

theorem call_execute_leads {statement : Statement} {parameters : Option (List Value)}
    {result : ResultSet} (h : TableServer.executeOn statement parameters c = .ok (result, c')) :
    Leads Session.On (call ((onTables config).driver.execute statement parameters)) c (.ok result)
      c' := by
  refine call_leads fun disk => ⟨disk, ?_⟩
  change (TableServer.driver.execute statement parameters).run ⟨disk, some c⟩ = _
  rw [TableServer.run_execute, h]

theorem call_execute_leads_error {statement : Statement} {parameters : Option (List Value)}
    {fault : Fault} (h : TableServer.executeOn statement parameters c = .error fault) :
    Leads Session.On (call ((onTables config).driver.execute statement parameters)) c
      (.error fault) c := by
  refine call_leads fun disk => ⟨disk, ?_⟩
  change (TableServer.driver.execute statement parameters).run ⟨disk, some c⟩ = _
  rw [TableServer.run_execute, h]

theorem execute_leads {statement : Statement} {parameters : List Value} {result : ResultSet}
    (h : TableServer.executeOn statement (some parameters) c = .ok (result, c')) :
    Leads Session.On ((onTables config).execute statement parameters) c (.ok result) c' :=
  call_execute_leads h

theorem execute_leads_error {statement : Statement} {parameters : List Value} {fault : Fault}
    (h : TableServer.executeOn statement (some parameters) c = .error fault) :
    Leads Session.On ((onTables config).execute statement parameters) c (.error fault) c :=
  call_execute_leads_error h

theorem commit_leads : Leads Session.On (call (onTables config).driver.commit) c (.ok ()) c.settled :=
  call_leads fun _ => ⟨_, rfl⟩

theorem rollback_leads :
    Leads Session.On (call (onTables config).driver.rollback) c (.ok ()) c.undone :=
  call_leads fun disk => ⟨disk, rfl⟩

theorem undo_leads (fault : Fault) :
    Leads Session.On ((onTables config).undo fault : Action _ α) c (.error fault) c.undone :=
  rollback_leads.bind (Leads.fail fault)

theorem withCursor_leads {action : Action (Session TableServer) α} {outcome : Except Fault α}
    (h : Leads Session.On action c outcome c') :
    Leads Session.On ((onTables config).withCursor action) c outcome c' := by
  have hopen : Leads Session.On (call (onTables config).driver.openCursor) c (.ok ()) c :=
    call_leads fun disk => ⟨disk, rfl⟩
  have hclose : Leads Session.On (call (onTables config).driver.closeCursor) c' (.ok ()) c' :=
    call_leads fun disk => ⟨disk, rfl⟩
  exact hopen.bind (h.always hclose)

theorem requireConnection_run {σ : Type} (session : Session σ) :
    requireConnection.run session =
      if session.connected then (.ok (), session)
      else (.error (.motorStore .notConnected), session) := by
  rw [requireConnection, run_bind]
  dsimp only [run_get]
  cases session.connected <;> rfl

theorem requireConnection_leads : Leads Session.On requireConnection c (.ok ()) c := by
  rintro session ⟨hconnected, hc⟩
  refine ⟨session, ?_, hconnected, hc⟩
  rw [requireConnection_run, if_pos hconnected]

/-- A handler that undoes the transaction and reports makes a reported outcome. -/
theorem onDriverError_leads {action : Action (Session TableServer) α}
    {handler : DriverFault → Action (Session TableServer) α}
    {report : TableConnection → DriverFault → Fault} {outcome : Except Fault α × TableConnection}
    (h : Leads Session.On action c outcome.1 outcome.2)
    (hhandler : ∀ d reason,
      Leads Session.On (handler reason) d (.error (report d.undone reason)) d.undone) :
    Leads Session.On (onDriverError action handler) c (TableConnection.reported report outcome).1
      (TableConnection.reported report outcome).2 := by
  obtain ⟨fault | result, d⟩ := outcome
  · refine Leads.handle_error h ?_
    cases fault with
    | driver reason =>
      unfold TableConnection.reported
      dsimp only
      split
      · exact hhandler d reason
      · exact Leads.fail _
    | _ => exact Leads.fail _
  · exact Leads.handle_ok h

/-! ### Changes -/

theorem insertMotors_leads (scanId : Value) (motors : Entries) (c : TableConnection) :
    Leads Session.On ((onTables config).insertMotors scanId motors) c (c.putMotors scanId motors).1
      (c.putMotors scanId motors).2 := by
  induction motors generalizing c with
  | nil => exact Leads.pure ()
  | cons motor rest ih =>
    obtain ⟨mnemonic, position⟩ := motor
    unfold insertMotors TableConnection.putMotors
    rcases hm : TableServer.executeOn .insertMnemonic (some [scanId, mnemonic]) c with
      fault | ⟨motor, c₁⟩
    · exact (execute_leads_error hm).bind_error
    · refine (execute_leads hm).bind ?_
      dsimp only
      rcases hp : TableServer.executeOn .insertPosition (some [motor.lastId, position]) c₁ with
        fault | ⟨_, c₂⟩
      · exact (execute_leads_error hp).bind_error
      · exact (execute_leads hp).bind (ih c₂)

theorem insertFailed_leads (sid : Value) (reason : DriverFault) (c : TableConnection) :
    Leads Session.On ((onTables config).insertFailed sid reason : Action _ α) c
      (.error (c.undone.insertFault sid reason)) c.undone := by
  refine rollback_leads.bind ?_
  unfold TableConnection.insertFault
  split
  · rcases hs : TableServer.executeOn .selectScanId (some [sid]) c.undone with
      fault | ⟨found, d⟩
    · exact (withCursor_leads ((execute_leads_error hs).bind_error)).bind_error
    · cases TableServer.executeOn_select rfl hs
      refine (withCursor_leads ((execute_leads hs).bind (Leads.pure (!found.rows.isEmpty)))).bind ?_
      dsimp only
      cases found.rows.isEmpty <;> exact Leads.fail _
  · exact Leads.fail _

/-- Where an insertion of checked motors leads. -/
theorem insert_leads {motors : Value} {entries : Entries} (hm : checkMotors motors = .ok entries)
    (sid : Value) (c : TableConnection) :
    Leads Session.On ((onTables config).insert sid motors) c
      (TableConnection.reported (TableConnection.insertFault · sid) (c.insert sid entries)).1
      (TableConnection.reported (TableConnection.insertFault · sid) (c.insert sid entries)).2 := by
  unfold MotorStore.insert
  rw [hm]
  refine (Leads.ofExcept _).bind (requireConnection_leads.bind (withCursor_leads
    (onDriverError_leads ?_ fun d reason => insertFailed_leads sid reason d)))
  unfold TableConnection.insert
  rcases hs : TableServer.executeOn .insertScan (some [sid]) c with fault | ⟨scan, c₁⟩
  · exact (execute_leads_error hs).bind_error
  refine (execute_leads hs).bind ?_
  dsimp only
  have h : Leads Session.On ((onTables config).insertMotors scan.lastId entries) c₁ _ _ :=
    insertMotors_leads scan.lastId entries c₁
  rcases hput : c₁.putMotors scan.lastId entries with ⟨fault | _, d⟩ <;> rw [hput] at h
  · exact h.bind_error
  · exact h.bind (commit_leads.bind (Leads.pure _))

theorem swapMotors_leads (scanId : Value) (motors : Entries) (c : TableConnection) :
    Leads Session.On (do
      let _ ← (onTables config).execute .deletePositions [scanId]
      let _ ← (onTables config).execute .deleteMnemonics [scanId]
      (onTables config).insertMotors scanId motors
      call (onTables config).driver.commit) c
      (c.swapMotors scanId motors).1 (c.swapMotors scanId motors).2 := by
  unfold TableConnection.swapMotors
  rcases hp : TableServer.executeOn .deletePositions (some [scanId]) c with fault | ⟨_, c₁⟩
  · exact (execute_leads_error hp).bind_error
  refine (execute_leads hp).bind ?_
  dsimp only
  rcases hm : TableServer.executeOn .deleteMnemonics (some [scanId]) c₁ with fault | ⟨_, c₂⟩
  · exact (execute_leads_error hm).bind_error
  refine (execute_leads hm).bind ?_
  dsimp only
  have h : Leads Session.On ((onTables config).insertMotors scanId motors) c₂ _ _ :=
    insertMotors_leads scanId motors c₂
  rcases hput : c₂.putMotors scanId motors with ⟨fault | _, d⟩ <;> rw [hput] at h
  · exact h.bind_error
  · exact h.bind commit_leads

/-- Where the handler of a failed replacement leads. -/
theorem replaceFailed_leads (sid : Value) {action : Action (Session TableServer) Unit}
    {outcome : Except Fault Unit × TableConnection}
    (h : Leads Session.On action c outcome.1 outcome.2) :
    Leads Session.On (action.handle ((onTables config).replaceFailed sid)) c
      (TableConnection.replaceReported sid outcome).1
      (TableConnection.replaceReported sid outcome).2 := by
  obtain ⟨fault | result, d⟩ := outcome
  · refine Leads.handle_error h ?_
    cases fault with
    | motorStore cause => exact undo_leads _
    | driver reason =>
      unfold replaceFailed TableConnection.replaceReported TableConnection.reported
      dsimp only
      split
      · exact undo_leads _
      · exact Leads.fail _
    | _ => exact Leads.fail _
  · exact Leads.handle_ok h

/-- Where a replacement by checked motors leads. -/
theorem replaceMotors_leads {motors : Value} {entries : Entries}
    (hm : checkMotors motors = .ok entries) (sid : Value) (c : TableConnection) :
    Leads Session.On ((onTables config).replaceMotors sid motors) c
      (TableConnection.replaceReported sid (c.replace sid entries)).1
      (TableConnection.replaceReported sid (c.replace sid entries)).2 := by
  unfold MotorStore.replaceMotors
  rw [hm]
  refine (Leads.ofExcept _).bind (requireConnection_leads.bind (withCursor_leads
    (replaceFailed_leads sid ?_)))
  unfold TableConnection.replace TableConnection.scanIdOf
  rcases hs : TableServer.executeOn .selectScanId (some [sid]) c with fault | ⟨found, d⟩
  · exact (execute_leads_error hs).bind_error
  cases TableServer.executeOn_select rfl hs
  refine (execute_leads hs).bind ?_
  dsimp only
  rcases found.rows with _ | ⟨row, _⟩
  · exact Leads.fail _
  dsimp only
  rcases firstColumn row with fault | scanId
  · exact Leads.bind_error (Leads.fail fault)
  · exact Leads.bind (Leads.pure scanId) (swapMotors_leads scanId entries c)

/-- Motors that do not pass their check are refused before the store is asked. -/
theorem insert_refused {motors : Value} {fault : Fault} (hm : checkMotors motors = .error fault)
    (sid : Value) (session : Session TableServer) :
    ((onTables config).insert sid motors).run session = (.error fault, session) := by
  unfold MotorStore.insert
  rw [hm]
  rfl

theorem replaceMotors_refused {motors : Value} {fault : Fault}
    (hm : checkMotors motors = .error fault) (sid : Value) (session : Session TableServer) :
    ((onTables config).replaceMotors sid motors).run session = (.error fault, session) := by
  unfold MotorStore.replaceMotors
  rw [hm]
  rfl

/-- Without a connection no motors are taken. -/
theorem insert_notConnected {motors : Value} {entries : Entries}
    (hm : checkMotors motors = .ok entries) (sid : Value) {session : Session TableServer}
    (h : session.connected = false) :
    ((onTables config).insert sid motors).run session =
      (.error (.motorStore .notConnected), session) := by
  unfold MotorStore.insert
  rw [hm, run_bind, run_ofExcept]
  dsimp only
  rw [run_bind, requireConnection_run, if_neg (Bool.eq_false_iff.mp h)]

theorem replaceMotors_notConnected {motors : Value} {entries : Entries}
    (hm : checkMotors motors = .ok entries) (sid : Value) {session : Session TableServer}
    (h : session.connected = false) :
    ((onTables config).replaceMotors sid motors).run session =
      (.error (.motorStore .notConnected), session) := by
  unfold MotorStore.replaceMotors
  rw [hm, run_bind, run_ofExcept]
  dsimp only
  rw [run_bind, requireConnection_run, if_neg (Bool.eq_false_iff.mp h)]

/-! ### Questions -/

/-- Where a question leads: the records are made of the rows after the transaction. -/
theorem fetch_leads (statement : Statement) (parameters : List Value) (c : TableConnection) :
    Leads Session.On ((onTables config).fetch statement parameters) c
      ((TableConnection.reported (fun _ reason => .motorStore (.query reason))
        (c.fetch statement parameters)).1 >>= fun selected => groupRows selected.rows)
      (TableConnection.reported (fun _ reason => .motorStore (.query reason))
        (c.fetch statement parameters)).2 := by
  unfold MotorStore.fetch
  refine requireConnection_leads.bind (Leads.bind_ofExcept (withCursor_leads
    (onDriverError_leads ?_ fun d reason => undo_leads _)))
  unfold TableConnection.fetch
  rcases hs : TableServer.executeOn statement (some parameters) c with fault | ⟨selected, d⟩
  · exact (execute_leads_error hs).bind_error
  · exact (execute_leads hs).bind (commit_leads.bind (Leads.pure selected))

end MotorStore

end ScanCatalog
