import ScanCatalog.Motor.ScriptedDriver
import ScanCatalog.Proofs.Action.Batch
import ScanCatalog.Proofs.Motor.Connection
import ScanCatalog.Proofs.Motor.Sids

/-!
# Transactions that stay open

A statement opens a transaction, also if it only selects, and a commit or a rollback ends
it. What is said here holds of every driver whose state tells whether a transaction is open,
and whose errors are those that the store handles. The operations of the store end what they
open, but for three paths: a count ends nothing, neither does the search for a scan after a
broken constraint, and a row without a column stops a replacement with no rollback.

## Main definitions

* `SqlDriver.Tells`: a driver whose state tells whether a transaction is open;
* `MotorStore.Operation`: the operations of a store;
* `Operation.leavesOpen`: the outcomes with which an operation leaves a transaction open;
* `MotorStore.openAfter`: whether one is open after operations.

## Main statements

* `MotorStore.Operation.ends`: one operation;
* `MotorStore.openAfter_of_steps`: any operations, one after the other;
* `Script.driver_tells`: the scripted drivers.
-/

namespace ScanCatalog

open ScanCatalog.Action

variable {σ α : Type}

/-- A fault, if any, is an error of the driver that the store handles. -/
def FailsByDriver : Except Fault α → Prop
  | .ok _ => True
  | .error fault => fault.isDriverError = true

/-- No transaction is open after a result, and a fault is an error of the driver. -/
def Settles : Except Fault α → Bool → Prop
  | .ok _, isOpen => isOpen = false
  | .error fault, _ => fault.isDriverError = true

/-- Whether the outcome is a fault of some kind. -/
def failsWith (kind : Fault → Bool) : Except Fault α → Bool
  | .ok _ => false
  | .error fault => kind fault

/-- A driver whose state tells whether a statement was run since the last end of a
transaction. In its legal states cursors and rollbacks do not fail, and statements and
commits fail with driver errors only. -/
structure SqlDriver.Tells (driver : SqlDriver σ) (Legal : σ → Prop) (isOpen : σ → Bool) :
    Prop where
  openCursor : ∀ s, Legal s → ∃ s', driver.openCursor.run s = (.ok (), s') ∧ Legal s' ∧
    isOpen s' = isOpen s
  closeCursor : ∀ s, Legal s → ∃ s', driver.closeCursor.run s = (.ok (), s') ∧ Legal s' ∧
    isOpen s' = isOpen s
  rollback : ∀ s, Legal s → ∃ s', driver.rollback.run s = (.ok (), s') ∧ Legal s' ∧
    isOpen s' = false
  execute : ∀ statement parameters s, Legal s → ∃ outcome s',
    (driver.execute statement parameters).run s = (outcome, s') ∧ Legal s' ∧
      isOpen s' = true ∧ FailsByDriver outcome
  commit : ∀ s, Legal s → ∃ outcome s', driver.commit.run s = (outcome, s') ∧ Legal s' ∧
    Settles outcome (isOpen s')

namespace MotorStore

/-- The operations of a store that is connected. -/
inductive Operation
  | createSchema
  | insert (sid motors : Value)
  | replaceMotors (sid motors : Value)
  | bySids (sids : List Value)
  | byQueries (queries : List PositionQuery)
  | byPosition (mnemonic position : Value)
  | count

namespace Operation

/-- Does an operation, whatever it gives. -/
def run (store : MotorStore σ) : Operation → Action (Session σ) Unit
  | createSchema => store.createSchema
  | insert sid motors => do let _ ← store.insert sid motors
  | replaceMotors sid motors => store.replaceMotors sid motors
  | bySids sids => do let _ ← store.bySids sids
  | byQueries queries => do let _ ← store.byQueries queries
  | byPosition mnemonic position => do let _ ← store.byPosition mnemonic position
  | count => do let _ ← store.count

/-- Whether an operation passes the checks before its first call of the driver. -/
def reaches : Operation → Bool
  | insert _ motors | replaceMotors _ motors => (checkMotors motors).isOk
  | bySids sids => (distinctSids [] sids).toOption.any fun sids => !sids.isEmpty
  | byPosition _ position => position.toReal.isOk
  | _ => true

end Operation

end MotorStore

/-- A connected session in a legal state, and whether a transaction is open in it. -/
def Session.Tells (Legal : σ → Prop) (isOpen : σ → Bool) (session : Session σ) (b : Bool) : Prop :=
  session.connected = true ∧ Legal session.server ∧ isOpen session.server = b

namespace Fault

/-- Whether an insertion is reported so after a search for its scan. -/
def isSearched : Fault → Bool
  | .duplicateScan .. | .driver _ => true
  | .motorStore (.insert _ reason) => reason.isIntegrity
  | _ => false

/-- Whether a fault comes of a value. -/
def isOfValue : Fault → Bool
  | .value _ => true
  | _ => false

end Fault

namespace MotorStore

/-- Whether an operation with an outcome leaves a transaction open. -/
def Operation.leavesOpen : Operation → Except Fault Unit → Bool
  | count, _ => true
  | insert .., outcome => failsWith Fault.isSearched outcome
  | replaceMotors .., outcome => failsWith Fault.isOfValue outcome
  | _, _ => false

/-- Whether a transaction is open after operations with their outcomes. -/
def openAfter (isOpen : Bool) : List Operation → List (Except Fault Unit) → Bool
  | operation :: operations, outcome :: outcomes =>
    openAfter (if operation.reaches then operation.leavesOpen outcome else isOpen) operations
      outcomes
  | _, _ => isOpen

variable {store : MotorStore σ} {Legal : σ → Prop} {isOpen : σ → Bool} {b : Bool}

section Calls

variable (h : store.driver.Tells Legal isOpen)

include h

theorem rollback_tells :
    Leads (Session.Tells Legal isOpen) (call store.driver.rollback) b (.ok ()) false := by
  rintro session ⟨hconnected, hlegal, -⟩
  obtain ⟨s', hrun, hlegal', hopen⟩ := h.rollback session.server hlegal
  refine ⟨{ session with server := s' }, ?_, hconnected, hlegal', hopen⟩
  rw [call, run_zoom, hrun]

theorem execute_ends (statement : Statement) (parameters : Option (List Value)) :
    Ends (Session.Tells Legal isOpen) (call (store.driver.execute statement parameters)) b
      fun outcome b' => b' = true ∧ FailsByDriver outcome := by
  rintro session ⟨hconnected, hlegal, -⟩
  obtain ⟨outcome, s', hrun, hlegal', hopen, hfails⟩ :=
    h.execute statement parameters session.server hlegal
  rw [call, run_zoom, hrun]
  exact ⟨true, ⟨rfl, hfails⟩, hconnected, hlegal', hopen⟩

theorem commit_ends :
    Ends (Session.Tells Legal isOpen) (call store.driver.commit) b Settles := by
  rintro session ⟨hconnected, hlegal, -⟩
  obtain ⟨outcome, s', hrun, hlegal', hsettles⟩ := h.commit session.server hlegal
  rw [call, run_zoom, hrun]
  exact ⟨isOpen s', hsettles, hconnected, hlegal', rfl⟩

/-- A cursor changes no ending. -/
theorem withCursor_ends {action : Action (Session σ) α} {ending : Except Fault α → Bool → Prop}
    (haction : Ends (Session.Tells Legal isOpen) action b ending) :
    Ends (Session.Tells Legal isOpen) (store.withCursor action) b ending := by
  have hopen : Leads (Session.Tells Legal isOpen) (call store.driver.openCursor) b (.ok ()) b := by
    rintro session ⟨hconnected, hlegal, hb⟩
    obtain ⟨s', hrun, hlegal', hsame⟩ := h.openCursor session.server hlegal
    refine ⟨{ session with server := s' }, ?_, hconnected, hlegal', hsame.trans hb⟩
    rw [call, run_zoom, hrun]
  have hclose (b' : Bool) :
      Leads (Session.Tells Legal isOpen) (call store.driver.closeCursor) b' (.ok ()) b' := by
    rintro session ⟨hconnected, hlegal, hb⟩
    obtain ⟨s', hrun, hlegal', hsame⟩ := h.closeCursor session.server hlegal
    refine ⟨{ session with server := s' }, ?_, hconnected, hlegal', hsame.trans hb⟩
    rw [call, run_zoom, hrun]
  exact hopen.bind_ends (haction.always hclose)

theorem undo_ends (fault : Fault) :
    Leads (Session.Tells Legal isOpen) (store.undo fault : Action _ α) b (.error fault) false :=
  (rollback_tells h).bind (Leads.fail fault)

end Calls

theorem requireConnection_tells :
    Leads (Session.Tells Legal isOpen) requireConnection b (.ok ()) b := by
  rintro session ⟨hconnected, hs⟩
  refine ⟨session, ?_, hconnected, hs⟩
  rw [requireConnection_run, if_pos hconnected]

section Operations

variable (h : store.driver.Tells Legal isOpen)

/-- A driver error that the store handles ends as its handler does. -/
theorem onDriverError_ends (ending : Except Fault α → Bool → Prop) {action : Action (Session σ) α}
    {handler : DriverFault → Action (Session σ) α} {ending' : Except Fault α → Bool → Prop}
    (haction : Ends (Session.Tells Legal isOpen) action b ending)
    (hok : ∀ x b', ending (.ok x) b' → ending' (.ok x) b')
    (hhandler : ∀ reason b', ending (.error (.driver reason)) b' →
      Ends (Session.Tells Legal isOpen) (handler reason) b' ending')
    (hfails : ∀ fault b', ending (.error fault) b' →
      fault.isDriverError = true ∨ ending' (.error fault) b') :
    Ends (Session.Tells Legal isOpen) (onDriverError action handler) b ending' := by
  refine haction.handle hok fun fault b' hfault => ?_
  rcases hfails fault b' hfault with hdriver | hpasses
  · cases fault with
    | driver reason =>
      have hreason : reason.isError = true := hdriver
      dsimp only
      rw [if_pos hreason]
      exact hhandler reason b' hfault
    | _ => cases hdriver
  · cases fault with
    | driver reason =>
      dsimp only
      split
      · exact hhandler reason b' hfault
      · exact (Leads.fail _).ends hpasses
    | _ => exact (Leads.fail _).ends hpasses

include h

theorem createParts_ends (parts : List SchemaPart) :
    Ends (Session.Tells Legal isOpen) (store.createParts parts) b
      fun outcome _ => FailsByDriver outcome := by
  induction parts generalizing b with
  | nil => exact (Leads.pure ()).ends trivial
  | cons part rest ih => exact (execute_ends h _ _).bind (fun _ _ hfault => hfault.2) fun _ _ _ => ih

theorem createSchema_ends :
    Ends (Session.Tells Legal isOpen) store.createSchema b fun _ b' => b' = false := by
  refine requireConnection_tells.bind_ends (withCursor_ends h ?_)
  refine onDriverError_ends Settles ?_ (fun _ _ hb => hb)
    (fun _ _ _ => (undo_ends h _).ends rfl) fun _ _ hfault => .inl hfault
  exact (createParts_ends h _).bind (fun _ _ hfault => hfault) fun _ _ _ => commit_ends h

theorem insertMotors_ends (scanId : Value) (motors : Entries) :
    Ends (Session.Tells Legal isOpen) (store.insertMotors scanId motors) b
      fun outcome _ => FailsByDriver outcome := by
  induction motors generalizing b with
  | nil => exact (Leads.pure ()).ends trivial
  | cons motor rest ih =>
    refine (execute_ends h _ _).bind (fun _ _ hfault => hfault.2) fun _ _ _ => ?_
    exact (execute_ends h _ _).bind (fun _ _ hfault => hfault.2) fun _ _ _ => ih

/-- A search for a scan leaves its transaction open. -/
theorem sidExists_ends (sid : Value) :
    Ends (Session.Tells Legal isOpen) (store.sidExists sid) b
      fun outcome b' => b' = true ∧ FailsByDriver outcome := by
  refine withCursor_ends h ((execute_ends h _ _).bind (fun _ _ hfault => hfault) ?_)
  exact fun _ _ hopen => (Leads.pure _).ends ⟨hopen.1, trivial⟩

theorem insertFailed_ends (sid : Value) (reason : DriverFault) :
    Ends (Session.Tells Legal isOpen) (store.insertFailed sid reason : Action _ α) b
      fun outcome b' => b' = failsWith Fault.isSearched outcome := by
  refine (rollback_tells h).bind_ends ?_
  split
  case isTrue hintegrity =>
    refine (sidExists_ends h sid).bind (fun fault b' hfault => ?_) fun found b' hopen => ?_
    · cases fault with
      | driver cause => exact hfault.1
      | _ => cases hfault.2
    · cases found with
      | true => exact (Leads.fail _).ends hopen.1
      | false => exact (Leads.fail _).ends (hopen.1.trans hintegrity.symm)
  case isFalse hintegrity => exact (Leads.fail _).ends (Bool.eq_false_iff.mpr hintegrity).symm

theorem insert_ends {motors : Value} {entries : Entries} (hcheck : checkMotors motors = .ok entries)
    (sid : Value) :
    Ends (Session.Tells Legal isOpen) (store.insert sid motors) b
      fun outcome b' => b' = failsWith Fault.isSearched outcome := by
  rw [insert, hcheck]
  refine (Leads.ofExcept (.ok entries)).bind_ends
    (requireConnection_tells.bind_ends (withCursor_ends h ?_))
  refine onDriverError_ends Settles ?_ (fun _ _ hb => hb)
    (fun reason _ _ => insertFailed_ends h sid reason) fun _ _ hfault => .inl hfault
  refine (execute_ends h _ _).bind (fun _ _ hfault => hfault.2) fun scan _ _ => ?_
  refine (insertMotors_ends h _ _).bind (fun _ _ hfault => hfault) fun _ _ _ => ?_
  exact (commit_ends h).bind (fun _ _ hfault => hfault) fun _ _ hb => (Leads.pure _).ends hb

/-- What is rolled back is what the store or the driver reports, but no fault of a value. -/
theorem replaceMotors_ends {motors : Value} {entries : Entries}
    (hcheck : checkMotors motors = .ok entries) (sid : Value) :
    Ends (Session.Tells Legal isOpen) (store.replaceMotors sid motors) b
      fun outcome b' => b' = failsWith Fault.isOfValue outcome := by
  rw [replaceMotors, hcheck]
  refine (Leads.ofExcept (.ok entries)).bind_ends
    (requireConnection_tells.bind_ends (withCursor_ends h ?_))
  -- the row number is all that can be missing, and then a statement has been run
  refine Ends.handle (?_ : Ends (Session.Tells Legal isOpen) _ b fun outcome b' =>
    Settles outcome b' ∨ ∃ fault, outcome = .error fault ∧
      ((∃ cause, fault = .motorStore cause) ∨ fault.isOfValue = true ∧ b' = true))
    ?_ fun fault b' hfault => ?_
  · refine (execute_ends h _ _).bind (fun _ _ hfault => .inl hfault.2) fun found b' hopen => ?_
    cases found.rows with
    | nil => exact (Leads.fail _).ends (.inr ⟨_, rfl, .inl ⟨_, rfl⟩⟩)
    | cons row rest =>
      cases row with
      | nil => exact (Leads.fail _).ends (.inr ⟨_, rfl, .inr ⟨rfl, hopen.1⟩⟩)
      | cons scanId others =>
        refine Leads.bind_ends (Leads.ofExcept (.ok scanId)) ?_
        refine (execute_ends h _ _).bind (fun _ _ hfault => .inl hfault.2) fun _ _ _ => ?_
        refine (execute_ends h _ _).bind (fun _ _ hfault => .inl hfault.2) fun _ _ _ => ?_
        refine (insertMotors_ends h _ _).bind (fun _ _ hfault => .inl hfault) fun _ _ _ => ?_
        exact fun session hs => (commit_ends h session hs).imp fun _ hb => ⟨.inl hb.1, hb.2⟩
  · rintro _ b' (hb | ⟨_, heq, -⟩)
    · exact hb
    · cases heq
  · rcases hfault with hdriver | ⟨_, heq, ⟨cause, rfl⟩ | ⟨hvalue, hopen⟩⟩
    · cases fault with
      | driver reason =>
        have hreason : reason.isError = true := hdriver
        unfold replaceFailed
        dsimp only
        rw [if_pos hreason]
        exact (undo_ends h _).ends rfl
      | _ => cases hdriver
    · cases heq
      exact (undo_ends h _).ends rfl
    · cases heq
      cases fault with
      | value cause => exact (Leads.fail _).ends hopen
      | _ => cases hvalue

theorem fetch_ends (statement : Statement) (parameters : List Value) :
    Ends (Session.Tells Legal isOpen) (store.fetch statement parameters) b fun _ b' => b' = false := by
  refine requireConnection_tells.bind_ends (Ends.bind
    (?_ : Ends (Session.Tells Legal isOpen) _ b fun _ b' => b' = false) (fun _ _ hb => hb)
    fun _ _ hb => (Leads.ofExcept _).ends hb)
  refine withCursor_ends h ?_
  refine onDriverError_ends Settles ?_ (fun _ _ hb => hb)
    (fun _ _ _ => (undo_ends h _).ends rfl) fun _ _ hfault => .inl hfault
  refine (execute_ends h _ _).bind (fun _ _ hfault => hfault.2) fun selected _ _ => ?_
  exact (commit_ends h).bind (fun _ _ hfault => hfault) fun _ _ hb => (Leads.pure _).ends hb

/-- A count leaves its transaction open. -/
theorem count_ends :
    Ends (Session.Tells Legal isOpen) store.count b fun _ b' => b' = true := by
  refine requireConnection_tells.bind_ends (withCursor_ends h ?_)
  refine onDriverError_ends (fun _ b' => b' = true) ?_ (fun _ _ hb => hb)
    (fun _ _ hb => (Leads.fail _).ends hb) fun _ _ hb => .inr hb
  exact (execute_ends h _ _).bind (fun _ _ hopen => hopen.1) fun _ _ hopen =>
    (Leads.ofExcept _).ends hopen.1

/-- An operation that passes its checks leaves a transaction open or not, whatever was before;
another one does nothing. -/
theorem Operation.ends (operation : Operation) :
    Ends (Session.Tells Legal isOpen) (operation.run store) b fun outcome b' =>
      b' = if operation.reaches then operation.leavesOpen outcome else b := by
  cases operation with
  | createSchema => exact createSchema_ends h
  | insert sid motors =>
    rw [Operation.reaches]
    cases hcheck : checkMotors motors with
    | error fault =>
      rw [Operation.run, MotorStore.insert, hcheck]
      exact (Leads.ofExcept (.error fault)).bind_error.bind_error.ends rfl
    | ok entries =>
      exact (insert_ends h hcheck sid).bind (fun _ _ hb => hb) fun _ _ hb => (Leads.pure _).ends hb
  | replaceMotors sid motors =>
    rw [Operation.reaches]
    cases hcheck : checkMotors motors with
    | error fault =>
      rw [Operation.run, MotorStore.replaceMotors, hcheck]
      exact (Leads.ofExcept (.error fault)).bind_error.ends rfl
    | ok entries => exact replaceMotors_ends h hcheck sid
  | bySids sids =>
    rw [Operation.reaches, Operation.run, MotorStore.bySids, uniqueSids_eq]
    cases distinctSids [] sids with
    | error fault => exact (Leads.ofExcept (.error fault)).bind_error.bind_error.ends rfl
    | ok sids =>
      cases sids with
      | nil =>
        exact (((Leads.ofExcept (.ok [])).bind (Leads.pure [])).bind (Leads.pure ())).ends rfl
      | cons sid rest =>
        refine Ends.bind (?_ : Ends (Session.Tells Legal isOpen) _ b fun _ b' => b' = false)
          (fun _ _ hb => hb) fun _ _ hb => (Leads.pure _).ends hb
        exact (Leads.ofExcept (.ok (sid :: rest))).bind_ends (fetch_ends h _ _)
  | byQueries queries =>
    exact (fetch_ends h _ _).bind (fun _ _ hb => hb) fun _ _ hb => (Leads.pure _).ends hb
  | byPosition mnemonic position =>
    rw [Operation.reaches, Operation.run, MotorStore.byPosition]
    cases position.toReal with
    | error fault => exact (Leads.ofExcept (.error (.value fault))).bind_error.bind_error.ends rfl
    | ok x =>
      refine Ends.bind (?_ : Ends (Session.Tells Legal isOpen) _ b fun _ b' => b' = false)
        (fun _ _ hb => hb) fun _ _ hb => (Leads.pure _).ends hb
      exact (Leads.ofExcept (.ok x)).bind_ends (fetch_ends h _ _)
  | count =>
    exact (count_ends h).bind (fun _ _ hb => hb) fun _ _ hb => (Leads.pure _).ends hb

end Operations

/-- Operations one after the other leave a transaction open just if the last of them that
passed its checks does. -/
theorem openAfter_of_steps (h : store.driver.Tells Legal isOpen) {session session' : Session σ}
    (hconnected : session.connected = true) (hlegal : Legal session.server)
    {operations : List Operation} {outcomes : List (Except Fault Unit)}
    (hsteps : Steps (Action.Step (Operation.run store)) session operations outcomes session') :
    isOpen session'.server = openAfter (isOpen session.server) operations outcomes := by
  generalize hb : isOpen session.server = b
  have hs : session.Tells Legal isOpen b := ⟨hconnected, hlegal, hb⟩
  clear hconnected hlegal hb
  induction hsteps generalizing b with
  | nil s => exact hs.2.2
  | cons hstep _ ih =>
    obtain ⟨b', hending, hs'⟩ := Operation.ends h _ _ hs
    rw [hstep] at hending hs'
    rw [openAfter, ← hending]
    exact ih b' hs'


end MotorStore

/-! ### Scripted drivers -/

namespace Script

variable {script : Script} {event : DriverEvent}

/-- Whether a statement comes after the last end of a transaction, in calls of which the
latest is the first. -/
def endsOpen : List DriverEvent → Bool
  | [] => false
  | .execute .. :: _ => true
  | .commit :: _ | .rollback :: _ => false
  | _ :: calls => endsOpen calls

/-- Whether a statement was run since the last end of a transaction. -/
def isOpen (script : Script) : Bool := endsOpen script.calls

/-- The calls that do not fail. -/
def safeEvents : List DriverEvent := [.cursor, .rollback, .closeCursor]

/-- The errors to come are driver errors, and for statements and commits only. -/
def Legal (script : Script) : Prop :=
  ∀ error ∈ script.errors, error.fault.isDriverError = true ∧
    ∀ event ∈ safeEvents, event.subject.contains error.mention = false

/-- The error for a call is one that it mentions, and no error is added. -/
theorem takeError_cases (subject : Text) (errors : List ScriptedError) :
    (∀ fault, (takeError subject errors).1 = some fault →
      ∃ error ∈ errors, subject.contains error.mention = true ∧ error.fault = fault) ∧
    ∀ error ∈ (takeError subject errors).2, error ∈ errors := by
  induction errors with
  | nil => exact ⟨nofun, nofun⟩
  | cons error rest ih =>
    unfold takeError
    by_cases hmention : subject.contains error.mention = true
    · rw [if_pos hmention]
      refine ⟨fun fault hfault => ?_, fun _ he => List.mem_cons_of_mem _ he⟩
      exact ⟨error, List.mem_cons_self, hmention, Option.some.inj hfault⟩
    · rw [if_neg hmention]
      refine ⟨fun fault hfault => ?_, fun e he => ?_⟩
      · obtain ⟨e, he, hfound⟩ := ih.1 fault hfault
        exact ⟨e, List.mem_cons_of_mem _ he, hfound⟩
      · rcases List.mem_cons.mp he with rfl | he
        · exact List.mem_cons_self
        · exact List.mem_cons_of_mem _ (ih.2 e he)

/-- A call is written down, and fails with a driver error if at all. -/
theorem note_run (hs : script.Legal) (event : DriverEvent) :
    ∃ outcome script', (note event).run script = (outcome, script') ∧ script'.Legal ∧
      script'.calls = event :: script.calls ∧ FailsByDriver outcome := by
  obtain ⟨hfound, hrest⟩ := takeError_cases event.subject script.errors
  rcases htaken : takeError event.subject script.errors with ⟨_ | fault, errors⟩ <;>
    rw [htaken] at hfound hrest
  · refine ⟨.ok (), { script with calls := event :: script.calls }, ?_, hs, rfl, trivial⟩
    rw [run_apply, note]
    dsimp only
    rw [htaken]
  · obtain ⟨error, hmem, -, hfault⟩ := hfound fault rfl
    refine ⟨.error fault, { script with calls := event :: script.calls, errors }, ?_,
      fun e he => hs e (hrest e he), rfl, hfault ▸ (hs error hmem).1⟩
    rw [run_apply, note]
    dsimp only
    rw [htaken]

theorem note_safe (hs : script.Legal) (hevent : event ∈ safeEvents) :
    (note event).run script = (.ok (), { script with calls := event :: script.calls }) := by
  obtain ⟨hfound, -⟩ := takeError_cases event.subject script.errors
  rw [run_apply, note]
  dsimp only
  rcases htaken : takeError event.subject script.errors with ⟨_ | fault, errors⟩
  · rfl
  · rw [htaken] at hfound
    obtain ⟨error, hmem, hmention, -⟩ := hfound fault rfl
    rw [(hs error hmem).2 event hevent] at hmention
    cases hmention

theorem answer_run (statement : Statement) (script : Script) :
    ∃ result script', (answer statement).run script = (.ok result, script') ∧
      script'.calls = script.calls ∧ script'.errors = script.errors := by
  rw [run_apply, answer]
  dsimp only
  split
  · exact ⟨_, _, rfl, rfl, rfl⟩
  · split
    · split <;> exact ⟨_, _, rfl, rfl, rfl⟩
    · exact ⟨_, _, rfl, rfl, rfl⟩

/-- A scripted driver with such errors tells whether a transaction is open. -/
theorem driver_tells (dialect : Dialect) : (driver dialect).Tells Legal isOpen where
  openCursor := fun s hs => ⟨_, note_safe hs (by decide), hs, rfl⟩
  closeCursor := fun s hs => ⟨_, note_safe hs (by decide), hs, rfl⟩
  rollback := fun s hs => ⟨_, note_safe hs (by decide), hs, rfl⟩
  execute := by
    intro statement parameters s hs
    obtain ⟨outcome, s', hrun, hs', hcalls, hfails⟩ :=
      note_run hs (.execute (statement.text dialect) parameters)
    have hopen : s'.isOpen = true := by rw [isOpen, hcalls, endsOpen]
    change ∃ outcome s', (note _ >>= fun _ => answer statement).run s = (outcome, s') ∧ _
    rw [run_bind, hrun]
    cases outcome with
    | error fault => exact ⟨_, s', rfl, hs', hopen, hfails⟩
    | ok _ =>
      obtain ⟨result, s'', hanswer, hcalls', herrors⟩ := answer_run statement s'
      refine ⟨.ok result, s'', hanswer, ?_, ?_, trivial⟩
      · rwa [Legal, herrors]
      · rwa [isOpen, hcalls']
  commit := by
    intro s hs
    obtain ⟨outcome, s', hrun, hs', hcalls, hfails⟩ := note_run hs .commit
    refine ⟨outcome, s', hrun, hs', ?_⟩
    cases outcome with
    | error fault => exact hfails
    | ok _ =>
      change s'.isOpen = false
      rw [isOpen, hcalls, endsOpen]

end Script

namespace MotorStore

/-- A store with a scripted driver. -/
def scripted : MotorStore Script := ⟨{}, .mysql, Script.driver .mysql⟩

/-- A connected session whose driver will count seven scans. -/
def sevenScans : Session Script :=
  (scripted.connect.run ⟨false, { results := [[[.int 7]]] }⟩).2

theorem sevenScans_tells : sevenScans.Tells Script.Legal Script.isOpen false := by
  have herrors : sevenScans.server.errors.isEmpty = true := by decide +kernel
  refine ⟨by decide +kernel, fun error herror => ?_, by decide +kernel⟩
  rw [List.isEmpty_iff.mp herrors] at herror
  cases herror

theorem openAfter_of_steps_sevenScans :
    ((Operation.run scripted (.bySids [.float .zero])).run
      ((Operation.run scripted .count).run sevenScans).2).2.server.isOpen =
        openAfter false [.count, .bySids [.float .zero]] [.ok (), .ok ()] := by
  obtain ⟨hconnected, hlegal, hclosed⟩ := sevenScans_tells
  have hsteps : Steps (Action.Step (Operation.run scripted)) sevenScans
      [.count, .bySids [.float .zero]] [.ok (), .ok ()] _ :=
    .cons (run_eq_of_fst (by decide +kernel)) (.cons (run_eq_of_fst (by decide +kernel)) (.nil _))
  have hopen := openAfter_of_steps (Script.driver_tells .mysql) hconnected hlegal hsteps
  rwa [hclosed] at hopen

/-- A count that succeeds leaves a transaction open where none was. -/
theorem count_leaves_open :
    sevenScans.Tells Script.Legal Script.isOpen false ∧
      (scripted.count.run sevenScans).1 = .ok 7 ∧
      (scripted.count.run sevenScans).2.server.isOpen = true :=
  ⟨sevenScans_tells, by decide +kernel, by decide +kernel⟩

end MotorStore

end ScanCatalog
