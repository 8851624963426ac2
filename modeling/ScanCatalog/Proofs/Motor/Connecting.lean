import ScanCatalog.Proofs.Motor.OpenTransactions
import ScanCatalog.Proofs.Motor.Reachable

/-!
# Connecting

A store connects in two steps: it opens the connection, and it creates the tables that are
missing. If the first step fails, the store is not connected, and connecting again makes both
steps. If the second one fails, the store stays connected, and connecting again does nothing.

## Main definitions

* `MotorStore.opening`, `MotorStore.creating`: the calls of the driver in the two steps.

## Main statements

* `MotorStore.connect_eq_ok`: how a store connects;
* `MotorStore.connect_failed`: how it fails to, and what comes of connecting again.
-/

namespace ScanCatalog

open ScanCatalog.Action

namespace MotorStore

variable {σ α β : Type}

/-! ### Calls of a driver -/

theorem call_bind (action : Action σ α) (next : α → Action σ β) :
    (call (action >>= next) : Action (Session σ) β) =
      call action >>= fun a => call (next a) := by
  funext session
  change (call (action >>= next)).run session = (call action >>= fun a => call (next a)).run session
  unfold call
  rw [run_zoom, run_bind, run_bind, run_zoom]
  rcases action.run session.server with ⟨_ | _, _⟩ <;> rfl

theorem call_eq_ok {action : Action σ α} {a : α} {session session' : Session σ} :
    (call action).run session = (.ok a, session') ↔
      session'.connected = session.connected ∧
        action.run session.server = (.ok a, session'.server) := by
  unfold call
  rw [run_zoom]
  constructor
  · intro h
    obtain ⟨houtcome, rfl⟩ := Prod.mk.inj h
    exact ⟨rfl, Prod.ext houtcome rfl⟩
  · rintro ⟨hconnected, hrun⟩
    rw [hrun, ← hconnected]

/-- What is done at the end in any case is done after a success. -/
theorem always_eq_ok {action last : Action σ Unit} {s s' : σ} :
    (action.always last).run s = (.ok (), s') ↔
      (action >>= fun _ => last).run s = (.ok (), s') := by
  rw [run_always, run_bind]
  rcases action.run s with ⟨fault | u, t⟩
  · dsimp only
    refine iff_of_false ?_ nofun
    rcases last.run t with ⟨_ | _, _⟩ <;> exact nofun
  · dsimp only
    rcases last.run t with ⟨_ | _, _⟩ <;> rfl

/-- Where the handler always fails, nothing was handled in a success. -/
theorem onDriverError_eq_ok {action : Action (Session σ) α}
    {handler : DriverFault → Action (Session σ) α}
    (hhandler : ∀ reason session a session', (handler reason).run session ≠ (.ok a, session'))
    {session session' : Session σ} {a : α} :
    (onDriverError action handler).run session = (.ok a, session') ↔
      action.run session = (.ok a, session') := by
  unfold onDriverError
  rw [run_handle]
  rcases action.run session with ⟨fault | b, t⟩
  · refine iff_of_false (fun h => ?_) nofun
    cases fault with
    | driver reason =>
      dsimp only at h
      split at h
      · exact hhandler reason _ _ _ h
      · cases h
    | _ => cases h
  · exact Iff.rfl

variable {store : MotorStore σ} {session session' : Session σ}

/-! ### Opening the connection -/

/-- The calls of a driver that choose its database. -/
def choosing (store : MotorStore σ) : Action σ Unit :=
  match store.dialect with
  | .sqlite => Action.pure ()
  | .mysql => do
    store.driver.openCursor
    let _ ← store.driver.execute (.createDatabase store.config.database) none
    let _ ← store.driver.execute (.useDatabase store.config.database) none
    store.driver.closeCursor

/-- The calls of a driver that open a connection. -/
def opening (store : MotorStore σ) : Action σ Unit := do
  store.driver.connect store.config
  store.choosing

theorem openConnection_eq (store : MotorStore σ) :
    store.openConnection = (do
      call (store.driver.connect store.config)
      setConnected true
      call store.choosing) := by
  unfold openConnection choosing
  cases store.dialect with
  | sqlite => rfl
  | mysql =>
    dsimp only
    simp only [call_bind]

/-- The store is connected as soon as there is a connection. -/
theorem openConnection_of_opening (store : MotorStore σ) (session : Session σ) :
    ∃ connected, store.openConnection.run session =
        ((store.opening.run session.server).1, ⟨connected, (store.opening.run session.server).2⟩) ∧
      ((store.opening.run session.server).1 = .ok () → connected = true) := by
  rw [openConnection_eq, opening, run_bind, run_bind, call, run_zoom]
  rcases (store.driver.connect store.config).run session.server with ⟨fault | u, server⟩
  · refine ⟨session.connected, rfl, fun h => ?_⟩
    cases h
  · exact ⟨true, rfl, fun _ => rfl⟩

/-! ### Creating the tables -/

/-- The calls of a driver that create the tables that are missing. -/
def creating (store : MotorStore σ) : Action σ Unit := do
  store.driver.openCursor
  store.dialect.schema.forM fun part => do
    let _ ← store.driver.execute (.create part) none
  store.driver.commit
  store.driver.closeCursor

theorem createParts_eq (store : MotorStore σ) (parts : List SchemaPart) :
    store.createParts parts = call (parts.forM fun part => do
      let _ ← store.driver.execute (.create part) none) := by
  induction parts with
  | nil => rfl
  | cons part rest ih =>
    change _ = call ((store.driver.execute (.create part) none >>= fun _ => Pure.pure ()) >>=
      fun _ => rest.forM fun part => do
        let _ ← store.driver.execute (.create part) none)
    rw [createParts, ih, LawfulMonad.bind_assoc, call_bind]
    rfl

theorem undo_ne_ok (fault : Fault) (a : α) :
    (store.undo fault).run session ≠ (.ok a, session') := by
  intro h
  obtain ⟨_, _, _, hfail⟩ := run_bind_eq_ok.mp h
  cases hfail

/-- The tables are created just if no call fails. -/
theorem createSchema_eq_ok (hconnected : session.connected = true) :
    store.createSchema.run session = (.ok (), session') ↔
      session'.connected = true ∧
        store.creating.run session.server = (.ok (), session'.server) := by
  have hcreating : (call store.creating : Action (Session σ) Unit) = (do
      call store.driver.openCursor
      store.createParts store.dialect.schema
      call store.driver.commit
      call store.driver.closeCursor) := by
    rw [createParts_eq, creating, call_bind]
    simp only [call_bind]
  have hcalls : store.createSchema.run session = (.ok (), session') ↔
      (call store.creating).run session = (.ok (), session') := by
    unfold createSchema withCursor
    rw [run_bind, requireConnection_run, if_pos hconnected, hcreating]
    dsimp only
    rw [run_bind_eq_ok, run_bind_eq_ok]
    refine exists_congr fun u => exists_congr fun t => and_congr_right fun _ => ?_
    -- neither the handler nor the end of the cursor makes a success of a failure
    rw [always_eq_ok, run_bind_eq_ok]
    simp only [onDriverError_eq_ok fun _ _ _ _ => undo_ne_ok _ _]
    rw [← run_bind_eq_ok, LawfulMonad.bind_assoc]
  rw [hcalls, call_eq_ok, hconnected]

/-- A store that is connected stays so while it creates its tables. -/
theorem createSchema_keeps_connected (store : MotorStore σ) :
    Keeps (fun session => session.connected = true) store.createSchema := by
  have hcall : ∀ {α : Type} (action : Action σ α),
      Keeps (fun session : Session σ => session.connected = true) (call action) :=
    fun action _ h => h
  refine requireConnection_keeps.bind fun _ => (hcall _).bind fun _ =>
    Keeps.always (onDriverError_keeps ?_ fun reason => ?_) (hcall _)
  · rw [createParts_eq, ← call_bind]
    exact hcall _
  · exact (hcall _).bind fun _ => Keeps.fail _

/-! ### Connecting -/

theorem connect_connected (store : MotorStore σ) (h : session.connected = true) :
    store.connect.run session = (.ok (), session) := by
  unfold connect
  rw [run_bind, run_get]
  dsimp only
  rw [if_pos h]
  rfl

/-- What a store does about an error while it opens the connection. -/
def openFailed (reason : DriverFault) : Action (Session σ) Unit := do
  setConnected false
  Action.fail (.motorStore (.connect reason))

theorem openFailed_run (reason : DriverFault) (session : Session σ) :
    (openFailed reason).run session =
      (.error (.motorStore (.connect reason)), ⟨false, session.server⟩) := rfl

theorem connect_run_eq (store : MotorStore σ) (h : session.connected = false) :
    store.connect.run session =
      (do onDriverError store.openConnection openFailed; store.createSchema).run session := by
  unfold connect
  rw [run_bind, run_get]
  dsimp only
  rw [h, if_neg Bool.false_ne_true]
  rfl

/-- A store that is not connected connects just if the driver opens a connection and creates
the tables. -/
theorem connect_eq_ok (h : session.connected = false) :
    store.connect.run session = (.ok (), session') ↔
      session'.connected = true ∧
        (do store.opening; store.creating).run session.server = (.ok (), session'.server) := by
  have hfailed : ∀ (reason : DriverFault) (s : Session σ) u s',
      (openFailed reason).run s ≠ (.ok u, s') := nofun
  obtain ⟨connected, hrun, hopened⟩ := openConnection_of_opening store session
  rw [connect_run_eq store h, run_bind_eq_ok, run_bind_eq_ok]
  simp only [onDriverError_eq_ok hfailed]
  rw [hrun]
  rcases hopening : store.opening.run session.server with ⟨fault | u, server⟩
  · simp
  · rw [hopening] at hopened
    have hcreate : store.createSchema.run ⟨true, server⟩ = (.ok (), session') ↔
        session'.connected = true ∧ store.creating.run server = (.ok (), session'.server) :=
      createSchema_eq_ok rfl
    rw [hopened rfl]
    simp [hcreate]

/-- A store that fails to connect was not connected. If the driver failed to open a connection,
the store still is not, and connects once the driver opens one and creates the tables. If the
driver failed to create the tables, the store is connected, and connecting again does nothing. -/
theorem connect_failed {fault : Fault}
    (hdriver : ∀ cause, (store.opening.run session.server).1 = .error cause →
      cause.isDriverError = true)
    (h : store.connect.run session = (.error fault, session')) :
    session.connected = false ∧
      ((∃ reason, store.opening.run session.server = (.error (.driver reason), session'.server) ∧
          fault = .motorStore (.connect reason) ∧ session'.connected = false ∧
          ∀ next, store.connect.run session' = (.ok (), next) ↔ next.connected = true ∧
            (do store.opening; store.creating).run session'.server = (.ok (), next.server)) ∨
        (store.opening.run session.server).1 = .ok () ∧ session'.connected = true ∧
          store.connect.run session' = (.ok (), session')) := by
  cases hconnected : session.connected with
  | true =>
    rw [connect_connected store hconnected] at h
    cases h
  | false =>
    refine ⟨rfl, ?_⟩
    obtain ⟨connected, hrun, hopened⟩ := openConnection_of_opening store session
    rw [connect_run_eq store hconnected, run_bind] at h
    unfold onDriverError at h
    rw [run_handle, hrun] at h
    -- the handler stands around the opening only
    rcases hopening : store.opening.run session.server with ⟨cause | u, server⟩
    · rw [hopening] at hdriver h
      cases cause with
      | driver reason =>
        have hreason : reason.isError = true := hdriver _ rfl
        dsimp only at h
        rw [if_pos hreason, openFailed_run] at h
        cases h
        exact .inl ⟨reason, rfl, rfl, rfl, fun next => connect_eq_ok rfl⟩
      | _ => cases hdriver _ rfl
    · rw [hopening] at hopened h
      rw [hopened rfl] at h
      have hstays := (createSchema_keeps_connected store).of_run rfl h
      exact .inr ⟨rfl, hstays, connect_connected store hstays⟩

/-! ### A server without its database, and a file that is no database -/

/-- An error of a server that does not give its database. -/
def noDatabase : DriverFault := ⟨.operationalError, ["no database"]⟩

/-- A session whose driver will fail once to choose its database. -/
def unchosen : Session Script := ⟨false, { errors := [⟨"USE", .driver noDatabase⟩] }⟩

/-- The store is not connected after the error, and is after connecting again. -/
theorem connect_failed_unchosen :
    (scripted.opening.run unchosen.server).1 = .error (.driver noDatabase) ∧
      (scripted.connect.run unchosen).1 = .error (.motorStore (.connect noDatabase)) ∧
      (scripted.connect.run unchosen).2.connected = false ∧
      ∃ next, scripted.connect.run (scripted.connect.run unchosen).2 = (.ok (), next) ∧
        next.connected = true := by
  have hopening : (scripted.opening.run unchosen.server).1 = .error (.driver noDatabase) := by
    decide
  have hconnect :
      (scripted.connect.run unchosen).1 = .error (.motorStore (.connect noDatabase)) := by
    decide
  have hdriver : ∀ cause, (scripted.opening.run unchosen.server).1 = .error cause →
      cause.isDriverError = true := by
    intro cause hcause
    cases hopening.symm.trans hcause
    rfl
  obtain ⟨-, ⟨_, -, -, hreverted, hnext⟩ | ⟨hopened, -, -⟩⟩ :=
    connect_failed hdriver (run_eq_of_fst hconnect)
  · have hok : (scripted.connect.run (scripted.connect.run unchosen).2).1 = .ok () := by
      decide +kernel
    have hagain := run_eq_of_fst hok
    exact ⟨hopening, hconnect, hreverted, _, hagain, ((hnext _).mp hagain).1⟩
  · cases hopening.symm.trans hopened

/-- A store in a file. -/
def inFile : MotorsConfig := { dbType := "sqlite", dbFile := "x.db" }

/-- A session where that file is there and holds a text. -/
def inGarbage : Session TableServer :=
  ⟨false, ⟨.ofPaths [("x.db", LocationFault.words "no database")], []⟩, none⟩

/-- A store whose file is no database fails to connect, and is connected. Connecting again does
not fail. -/
theorem connect_garbage :
    ((onTables inFile).connect.run inGarbage).1 =
        .error (.motorStore (.schema ⟨.databaseError, ["file is not a database"]⟩)) ∧
      ((onTables inFile).connect.run inGarbage).2.connected = true ∧
      ((onTables inFile).connect.run ((onTables inFile).connect.run inGarbage).2).1 = .ok () := by
  refine ⟨?_, ?_, ?_⟩ <;> decide

end MotorStore

end ScanCatalog
