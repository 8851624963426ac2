import ScanCatalog.Proofs.Motor.Connection

/-!
# Sessions that calls can reach

The calls of the motor store, in any order and with any arguments, from a disk without
databases. Whatever happens on the way, a row never has a number beyond the last one
given out, and a connected session holds a connection.

## Main definitions

* `Tables.Bounded`, `Session.Bounded`: the numbers of rows are bounded;
* `MotorStore.KeptByCalls`: what the calls of the driver keep, and so the operations;
* `StoreCall`: a call of the store;
* `Session.Reached`: the sessions that calls can reach.

## Main statements

* `Tables.execute_bounded`: a statement keeps the numbers bounded;
* `Session.Reached.bounded`: the numbers are bounded in every session that can be reached.
-/

namespace ScanCatalog

open ScanCatalog.Action

/-- No row has a number beyond the last given out, nor beyond the last there is. -/
structure Tables.Bounded (t : Tables) : Prop where
  lastScan : t.lastScan ≤ Tables.lastNumber
  lastMotor : t.lastMotor ≤ Tables.lastNumber
  scans : ∀ s ∈ t.scans, s.scanId ≤ t.lastScan
  motors : ∀ m ∈ t.mnemonics, m.motorId ≤ t.lastMotor

namespace Tables

variable {t t' : Tables} {result : ResultSet}

theorem bounded_empty : ({} : Tables).Bounded := by
  constructor <;> simp

/-- What a scan that was put in is. -/
theorem insertScan_eq_ok {sid : Cell} (h : t.insertScan sid = .ok (t', result)) :
    t.lastScan < lastNumber ∧ sid.asReal.isNull = false ∧
      (t.scans.any fun s => s.sid.same sid.asReal) = false ∧
      t' = { t with
        scans := t.scans ++ [⟨t.lastScan + 1, sid.asReal⟩], lastScan := t.lastScan + 1 } ∧
      result = { lastId := .int (t.lastScan + 1) } := by
  unfold insertScan at h
  dsimp only at h
  split at h
  · cases h
  · next hlast =>
    split at h
    · cases h
    · next hnull =>
      split at h
      · cases h
      · next hsame =>
        cases h
        exact ⟨by omega, Bool.eq_false_iff.mpr hnull, Bool.eq_false_iff.mpr hsame, rfl, rfl⟩

/-- What a motor that was put in is. -/
theorem insertMnemonic_eq_ok {scanId mnemonic : Cell}
    (h : t.insertMnemonic scanId mnemonic = .ok (t', result)) :
    t.lastMotor < lastNumber ∧
      t' = { t with
        mnemonics := t.mnemonics ++ [⟨t.lastMotor + 1, scanId.asNumeric, mnemonic.asText⟩]
        lastMotor := t.lastMotor + 1 } ∧
      result = { lastId := .int (t.lastMotor + 1) } := by
  unfold insertMnemonic at h
  dsimp only at h
  split at h
  · cases h
  · next hlast =>
    split at h
    · cases h
    · split at h
      · cases h
      · cases h
        exact ⟨by omega, rfl, rfl⟩

/-- What a position that was put in is. -/
theorem insertPosition_eq_ok {motorId position : Cell}
    (h : t.insertPosition motorId position = .ok (t', result)) :
    t' = { t with
      positions := t.positions ++ [⟨motorId.asNumeric, position.asReal⟩] } := by
  unfold insertPosition at h
  split at h
  · cases h
  · cases h
    rfl

/-- What a statement does that is no selection: it puts in a row, takes out rows or leaves
the tables as they are. -/
theorem execute_cases {statement : Statement} {cells : List Cell}
    (h : t.execute statement cells = .ok (t', result)) :
    t' = t ∨
      (∃ sid, t.insertScan sid = .ok (t', result)) ∨
      (∃ scanId mnemonic, t.insertMnemonic scanId mnemonic = .ok (t', result)) ∨
      (∃ motorId position, t.insertPosition motorId position = .ok (t', result)) ∨
      (∃ scanId, t' = t.deletePositions scanId) ∨ ∃ scanId, t' = t.deleteMnemonics scanId := by
  cases statement with
  | insertScan =>
    rcases cells with _ | ⟨sid, _ | _⟩
    · cases h; exact .inl rfl
    · exact .inr (.inl ⟨sid, h⟩)
    · cases h; exact .inl rfl
  | insertMnemonic =>
    rcases cells with _ | ⟨scanId, _ | ⟨mnemonic, _ | _⟩⟩
    · cases h; exact .inl rfl
    · cases h; exact .inl rfl
    · exact .inr (.inr (.inl ⟨scanId, mnemonic, h⟩))
    · cases h; exact .inl rfl
  | insertPosition =>
    rcases cells with _ | ⟨motorId, _ | ⟨position, _ | _⟩⟩
    · cases h; exact .inl rfl
    · cases h; exact .inl rfl
    · exact .inr (.inr (.inr (.inl ⟨motorId, position, h⟩)))
    · cases h; exact .inl rfl
  | deletePositions =>
    rcases cells with _ | ⟨scanId, _ | _⟩
    · cases h; exact .inl rfl
    · cases h; exact .inr (.inr (.inr (.inr (.inl ⟨scanId, rfl⟩))))
    · cases h; exact .inl rfl
  | deleteMnemonics =>
    rcases cells with _ | ⟨scanId, _ | _⟩
    · cases h; exact .inl rfl
    · cases h; exact .inr (.inr (.inr (.inr (.inr ⟨scanId, rfl⟩))))
    · cases h; exact .inl rfl
  | selectScanId | countScans | selectBySids | selectByConditions =>
    exact .inl (execute_select rfl h)
  | createDatabase | useDatabase | create => cases h; exact .inl rfl

/-- A statement keeps the numbers bounded. -/
theorem execute_bounded {statement : Statement} {cells : List Cell} (ht : t.Bounded)
    (h : t.execute statement cells = .ok (t', result)) : t'.Bounded := by
  obtain ⟨hlastScan, hlastMotor, hscans, hmotors⟩ := ht
  rcases execute_cases h with rfl | ⟨sid, h⟩ | ⟨scanId, mnemonic, h⟩ | ⟨motorId, position, h⟩ |
    ⟨scanId, rfl⟩ | ⟨scanId, rfl⟩
  · exact ⟨hlastScan, hlastMotor, hscans, hmotors⟩
  · obtain ⟨hlast, -, -, rfl, -⟩ := insertScan_eq_ok h
    refine ⟨hlast, hlastMotor, ?_, hmotors⟩
    intro s hs
    rcases List.mem_append.mp hs with hs | hs
    · exact Nat.le_succ_of_le (hscans s hs)
    · cases List.mem_singleton.mp hs
      exact Nat.le_refl _
  · obtain ⟨hlast, rfl, -⟩ := insertMnemonic_eq_ok h
    refine ⟨hlastScan, hlast, hscans, ?_⟩
    intro m hm
    rcases List.mem_append.mp hm with hm | hm
    · exact Nat.le_succ_of_le (hmotors m hm)
    · cases List.mem_singleton.mp hm
      exact Nat.le_refl _
  · cases insertPosition_eq_ok h
    exact ⟨hlastScan, hlastMotor, hscans, hmotors⟩
  · exact ⟨hlastScan, hlastMotor, hscans, hmotors⟩
  · exact ⟨hlastScan, hlastMotor, hscans, fun m hm => hmotors m (List.mem_filter.mp hm).1⟩

/-- A statement fails on the tables with an error of the driver only. -/
theorem execute_error {statement : Statement} {cells : List Cell} {fault : Fault}
    (h : t.execute statement cells = .error fault) : fault.isDriverError = true := by
  have hscan : ∀ sid, t.insertScan sid = .error fault → fault.isDriverError = true := by
    intro sid h
    unfold insertScan at h
    dsimp only at h
    split at h
    · cases h; rfl
    · split at h
      · cases h; rfl
      · split at h <;> cases h
        rfl
  have hmnemonic : ∀ scanId mnemonic, t.insertMnemonic scanId mnemonic = .error fault →
      fault.isDriverError = true := by
    intro scanId mnemonic h
    unfold insertMnemonic at h
    dsimp only at h
    split at h
    · cases h; rfl
    · split at h
      · cases h; rfl
      · split at h <;> cases h
        rfl
  have hposition : ∀ motorId position, t.insertPosition motorId position = .error fault →
      fault.isDriverError = true := by
    intro motorId position h
    unfold insertPosition at h
    split at h <;> cases h
    rfl
  unfold execute at h
  split at h <;> first | exact hscan _ h | exact hmnemonic _ _ h | exact hposition _ _ h | cases h

end Tables

/-- The tables of a connection are bounded, and if they cannot be changed the driver says
so with an operational error. -/
structure TableConnection.Bounded (c : TableConnection) : Prop where
  committed : c.committed.Bounded
  working : c.working.Bounded
  barrier : ∀ fault, c.barrier = some fault → ∃ words, fault = Disk.operationalFault words

/-- All tables of a session are bounded, and it holds a connection if it is connected. -/
structure Session.Bounded (session : Session TableServer) : Prop where
  connection : ∀ c, session.server.connection = some c → c.Bounded
  databases : ∀ d ∈ session.server.disk.databases, d.2.Bounded
  connected : session.connected = true → session.server.connection.isSome

namespace Disk

variable {disk : Disk} {c : TableConnection}

theorem openPlace_bounded {location : Location} {place : Place}
    (hdisk : ∀ d ∈ disk.databases, d.2.Bounded) (h : disk.openPlace location place = .ok c) :
    c.Bounded := by
  have hbarrier : ∀ fault, barrier? location place = some fault →
      ∃ words, fault = operationalFault words := by
    intro fault h
    unfold barrier? at h
    split at h
    · cases h; exact ⟨_, rfl⟩
    · split at h <;> cases h
      exact ⟨_, rfl⟩
  unfold openPlace at h
  dsimp only at h
  split at h
  · cases h
  · split at h
    · next tables hlookup =>
      cases h
      obtain ⟨before, after, heq, -⟩ := List.lookup_eq_some_iff.mp hlookup
      have htables : tables.Bounded := hdisk (place, tables) (by rw [heq]; simp)
      exact ⟨htables, htables, hbarrier⟩
    · cases h
      exact ⟨Tables.bounded_empty, Tables.bounded_empty, hbarrier⟩
    · cases h
      exact ⟨Tables.bounded_empty, Tables.bounded_empty, by simp⟩
    · split at h <;> cases h
      exact ⟨Tables.bounded_empty, Tables.bounded_empty, hbarrier⟩

theorem openName_bounded {name : Text} (hdisk : ∀ d ∈ disk.databases, d.2.Bounded)
    (h : disk.openName name = .ok c) : c.Bounded := by
  unfold openName at h
  split at h
  · cases h
  · split at h
    · cases h
    · unfold openLocation at h
      split at h
      · cases h
        refine ⟨Tables.bounded_empty, Tables.bounded_empty, ?_⟩
        intro fault hfault
        dsimp only at hfault
        split at hfault <;> cases hfault
        exact ⟨_, rfl⟩
      · split at h
        · split at h
          · cases h
          · exact openPlace_bounded hdisk h
        · cases h

end Disk

namespace TableServer

variable {statement : Statement} {parameters : Option (List Value)} {c c' : TableConnection}
  {result : ResultSet}

theorem makeTables_bounded (hc : c.Bounded) (h : makeTables c = .ok c') : c'.Bounded := by
  unfold makeTables at h
  split at h
  · cases h
    exact hc
  · split at h
    · cases h
    · cases h
      exact ⟨hc.committed, hc.working, hc.barrier⟩

theorem executeOn_bounded (hc : c.Bounded)
    (h : executeOn statement parameters c = .ok (result, c')) : c'.Bounded := by
  by_cases hcreate : ∃ part, statement = .create part
  · obtain ⟨part, rfl⟩ := hcreate
    unfold executeOn at h
    dsimp only at h
    split at h
    · cases h
    · split at h
      · next hmake =>
        cases h
        exact makeTables_bounded hc hmake
      · cases h
  · have hrows : ∀ part, statement ≠ .create part := fun part h => hcreate ⟨part, h⟩
    obtain ⟨-, -, cells, tables, -, hexecute, rfl⟩ := executeOn_ok h hrows
    exact ⟨hc.committed, Tables.execute_bounded hc.working hexecute, hc.barrier⟩

end TableServer

namespace MotorStore

variable {config : MotorsConfig} {α : Type}

/-! ### What operations keep -/

/-- A property of sessions that the calls of the driver keep, except for those that open and close
the connection. -/
structure KeptByCalls (config : MotorsConfig) (property : Session TableServer → Prop) : Prop where
  nothing : Keeps property (call (Action.pure () : Action TableServer Unit))
  execute : ∀ statement parameters,
    Keeps property (call ((onTables config).driver.execute statement parameters))
  commit : Keeps property (call (onTables config).driver.commit)
  rollback : Keeps property (call (onTables config).driver.rollback)

theorem requireConnection_keeps {σ : Type} {property : Session σ → Prop} :
    Keeps property requireConnection := by
  refine Keeps.bind Keeps.get fun session => ?_
  cases session.connected
  · exact Keeps.fail _
  · exact Keeps.pure ()

theorem onDriverError_keeps {σ : Type} {property : Session σ → Prop}
    {action : Action (Session σ) α} {handler : DriverFault → Action (Session σ) α}
    (h : Keeps property action) (hhandler : ∀ reason, Keeps property (handler reason)) :
    Keeps property (onDriverError action handler) := by
  refine h.handle fun fault => ?_
  cases fault with
  | driver reason =>
    dsimp only
    split
    · exact hhandler reason
    · exact Keeps.fail _
  | _ => exact Keeps.fail _

namespace KeptByCalls

variable {property : Session TableServer → Prop}

theorem withCursor (hp : KeptByCalls config property) {action : Action (Session TableServer) α}
    (h : Keeps property action) : Keeps property ((onTables config).withCursor action) :=
  hp.nothing.bind fun _ => h.always hp.nothing

theorem undo (hp : KeptByCalls config property) (fault : Fault) :
    Keeps property ((onTables config).undo fault : Action _ α) :=
  hp.rollback.bind fun _ => Keeps.fail fault

theorem createSchema (hp : KeptByCalls config property) :
    Keeps property (onTables config).createSchema := by
  have hparts : ∀ parts, Keeps property ((onTables config).createParts parts) := by
    intro parts
    induction parts with
    | nil => exact Keeps.pure ()
    | cons part rest ih => exact (hp.execute _ _).bind fun _ => ih
  refine requireConnection_keeps.bind fun _ => hp.withCursor ?_
  exact onDriverError_keeps ((hparts _).bind fun _ => hp.commit) fun reason => hp.undo _

theorem insertMotors (hp : KeptByCalls config property) (scanId : Value) (motors : Entries) :
    Keeps property ((onTables config).insertMotors scanId motors) := by
  induction motors with
  | nil => exact Keeps.pure ()
  | cons motor rest ih =>
    exact (hp.execute _ _).bind fun _ => (hp.execute _ _).bind fun _ => ih

theorem insertFailed (hp : KeptByCalls config property) (sid : Value) (reason : DriverFault) :
    Keeps property ((onTables config).insertFailed sid reason : Action _ α) := by
  refine hp.rollback.bind fun _ => ?_
  split
  · refine (hp.withCursor ((hp.execute _ _).bind fun found => Keeps.pure _)).bind ?_
    intro found
    cases found <;> exact Keeps.fail _
  · exact Keeps.fail _

theorem insert (hp : KeptByCalls config property) (sid motors : Value) :
    Keeps property ((onTables config).insert sid motors) := by
  refine (Keeps.ofExcept _).bind fun motors => requireConnection_keeps.bind fun _ =>
    hp.withCursor (onDriverError_keeps ?_ (hp.insertFailed sid))
  exact (hp.execute _ _).bind fun scan => (hp.insertMotors _ _).bind fun _ =>
    hp.commit.bind fun _ => Keeps.pure _

theorem replaceMotors (hp : KeptByCalls config property) (sid motors : Value) :
    Keeps property ((onTables config).replaceMotors sid motors) := by
  refine (Keeps.ofExcept _).bind fun motors => requireConnection_keeps.bind fun _ =>
    hp.withCursor (Keeps.handle ?_ fun fault => ?_)
  · refine (hp.execute _ _).bind fun found => ?_
    cases found.rows with
    | nil => exact Keeps.fail _
    | cons row rest =>
      exact (Keeps.ofExcept _).bind fun scanId => (hp.execute _ _).bind fun _ =>
        (hp.execute _ _).bind fun _ => (hp.insertMotors _ _).bind fun _ => hp.commit
  · cases fault with
    | motorStore cause => exact hp.undo _
    | driver reason =>
      unfold replaceFailed
      dsimp only
      split
      · exact hp.undo _
      · exact Keeps.fail _
    | _ => exact Keeps.fail _

theorem count (hp : KeptByCalls config property) : Keeps property (onTables config).count := by
  refine requireConnection_keeps.bind fun _ => hp.withCursor (onDriverError_keeps ?_ fun _ =>
    Keeps.fail _)
  exact (hp.execute _ _).bind fun counted => Keeps.ofExcept _

theorem fetch (hp : KeptByCalls config property) (statement : Statement)
    (parameters : List Value) :
    Keeps property ((onTables config).fetch statement parameters) := by
  refine requireConnection_keeps.bind fun _ => (hp.withCursor (onDriverError_keeps ?_ fun _ =>
    hp.undo _)).bind fun _ => Keeps.ofExcept _
  exact (hp.execute _ _).bind fun _ => hp.commit.bind fun _ => Keeps.pure _

theorem bySids (hp : KeptByCalls config property) (sids : List Value) :
    Keeps property ((onTables config).bySids sids) := by
  refine (Keeps.ofExcept _).bind fun sids => ?_
  cases sids.isEmpty
  · exact hp.fetch _ _
  · exact Keeps.pure _

theorem byPosition (hp : KeptByCalls config property) (mnemonic position : Value) :
    Keeps property ((onTables config).byPosition mnemonic position) :=
  (Keeps.ofExcept _).bind fun _ => hp.fetch _ _

end KeptByCalls

/-! ### What keeps a session bounded -/

theorem call_keeps_bounded {action : Action TableServer α}
    (h : ∀ disk c, c.Bounded → (∀ d ∈ disk.databases, d.2.Bounded) →
      ∃ disk' c', (action.run ⟨disk, some c⟩).2 = ⟨disk', some c'⟩ ∧ c'.Bounded ∧
        ∀ d ∈ disk'.databases, d.2.Bounded)
    (hnone : ∀ disk, (action.run ⟨disk, none⟩).2 = ⟨disk, none⟩) :
    Keeps Session.Bounded (call action) := by
  rintro ⟨connected, disk, _ | c⟩ hs
  · rw [call, run_zoom, hnone disk]
    exact hs
  · obtain ⟨disk', c', hrun, hc', hdisk'⟩ := h disk c (hs.connection c rfl) hs.databases
    rw [call, run_zoom, hrun]
    refine ⟨?_, hdisk', fun _ => rfl⟩
    rintro _ ⟨⟩
    exact hc'

/-- Calls keep the tables of a session bounded. -/
theorem bounded_keptByCalls (config : MotorsConfig) : KeptByCalls config Session.Bounded where
  nothing := call_keeps_bounded (fun disk c hc hdisk => ⟨disk, c, rfl, hc, hdisk⟩) fun _ => rfl
  execute statement parameters := by
    refine call_keeps_bounded (fun disk c hc hdisk => ?_) fun disk => rfl
    change ∃ disk' c', ((TableServer.driver.execute statement parameters).run
      ⟨disk, some c⟩).2 = _ ∧ _
    rw [TableServer.run_execute]
    cases h : TableServer.executeOn statement parameters c with
    | error fault => exact ⟨disk, c, rfl, hc, hdisk⟩
    | ok found => exact ⟨disk, found.2, rfl, TableServer.executeOn_bounded hc h, hdisk⟩
  commit := by
    refine call_keeps_bounded (fun disk c hc hdisk => ?_) fun disk => rfl
    refine ⟨_, c.settled, rfl, ⟨hc.working, hc.working, hc.barrier⟩, ?_⟩
    intro d hd
    dsimp only at hd
    split at hd
    · rcases List.mem_cons.mp hd with rfl | hd
      · exact hc.working
      · exact hdisk d (List.mem_filter.mp hd).1
    · exact hdisk d hd
  rollback := call_keeps_bounded (fun disk c hc hdisk =>
    ⟨disk, c.undone, rfl, ⟨hc.committed, hc.committed, hc.barrier⟩, hdisk⟩) fun _ => rfl

theorem call_connect_run (session : Session TableServer) :
    (call ((onTables config).driver.connect (onTables config).config)).run session =
      match session.server.disk.openName config.dbFile with
      | .ok c => (.ok (), { session with server := { session.server with connection := some c } })
      | .error fault => (.error fault, session) := by
  have hconnect : ((onTables config).driver.connect (onTables config).config).run session.server =
      match session.server.disk.openName config.dbFile with
      | .ok c => (.ok (), { session.server with connection := some c })
      | .error fault => (.error fault, session.server) := rfl
  rw [call, run_zoom, hconnect]
  cases session.server.disk.openName config.dbFile <;> rfl

theorem openConnection_run (session : Session TableServer) :
    (onTables config).openConnection.run session =
      match session.server.disk.openName config.dbFile with
      | .ok c => (.ok (), ⟨true, session.server.disk, some c⟩)
      | .error fault => (.error fault, session) := by
  unfold openConnection
  rw [run_bind, call_connect_run]
  cases session.server.disk.openName config.dbFile <;> rfl

/-- A connected store stays as it is; another one opens its database and makes its tables. -/
theorem connect_run (session : Session TableServer) :
    (onTables config).connect.run session =
      if session.connected then (.ok (), session)
      else
        match session.server.disk.openName config.dbFile with
        | .ok c => (onTables config).createSchema.run ⟨true, session.server.disk, some c⟩
        | .error (.driver reason) =>
          if reason.isError then
            (.error (.motorStore (.connect reason)), { session with connected := false })
          else (.error (.driver reason), session)
        | .error fault => (.error fault, session) := by
  unfold MotorStore.connect
  rw [run_bind, run_get]
  dsimp only
  cases session.connected with
  | true => rfl
  | false =>
    have hopen : (onDriverError (onTables config).openConnection fun reason => do
        setConnected false
        Action.fail (.motorStore (.connect reason))).run session =
        match session.server.disk.openName config.dbFile with
        | .ok c => (.ok (), ⟨true, session.server.disk, some c⟩)
        | .error (.driver reason) =>
          if reason.isError then
            (.error (.motorStore (.connect reason)), { session with connected := false })
          else (.error (.driver reason), session)
        | .error fault => (.error fault, session) := by
      unfold onDriverError
      rw [run_handle, openConnection_run]
      cases session.server.disk.openName config.dbFile with
      | ok c => rfl
      | error fault =>
        cases fault with
        | driver reason =>
          cases hreason : reason.isError <;> simp [hreason]
          rfl
        | _ => rfl
    simp only [Bool.false_eq_true, if_false]
    rw [run_bind, hopen]
    cases session.server.disk.openName config.dbFile with
    | ok c => rfl
    | error fault =>
      cases fault with
      | driver reason => dsimp only; cases reason.isError <;> rfl
      | _ => rfl

theorem connect_keeps : Keeps Session.Bounded (onTables config).connect := by
  intro session hs
  rw [connect_run]
  split
  · exact hs
  · split
    · next c hopen =>
      refine (bounded_keptByCalls config).createSchema _ ⟨?_, hs.databases, fun _ => rfl⟩
      rintro _ ⟨⟩
      exact Disk.openName_bounded hs.databases hopen
    · split
      · exact ⟨hs.connection, hs.databases, by simp⟩
      · exact hs
    · exact hs

theorem disconnect_run (session : Session TableServer) :
    (onTables config).disconnect.run session =
      if session.connected then (.ok (), ⟨false, session.server.disk, none⟩)
      else (.ok (), session) := by
  unfold MotorStore.disconnect
  rw [run_bind, run_get]
  dsimp only
  cases session.connected <;> rfl

theorem disconnect_keeps : Keeps Session.Bounded (onTables config).disconnect := by
  intro session hs
  rw [disconnect_run]
  split
  · exact ⟨by simp, hs.databases, by simp⟩
  · exact hs

end MotorStore

/-! ### Calls of the store -/

/-- A call of the motor store. -/
inductive StoreCall
  | connect
  | disconnect
  | createSchema
  | insert (sid motors : Value)
  | replaceMotors (sid motors : Value)
  | bySids (sids : List Value)
  | byQueries (queries : List PositionQuery)
  | byPosition (mnemonic position : Value)
  | count

/-- The session after a call, whether it failed or not. -/
def StoreCall.after (config : MotorsConfig) (session : Session TableServer) :
    StoreCall → Session TableServer
  | .connect => ((MotorStore.onTables config).connect.run session).2
  | .disconnect => ((MotorStore.onTables config).disconnect.run session).2
  | .createSchema => ((MotorStore.onTables config).createSchema.run session).2
  | .insert sid motors => (((MotorStore.onTables config).insert sid motors).run session).2
  | .replaceMotors sid motors =>
    (((MotorStore.onTables config).replaceMotors sid motors).run session).2
  | .bySids sids => (((MotorStore.onTables config).bySids sids).run session).2
  | .byQueries queries => (((MotorStore.onTables config).byQueries queries).run session).2
  | .byPosition mnemonic position =>
    (((MotorStore.onTables config).byPosition mnemonic position).run session).2
  | .count => ((MotorStore.onTables config).count.run session).2

/-- A session that calls can reach from a disk without databases. -/
inductive Session.Reached (config : MotorsConfig) : Session TableServer → Prop
  | start (disk : Disk) (h : disk.databases = []) : Reached config ⟨false, disk, none⟩
  | call {session : Session TableServer} (h : Reached config session) (call : StoreCall) :
    Reached config (call.after config session)

theorem Session.Reached.bounded {config : MotorsConfig} {session : Session TableServer}
    (h : session.Reached config) : session.Bounded := by
  have hkept := MotorStore.bounded_keptByCalls config
  induction h with
  | start disk h => exact ⟨by simp, by simp [h], by simp⟩
  | call _ call ih =>
    cases call with
    | connect => exact MotorStore.connect_keeps _ ih
    | disconnect => exact MotorStore.disconnect_keeps _ ih
    | createSchema => exact hkept.createSchema _ ih
    | insert sid motors => exact hkept.insert sid motors _ ih
    | replaceMotors sid motors => exact hkept.replaceMotors sid motors _ ih
    | bySids sids => exact hkept.bySids sids _ ih
    | byQueries queries => exact hkept.fetch _ _ _ ih
    | byPosition mnemonic position => exact hkept.byPosition mnemonic position _ ih
    | count => exact hkept.count _ ih

end ScanCatalog
