import ScanCatalog.Proofs.Motor.Sessions

/-!
# Databases that are opened again

A store writes to the file of its database what it commits, and another store of the same
configuration reads it there. So whatever stores there were before, one that connects finds
tables that hold something sound.

## Main definitions

* `Disk.Lasting`: databases that stores of a configuration leave;
* `Session.Writes`: a session that leaves the databases of a disk, but for its own;
* `Session.Sound`, `Session.Serves`: a session on sound tables, and beside such databases.

## Main statements

* `Disk.Lasting.openName`: a database that is opened is new or holds something sound;
* `MotorStore.connect_serves`: a store that connects;
* `Session.Serves.of_writes`: what a session leaves when it has written.
-/

namespace ScanCatalog

open ScanCatalog.Action MotorStore

/-- The location of the database of a configuration, if its name has one. -/
def MotorsConfig.location? (config : MotorsConfig) : Option Location :=
  match Path.octets config.dbFile with
  | .ok octets => (Location.ofName octets).toOption
  | .error _ => none

/-- A database at a place can be changed by the name of a configuration. -/
def MotorsConfig.Changes (config : MotorsConfig) (place : Place) : Prop :=
  ∀ location, config.location? = some location → Disk.barrier? location place = none

/-- The databases of a disk hold something sound, and the name of a configuration can change
them. -/
def Disk.Lasting (disk : Disk) (config : MotorsConfig) : Prop :=
  ∀ d ∈ disk.databases, (∃ h : Holdings, h.Sound ∧ d.2 = h.toTables) ∧ config.Changes d.1

/-- A connection by the name of a configuration: what it can change at a place, the name can. -/
def TableConnection.OpenedBy (c : TableConnection) (config : MotorsConfig) : Prop :=
  ∀ place, c.storage = .file place → c.barrier = none → config.Changes place

/-! ### Opening -/

namespace Disk

variable {config : MotorsConfig} {disk : Disk} {c : TableConnection}

theorem lasting_of_eq_nil (h : disk.databases = []) : disk.Lasting config := by
  intro d hd
  rw [h] at hd
  cases hd

theorem Lasting.openPlace (hdisk : disk.Lasting config) {location : Location} {place : Place}
    (hlocation : config.location? = some location) (h : disk.openPlace location place = .ok c) :
    c.OpenedBy config ∧ (c.Fresh ∨ ∃ k, c.Shows k k) := by
  have hopened : ∀ {made committed working},
      TableConnection.OpenedBy ⟨.file place, barrier? location place, made, committed, working⟩
        config := by
    rintro _ _ _ _ ⟨⟩ hbarrier location' hlocation'
    cases hlocation.symm.trans hlocation'
    exact hbarrier
  unfold Disk.openPlace at h
  dsimp only at h
  split at h
  · cases h
  · split at h
    · next tables hlookup =>
      cases h
      obtain ⟨before, after, heq, -⟩ := List.lookup_eq_some_iff.mp hlookup
      have hmem : (place, tables) ∈ disk.databases := by
        rw [heq]
        exact List.mem_append_right _ List.mem_cons_self
      obtain ⟨⟨k, hk, htables⟩, hchanges⟩ := hdisk _ hmem
      have hready : TableConnection.Ready
          ⟨.file place, barrier? location place, true, tables, tables⟩ :=
        ⟨Storage.noConfusion, hchanges location hlocation, rfl⟩
      exact ⟨hopened, .inr ⟨k, ⟨hready, htables, hk⟩, htables, hk⟩⟩
    · cases h
      exact ⟨hopened, .inl ⟨rfl, rfl, rfl⟩⟩
    · cases h
      exact ⟨fun _ => Storage.noConfusion, .inl ⟨rfl, rfl, rfl⟩⟩
    · split at h <;> cases h
      exact ⟨hopened, .inl ⟨rfl, rfl, rfl⟩⟩

/-- A database that is opened is new, or it holds something sound. -/
theorem Lasting.openName (hdisk : disk.Lasting config) (h : disk.openName config.dbFile = .ok c) :
    c.OpenedBy config ∧ (c.Fresh ∨ ∃ k, c.Shows k k) := by
  unfold Disk.openName at h
  split at h
  · cases h
  next octets hoctets =>
  split at h
  · cases h
  next location hname =>
  have hlocation : config.location? = some location := by
    unfold MotorsConfig.location?
    rw [hoctets]
    dsimp only
    rw [hname]
    rfl
  unfold openLocation at h
  split at h
  · cases h
    exact ⟨fun _ => Storage.noConfusion, .inl ⟨rfl, rfl, rfl⟩⟩
  · split at h
    · split at h
      · cases h
      · exact hdisk.openPlace hlocation h
    · cases h

end Disk

/-! ### Writing -/

/-- A session with a connection by the name of a configuration. Databases that are not of a given
disk are what the connection committed to its file. -/
def Session.Writes (config : MotorsConfig) (disk : Disk) (session : Session TableServer) : Prop :=
  ∃ c, session.server.connection = some c ∧ c.OpenedBy config ∧
    ∀ d ∈ session.server.disk.databases,
      d ∈ disk.databases ∨ c.storage = .file d.1 ∧ c.made = true ∧ d.2 = c.committed

/-- A connection that changed at most what it has not committed, and made its tables. -/
structure TableConnection.Pends (c c' : TableConnection) : Prop where
  storage : c'.storage = c.storage
  barrier : c'.barrier = c.barrier
  made : c.made = true → c'.made = true
  committed : c'.committed = c.committed

theorem TableServer.executeOn_pends {statement : Statement} {parameters : Option (List Value)}
    {c c' : TableConnection} {result : ResultSet}
    (h : executeOn statement parameters c = .ok (result, c')) : c.Pends c' := by
  by_cases hcreate : ∃ part, statement = .create part
  · obtain ⟨part, rfl⟩ := hcreate
    unfold executeOn at h
    dsimp only at h
    split at h
    · cases h
    · split at h
      · next hmake =>
        cases h
        unfold makeTables at hmake
        split at hmake
        · cases hmake
          exact ⟨rfl, rfl, id, rfl⟩
        · split at hmake <;> cases hmake
          exact ⟨rfl, rfl, fun _ => rfl, rfl⟩
      · cases h
  · have hrows : ∀ part, statement ≠ .create part := fun part h => hcreate ⟨part, h⟩
    obtain ⟨-, -, cells, tables, -, -, rfl⟩ := executeOn_ok h hrows
    exact ⟨rfl, rfl, id, rfl⟩

namespace MotorStore

variable {config : MotorsConfig} {disk : Disk} {α : Type}

theorem call_keeps_writes {action : Action TableServer α}
    (h : ∀ disk' c, ∃ c', (action.run ⟨disk', some c⟩).2 = ⟨disk', some c'⟩ ∧ c.Pends c') :
    Keeps (Session.Writes config disk) (call action) := by
  rintro ⟨connected, disk', _⟩ ⟨c, ⟨⟩, hopened, hdatabases⟩
  obtain ⟨c', hrun, hpends⟩ := h disk' c
  rw [call, run_zoom, hrun]
  refine ⟨c', rfl, fun place hstorage hbarrier => ?_, fun d hd => (hdatabases d hd).imp id ?_⟩
  · exact hopened place (hpends.storage ▸ hstorage) (hpends.barrier ▸ hbarrier)
  · rintro ⟨hstorage, hmade, htables⟩
    exact ⟨hpends.storage.trans hstorage, hpends.made hmade, htables.trans hpends.committed.symm⟩

/-- What a connection commits takes the place of what it committed before. -/
theorem commit_keeps_writes :
    Keeps (Session.Writes config disk) (call (onTables config).driver.commit) := by
  rintro ⟨connected, disk', _⟩ ⟨c, ⟨⟩, hopened, hdatabases⟩
  refine ⟨c.settled, rfl, hopened, fun d hd => ?_⟩
  dsimp only [call, Action.run, Action.zoom, onTables, TableServer.driver, TableServer.commit] at hd
  split at hd
  · next place hstorage hmade =>
    rcases List.mem_cons.mp hd with rfl | hd
    · exact .inr ⟨hstorage, hmade, rfl⟩
    · obtain ⟨hd, hplace⟩ := List.mem_filter.mp hd
      refine (hdatabases d hd).imp id fun hown => ?_
      cases hstorage.symm.trans hown.1
      exact absurd rfl (bne_iff_ne.mp hplace)
  · next hnone =>
    refine (hdatabases d hd).imp id fun hown => ?_
    exact absurd hown.2.1 (hnone d.1 hown.1)

/-- Calls write to the file of the connection and to no other. -/
theorem writes_keptByCalls (config : MotorsConfig) (disk : Disk) :
    KeptByCalls config (Session.Writes config disk) where
  nothing := call_keeps_writes fun _ c => ⟨c, rfl, rfl, rfl, id, rfl⟩
  execute statement parameters := by
    refine call_keeps_writes fun disk' c => ?_
    change ∃ c', ((TableServer.driver.execute statement parameters).run
      ⟨disk', some c⟩).2 = _ ∧ _
    rw [TableServer.run_execute]
    cases h : TableServer.executeOn statement parameters c with
    | error fault => exact ⟨c, rfl, rfl, rfl, id, rfl⟩
    | ok found => exact ⟨found.2, rfl, TableServer.executeOn_pends h⟩
  commit := commit_keeps_writes
  rollback := call_keeps_writes fun _ c => ⟨c.undone, rfl, rfl, rfl, id, rfl⟩

end MotorStore

/-! ### Sessions in a row -/

/-- A session on tables that hold something sound, with nothing pending if it is settled. -/
def Session.Sound (settled : Prop) (session : Session TableServer) : Prop :=
  ∃ h k, session.Shows h k ∧ (settled → h = k)

/-- A session on tables that hold something sound, by the name of a configuration and beside
databases that stores of it leave. -/
structure Session.Serves (config : MotorsConfig) (session : Session TableServer) : Prop where
  shows : ∃ h k, session.Shows h k
  writes : session.Writes config session.server.disk
  lasting : session.server.disk.Lasting config

namespace Session

variable {config : MotorsConfig} {disk : Disk} {session session' : Session TableServer}

theorem Sound.shows {settled : Prop} (hs : session.Sound settled) : ∃ h k, session.Shows h k := by
  obtain ⟨h, k, hs, -⟩ := hs
  exact ⟨h, k, hs⟩

theorem Serves.sound (hs : session.Serves config) : session.Sound False := by
  obtain ⟨h, k, hs⟩ := hs.shows
  exact ⟨h, k, hs, False.elim⟩

/-- Whatever a session writes when its tables hold something sound, is sound. -/
theorem Serves.of_writes (hdisk : disk.Lasting config) (hwrites : session.Writes config disk)
    (hshows : ∃ h k, session.Shows h k) : session.Serves config := by
  obtain ⟨h, k, c, hon, hc⟩ := hshows
  obtain ⟨_, hconnection, hopened, hdatabases⟩ := hwrites
  cases hon.2.symm.trans hconnection
  refine ⟨⟨h, k, c, hon, hc⟩, ⟨c, hconnection, hopened, fun _ => .inl⟩, fun d hd => ?_⟩
  rcases hdatabases d hd with hd | ⟨hstorage, -, htables⟩
  · exact hdisk d hd
  · exact ⟨⟨k, hc.lasting, htables.trans hc.committed⟩, hopened _ hstorage hc.holds.ready.barrier⟩

/-- A question leaves tables that hold something sound, answered or not, and pending only what
was. -/
theorem fetch_keeps_sound (config : MotorsConfig) (settled : Prop) {statement : Statement}
    (hselect : statement.isSelect = true) (parameters : List Value) :
    Keeps (Sound settled) ((onTables config).fetch statement parameters) := by
  rintro session ⟨h, k, ⟨c, hon, hc⟩, hsettled⟩
  have hleads : Leads Session.On ((onTables config).fetch statement parameters) c _ _ :=
    fetch_leads statement parameters c
  obtain ⟨session', hrun, hon'⟩ := hleads session hon
  rw [hrun]
  cases hexecute : TableServer.executeOn statement (some parameters) c with
  | ok selected =>
    obtain ⟨selected, d⟩ := selected
    obtain rfl := TableServer.executeOn_select hselect hexecute
    have hfetch : d.fetch statement parameters = (.ok selected, d.settled) := by
      rw [TableConnection.fetch, hexecute]
    rw [hfetch] at hon'
    exact ⟨h, h, ⟨d.settled, hon', hc.settled⟩, fun _ => rfl⟩
  | error fault =>
    have hfetch : c.fetch statement parameters = (.error fault, c) := by
      rw [TableConnection.fetch, hexecute]
    rw [hfetch] at hon'
    cases hdriver : fault.isDriverError with
    | true =>
      obtain ⟨reason, -, hreported⟩ := TableConnection.reported_driverError (α := ResultSet)
        (fun _ reason => .motorStore (.query reason)) hdriver c
      rw [hreported] at hon'
      exact ⟨k, k, ⟨c.undone, hon', hc.undone⟩, fun _ => rfl⟩
    | false =>
      rw [TableConnection.reported_error _ hdriver] at hon'
      exact ⟨h, k, ⟨c, hon', hc⟩, hsettled⟩

/-- A question leaves a session as others need it. -/
theorem fetch_keeps_serves {statement : Statement} (hselect : statement.isSelect = true)
    (parameters : List Value) :
    Keeps (Serves config) ((onTables config).fetch statement parameters) := fun session hs =>
  .of_writes hs.lasting ((writes_keptByCalls config _).fetch statement parameters session hs.writes)
    (fetch_keeps_sound config False hselect parameters session hs.sound).shows

theorem bySids_keeps_serves (sids : List Value) :
    Keeps (Serves config) ((onTables config).bySids sids) := by
  refine (Keeps.ofExcept _).bind fun sids => ?_
  cases sids.isEmpty
  · exact fetch_keeps_serves rfl _
  · exact Keeps.pure _

end Session

namespace MotorStore

variable {config : MotorsConfig} {disk : Disk} {session session' : Session TableServer}

/-- Making the tables again where there are some changes nothing. -/
theorem createSchema_ready {c : TableConnection} {h k : Holdings} (hc : c.Shows h k)
    (hon : session.On c) {outcome : Except Fault Unit}
    (hrun : (onTables config).createSchema.run session = (outcome, session')) :
    session'.Shows h h := by
  have hparts : Leads Session.On (do
      (onTables config).createParts Dialect.sqlite.schema
      call (onTables config).driver.commit) c (.ok ()) c.settled :=
    (createParts_leads hc.holds.ready _).bind commit_leads
  have hschema : Leads Session.On (onTables config).createSchema c (.ok ()) c.settled :=
    requireConnection_leads.bind (withCursor_leads (Leads.handle_ok hparts))
  exact ⟨c.settled, (hschema.outcome_eq hon hrun).2, hc.settled⟩

/-- A store that connects finds tables that hold something sound, whatever stores of its
configuration there were before, and nothing is pending. -/
theorem connect_shows_lasting {connection : Option TableConnection} (hdisk : disk.Lasting config)
    (hrun : (onTables config).connect.run ⟨false, disk, connection⟩ = (.ok (), session')) :
    (∃ h, session'.Shows h h) ∧ session'.Writes config disk := by
  rw [connect_run, if_neg Bool.false_ne_true] at hrun
  split at hrun
  · next c hopen =>
    obtain ⟨hopened, hholds⟩ := hdisk.openName hopen
    have hon : Session.On ⟨true, disk, some c⟩ c := ⟨rfl, rfl⟩
    have hwrites : Session.Writes config disk session' := by
      have hkept := (writes_keptByCalls config disk).createSchema ⟨true, disk, some c⟩
        ⟨c, rfl, hopened, fun _ => .inl⟩
      rwa [hrun] at hkept
    refine ⟨?_, hwrites⟩
    rcases hholds with hfresh | ⟨k, hk⟩
    · exact ⟨_, createSchema_shows hfresh hon hrun⟩
    · exact ⟨_, createSchema_ready hk hon hrun⟩
  · split at hrun <;> cases hrun
  · cases hrun

theorem connect_serves {connection : Option TableConnection} (hdisk : disk.Lasting config)
    (hrun : (onTables config).connect.run ⟨false, disk, connection⟩ = (.ok (), session')) :
    session'.Serves config := by
  obtain ⟨⟨h, hs⟩, hwrites⟩ := connect_shows_lasting hdisk hrun
  exact .of_writes hdisk hwrites ⟨h, h, hs⟩

end MotorStore

end ScanCatalog
