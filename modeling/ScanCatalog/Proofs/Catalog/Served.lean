import ScanCatalog.Proofs.Catalog.Keyed
import ScanCatalog.Proofs.Motor.Reopened

/-!
# Catalogs that services leave to others

A service connects to the stores, is called, and leaves them; the next one finds the documents
and what the tables had when their last transaction ended. However often this happens, and
whatever the services are called with, the documents have sids and the tables hold something
sound.

## Main definitions

* `CatalogState.Serves`: a connected catalog with sound tables and documents by their sids;
* `CatalogState.Served`: a catalog by its history over all services and their calls.

## Main statements

* `Catalog.connect_serves`, `Catalog.add_serves`, `Catalog.edit_serves`: what a call leaves;
* `Catalog.search_keeps_serves`, `Catalog.count_keeps_serves`: what a question leaves;
* `CatalogState.Served.serves`: it is so in every history.
-/

namespace ScanCatalog

open ScanCatalog.Action MotorStore Catalog

/-- A connected catalog with sound tables, beside databases that can be opened again, and with
documents by their sids. -/
structure CatalogState.Serves (config : MotorsConfig) (collection : Text)
    (state : CatalogState TableServer Collections) : Prop where
  motors : state.motors.Serves config
  keyed : Entries.Keyed (state.documents.documents collection)

/-- A catalog whose session leaves the databases of a disk, but for its own. -/
def CatalogState.Writes (config : MotorsConfig) (disk : Disk)
    (state : CatalogState TableServer Collections) : Prop := state.motors.Writes config disk

/-- Such a catalog has its documents by their sids, beside sound tables. -/
theorem CatalogState.Serves.isKeyed {config : MotorsConfig} {collection : Text}
    {state : CatalogState TableServer Collections} (hs : state.Serves config collection) :
    state.Keyed collection :=
  ⟨hs.motors.shows, hs.keyed⟩

namespace Catalog

variable {config : MotorsConfig} {router : Router} {schema : Schema}
  {collection serviceName : Text} {state state' : CatalogState TableServer Collections}
  {disk : Disk}

/-! ### What the parts of a catalog keep -/

section

variable {σ δ α : Type} {property : Session σ → Prop}

theorem onMotors_keeps {action : Action (Session σ) α} (h : Keeps property action) :
    Keeps (fun state : CatalogState σ δ => property state.motors) (onMotors action) :=
  fun state hs => h state.motors hs

theorem onDocuments_keeps (action : Action δ α) :
    Keeps (fun state : CatalogState σ δ => property state.motors) (onDocuments action) :=
  fun _ hs => hs

theorem onClock_keeps (action : Action SidClock α) :
    Keeps (fun state : CatalogState σ δ => property state.motors) (onClock action) :=
  fun _ hs => hs

end

/-- A record that is added writes to the file of the connection and to no other. -/
theorem addRecord_keeps_writes (record : Entries) :
    Keeps (CatalogState.Writes config disk)
      ((embedded config router schema collection serviceName).addRecord record) := by
  have hcalls := writes_keptByCalls config disk
  refine (Keeps.ofExcept _).bind fun _ => (onClock_keeps _).bind fun parts => ?_
  refine (onMotors_keeps (hcalls.insert _ _)).bind fun _ => ?_
  exact (onDocuments_keeps _).bind fun _ => Keeps.ofExcept _

/-- An edit does so too. -/
theorem editRecord_keeps_writes (edit : Entries) :
    Keeps (CatalogState.Writes config disk)
      ((embedded config router schema collection serviceName).editRecord edit) := by
  have hcalls := writes_keptByCalls config disk
  have hstored : ∀ sid, Keeps (CatalogState.Writes config disk)
      ((embedded config router schema collection serviceName).storedRecord sid) := fun sid =>
    (onDocuments_keeps _).bind fun _ => (Keeps.ofExcept _).bind fun _ =>
      (onMotors_keeps (hcalls.bySids _)).bind fun _ => Keeps.ofExcept _
  have happly : ∀ sid lookup, Keeps (CatalogState.Writes config disk)
      ((embedded config router schema collection serviceName).applyEdit sid lookup edit) := by
    intro sid lookup
    refine (hstored sid).bind fun stored => (Keeps.ofExcept _).bind fun record =>
      (Keeps.ofExcept _).bind fun _ => ?_
    have hfinish : Keeps (CatalogState.Writes config disk) (do
        let _ ← onDocuments (Collections.store.upsert collection [(sidKey, sid)]
          [("$set", .map (record.erase motorsKey))])
        Action.ofExcept (checkKeys edit)
        return record) :=
      (onDocuments_keeps _).bind fun _ => (Keeps.ofExcept _).bind fun _ => Keeps.pure record
    split
    · exact (onMotors_keeps (hcalls.replaceMotors _ _)).bind fun _ => hfinish
    · exact hfinish
  refine (Keeps.ofExcept _).bind fun lookup => (onDocuments_keeps _).bind fun found => ?_
  split
  · exact Keeps.fail _
  · exact (onDocuments_keeps _).bind fun _ => (Keeps.ofExcept _).bind fun document =>
      (Keeps.ofExcept _).bind fun sid => happly sid lookup

/-! ### What calls leave -/

/-- What is written while documents and tables stay as they have to be, can be opened again. -/
theorem serves_of_writes (hs : state.Serves config collection)
    (hwrites : state'.Writes config state.motors.server.disk)
    (hkeyed : state'.Keyed collection) : state'.Serves config collection :=
  ⟨.of_writes hs.motors.lasting hwrites hkeyed.shows, hkeyed.keyed⟩

/-- A service that connects finds what others left. -/
theorem connect_serves (hdisk : state.motors.server.disk.Lasting config)
    (hkeyed : Entries.Keyed (state.documents.documents collection))
    (hserves : state.motors.connected = true → state.motors.Serves config)
    (hrun : (embedded config router schema collection serviceName).connect.run state =
      (.ok (), state')) : state'.Serves config collection := by
  obtain ⟨_, _, hmotors, hrun⟩ := run_bind_eq_ok.mp hrun
  obtain ⟨session, hsession, rfl⟩ := run_zoom_eq hmotors
  have hrun : ((.ok (), { state with
      motors := session
      documents := state.documents.put collection (state.documents.documents collection) }) :
        Except Fault Unit × CatalogState TableServer Collections) = (.ok (), state') := hrun
  cases hrun
  refine ⟨?_, (Collections.documents_put _ _ _).symm ▸ hkeyed⟩
  obtain ⟨⟨connected, disk, connection⟩, documents, clock⟩ := state
  cases connected with
  | true =>
    have hconnect : (onTables config).connect.run ⟨true, disk, connection⟩ =
        (.ok (), ⟨true, disk, connection⟩) := by
      rw [connect_run, if_pos rfl]
    cases hconnect.symm.trans hsession
    exact hserves rfl
  | false => exact MotorStore.connect_serves hdisk hsession

theorem addRecord_serves {record : Entries} (hs : state.Serves config collection)
    (hjson : (Value.map record).IsJson) {outcome : Except Fault Entries}
    (hrun : ((embedded config router schema collection serviceName).addRecord record).run state =
      (outcome, state')) : state'.Serves config collection :=
  serves_of_writes hs ((addRecord_keeps_writes record).of_run hs.motors.writes hrun)
    (addRecord_keyed hs.isKeyed hjson.texts hjson.distinctKeys hrun)

theorem editRecord_serves {edit : Entries} (hs : state.Serves config collection)
    (hjson : (Value.map edit).IsJson) {outcome : Except Fault Entries}
    (hrun : ((embedded config router schema collection serviceName).editRecord edit).run state =
      (outcome, state')) : state'.Serves config collection :=
  serves_of_writes hs ((editRecord_keeps_writes edit).of_run hs.motors.writes hrun)
    (editRecord_keyed hs.isKeyed hjson.texts hrun)

/-- A call that adds the records of a body. -/
theorem add_serves {body : Value} (hs : state.Serves config collection) (hbody : body.IsBody)
    {outcome : Except Fault BatchResult}
    (hrun : ((embedded config router schema collection serviceName).add body).run state =
      (outcome, state')) : state'.Serves config collection := by
  obtain ⟨_, hserves⟩ := call_keeps (n := 0)
    (fun _ (s : CatalogState TableServer Collections) => s.Serves config collection) hs
    (fun _ hdecoded r hr _ _ _ _ ht hadd =>
      addRecord_serves ht (isJson_of_decodeRecords hbody hdecoded r hr) hadd) hrun
  exact hserves

/-- A call that makes the edits of a body. -/
theorem edit_serves {body : Value} (hs : state.Serves config collection) (hbody : body.IsBody)
    {outcome : Except Fault BatchResult}
    (hrun : ((embedded config router schema collection serviceName).edit body).run state =
      (outcome, state')) : state'.Serves config collection := by
  obtain ⟨_, hserves⟩ := call_keeps (n := 0)
    (fun _ (s : CatalogState TableServer Collections) => s.Serves config collection) hs
    (fun _ hdecoded r hr _ _ _ _ ht hedit =>
      editRecord_serves ht (isJson_of_decodeRecords hbody hdecoded r hr) hedit) hrun
  exact hserves

/-- Documents that are asked for stay, and so do the tables. -/
theorem documents_keeps (query : Entries) (offset limit : Int)
    (property : CatalogState TableServer Collections → Prop) :
    Keeps property ((embedded config router schema collection serviceName).documents query offset
      limit) := by
  intro state hs
  rw [documents_run]
  exact hs

theorem onMotors_keeps_serves {α : Type} {action : Action (Session TableServer) α}
    (h : Keeps (Session.Serves config) action) :
    Keeps (CatalogState.Serves config collection) (onMotors action) :=
  fun state hs => ⟨h state.motors hs.motors, hs.keyed⟩

theorem searchExpression_keeps_serves (expression : Entries) (offset limit : Int) :
    Keeps (CatalogState.Serves config collection)
      ((embedded config router schema collection serviceName).searchExpression expression offset
        limit) := by
  refine (Keeps.ofExcept _).bind fun routed => ?_
  have hmotors : Keeps (CatalogState.Serves config collection)
      ((embedded config router schema collection serviceName).motorRecords routed.sql) :=
    (Keeps.ofExcept _).bind fun _ => onMotors_keeps_serves (Session.fetch_keeps_serves rfl _)
  unfold searchRouted
  dsimp only
  split
  · exact (documents_keeps _ _ _ _).bind fun _ =>
      (onMotors_keeps_serves (Session.bySids_keeps_serves _)).bind fun _ => Keeps.ofExcept _
  · exact (documents_keeps _ _ _ _).bind fun _ =>
      (onMotors_keeps_serves (Session.bySids_keeps_serves _)).bind fun _ => Keeps.ofExcept _
  · refine hmotors.bind fun found => ?_
    split
    · exact Keeps.pure _
    · exact (documents_keeps _ _ _ _).bind fun _ => Keeps.ofExcept _
  · exact hmotors.bind fun _ => (documents_keeps _ _ _ _).bind fun _ => Keeps.ofExcept _

/-- A search, answered or not. -/
theorem search_keeps_serves (query : Value) (offset limit : Int) :
    Keeps (CatalogState.Serves config collection)
      ((embedded config router schema collection serviceName).search query offset limit) := by
  unfold Catalog.search
  split
  · exact Keeps.fail _
  · exact (Keeps.ofExcept _).bind fun _ => searchExpression_keeps_serves _ _ _

/-- A count, answered or not. -/
theorem count_keeps_serves (query : Value) :
    Keeps (CatalogState.Serves config collection)
      ((embedded config router schema collection serviceName).count query) := by
  refine (Keeps.ofExcept _).bind fun expression => (Keeps.ofExcept _).bind fun routed => ?_
  have hcount : Keeps (CatalogState.Serves config collection)
      (onDocuments ((embedded config router schema collection serviceName).documentStore.count
        (embedded config router schema collection serviceName).collection
        routed.mongodb.toDocumentQuery)) := by
    intro state hs
    rw [run_count]
    exact hs
  split
  · exact hcount
  · exact hcount
  · exact (searchExpression_keeps_serves _ _ _).bind fun _ => Keeps.pure _
  · exact (searchExpression_keeps_serves _ _ _).bind fun _ => Keeps.pure _

end Catalog

/-! ### Histories -/

/-- A catalog by its history from empty stores: services connect to it, are called, and leave it
to the next one, with or without closing it. What they are called with is any value of JSON, and
calls may fail. Of what a service leaves, the tables have what they had at the end of their last
transaction. -/
inductive CatalogState.Served (config : MotorsConfig) (collection : Text) :
    CatalogState TableServer Collections → Prop
  | empty {disk : Disk} (clock : SidClock) (hdisk : disk.databases = []) :
    Served config collection ⟨⟨false, disk, none⟩, {}, clock⟩
  | connected {router : Router} {schema : Schema} {serviceName : Text}
    {state state' : CatalogState TableServer Collections} (hs : Served config collection state)
    (hrun : (embedded config router schema collection serviceName).connect.run state =
      (.ok (), state')) : Served config collection state'
  | added {router : Router} {schema : Schema} {serviceName : Text}
    {state state' : CatalogState TableServer Collections} {body : Value}
    {outcome : Except Fault BatchResult} (hs : Served config collection state)
    (hconnected : state.motors.connected = true) (hbody : body.IsBody)
    (hrun : ((embedded config router schema collection serviceName).add body).run state =
      (outcome, state')) : Served config collection state'
  | edited {router : Router} {schema : Schema} {serviceName : Text}
    {state state' : CatalogState TableServer Collections} {body : Value}
    {outcome : Except Fault BatchResult} (hs : Served config collection state)
    (hconnected : state.motors.connected = true) (hbody : body.IsBody)
    (hrun : ((embedded config router schema collection serviceName).edit body).run state =
      (outcome, state')) : Served config collection state'
  | searched {router : Router} {schema : Schema} {serviceName : Text}
    {state : CatalogState TableServer Collections} (hs : Served config collection state)
    (hconnected : state.motors.connected = true) (query : Value) (idx limit : Int) :
    Served config collection
      (((embedded config router schema collection serviceName).search query idx limit).run state).2
  | counted {router : Router} {schema : Schema} {serviceName : Text}
    {state : CatalogState TableServer Collections} (hs : Served config collection state)
    (hconnected : state.motors.connected = true) (query : Value) :
    Served config collection
      (((embedded config router schema collection serviceName).count query).run state).2
  | left {state : CatalogState TableServer Collections} (hs : Served config collection state)
    (clock : SidClock) :
    Served config collection
      ⟨⟨false, state.motors.server.disk, none⟩, state.documents, clock⟩

namespace CatalogState.Served

variable {config : MotorsConfig} {collection : Text} {state : CatalogState TableServer Collections}

/-- In every history documents have sids, and databases hold something sound; and so do the tables
of a catalog that is connected. -/
theorem rests (hs : Served config collection state) :
    state.motors.server.disk.Lasting config ∧
      Entries.Keyed (state.documents.documents collection) ∧
        (state.motors.connected = true → state.Serves config collection) := by
  have hkept : ∀ {state' : CatalogState TableServer Collections},
      state'.Serves config collection → state'.motors.server.disk.Lasting config ∧
        Entries.Keyed (state'.documents.documents collection) ∧
          (state'.motors.connected = true → state'.Serves config collection) :=
    fun hserves => ⟨hserves.motors.lasting, hserves.keyed, fun _ => hserves⟩
  induction hs with
  | empty _ hdisk => exact ⟨Disk.lasting_of_eq_nil hdisk, ⟨nofun, .nil⟩, nofun⟩
  | connected _ hrun ih =>
    obtain ⟨hdisk, hkeyed, hserves⟩ := ih
    exact hkept (Catalog.connect_serves hdisk hkeyed (fun hconnected =>
      (hserves hconnected).motors) hrun)
  | added _ hconnected hbody hrun ih => exact hkept (add_serves (ih.2.2 hconnected) hbody hrun)
  | edited _ hconnected hbody hrun ih => exact hkept (edit_serves (ih.2.2 hconnected) hbody hrun)
  | searched _ hconnected query idx limit ih =>
    exact hkept (search_keeps_serves query idx limit _ (ih.2.2 hconnected))
  | counted _ hconnected query ih =>
    exact hkept (count_keeps_serves query _ (ih.2.2 hconnected))
  | left _ _ ih => exact ⟨ih.1, ih.2.1, nofun⟩

theorem serves (hs : Served config collection state) (hconnected : state.motors.connected = true) :
    state.Serves config collection := hs.rests.2.2 hconnected

end CatalogState.Served

end ScanCatalog
