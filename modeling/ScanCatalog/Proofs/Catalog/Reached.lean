import ScanCatalog.Proofs.Action.Batch
import ScanCatalog.Proofs.Catalog.Edited
import ScanCatalog.Proofs.Record.Body

/-!
# Catalogs by their history

A catalog that starts from empty stores is given records, to add them or as edits, one after
the other. Whatever becomes of each, the stores agree on the sids: a document and a scan
have each of them once.

## Main definitions

* `CatalogState.Reached`: a catalog by its history.

## Main statements

* `CatalogState.Reached.add`, `CatalogState.Reached.edit`: calls go on with a history;
* `CatalogState.Reached.paired`: documents and scans are in pairs;
* `CatalogState.Reached.sids`: the sids of both stores.
-/

namespace ScanCatalog

open ScanCatalog.Action MotorStore Catalog

variable {config : MotorsConfig} {router : Router} {schema : Schema}
  {collection serviceName : Text} {state state' : CatalogState TableServer Collections} {n : Nat}

/-- A catalog by its history from empty stores, with the number of the records that it was
given: each is added or is an edit, with success or not. -/
inductive CatalogState.Reached (config : MotorsConfig) (router : Router) (schema : Schema)
    (collection serviceName : Text) : Nat → CatalogState TableServer Collections → Prop
  | connected {disk : Disk} (readings : List Int) {state : CatalogState TableServer Collections}
    (hdisk : disk.databases = [])
    (hrun : (embedded config router schema collection serviceName).connect.run
      ⟨⟨false, disk, none⟩, {}, .ofReadings readings⟩ = (.ok (), state)) :
    Reached config router schema collection serviceName 0 state
  | added {n : Nat} {state state' : CatalogState TableServer Collections} {record : Entries}
    {outcome : Except Fault Entries}
    (hs : Reached config router schema collection serviceName n state)
    (hrecord : record.IsRecord)
    (hrun : ((embedded config router schema collection serviceName).addRecord record).run state =
      (outcome, state')) :
    Reached config router schema collection serviceName (n + 1) state'
  | edited {n : Nat} {state state' : CatalogState TableServer Collections} {edit : Entries}
    {outcome : Except Fault Entries}
    (hs : Reached config router schema collection serviceName n state)
    (hedit : edit.IsRecord)
    (hrun : ((embedded config router schema collection serviceName).editRecord edit).run state =
      (outcome, state')) :
    Reached config router schema collection serviceName (n + 1) state'

/-- The stores of a catalog that has just been connected are empty. -/
theorem Catalog.connect_eq_ok {disk : Disk} {readings : List Int} (hdisk : disk.databases = [])
    (hrun : (embedded config router schema collection serviceName).connect.run
      ⟨⟨false, disk, none⟩, {}, .ofReadings readings⟩ = (.ok (), state)) :
    state.Paired collection {} ∧ state.sidClock = .ofReadings readings := by
  obtain ⟨_, _, hmotors, hrun⟩ := run_bind_eq_ok.mp hrun
  obtain ⟨session, hsession, rfl⟩ := run_zoom_eq hmotors
  cases hrun
  refine ⟨⟨connect_shows hdisk hsession, nofun, ?_⟩, rfl⟩
  change List.Forall₂ _ (Collections.documents (Collections.put {} collection []) collection) []
  rw [Collections.documents_put]
  exact .nil

/-- A call adds the records of its body. -/
theorem Catalog.add_run {σ δ : Type} (catalog : Catalog σ δ) {body : Value} {records : List Entries}
    (hdecoded : decodeRecords body = .ok records) (state : CatalogState σ δ) :
    (catalog.add body).run state = (runBatch catalog.addRecord records).run state := by
  unfold Catalog.add
  rw [hdecoded]
  rfl

/-- A call makes the edits of its body. -/
theorem Catalog.edit_run {σ δ : Type} (catalog : Catalog σ δ) {body : Value} {records : List Entries}
    (hdecoded : decodeRecords body = .ok records) (state : CatalogState σ δ) :
    (catalog.edit body).run state = (runBatch catalog.editRecord records).run state := by
  unfold Catalog.edit
  rw [hdecoded]
  rfl

/-- What a task keeps, counted, a call keeps that does the task for each record of a body. A
body that has no records ends the call. -/
theorem Catalog.call_keeps {σ : Type} (property : Nat → σ → Prop)
    {task : Entries → Action σ Entries} {body : Value} {s s' : σ}
    {outcome : Except Fault BatchResult} (hs : property n s)
    (htask : ∀ records, decodeRecords body = .ok records → ∀ r ∈ records, ∀ n s outcome s',
      property n s → (task r).run s = (outcome, s') → property (n + 1) s')
    (hrun : (Action.ofExcept (decodeRecords body) >>= fun records =>
      runBatch task records).run s = (outcome, s')) : ∃ more, property (n + more) s' := by
  cases hdecoded : decodeRecords body with
  | error fault =>
    rw [hdecoded] at hrun
    cases hrun
    exact ⟨0, hs⟩
  | ok records =>
    rw [hdecoded] at hrun
    obtain ⟨_, _, s'', hbatch, hsteps, -, -⟩ := runBatch_steps task records s
    obtain ⟨-, rfl⟩ := Prod.mk.inj (hbatch.symm.trans hrun)
    exact ⟨_, hsteps.keeps (htask records hdecoded) hs⟩

namespace CatalogState.Reached

/-- Documents and scans are in pairs, and the sids are finite within the lifetime of the
clock. -/
theorem paired (hs : Reached config router schema collection serviceName n state) :
    ∃ h, state.Paired collection h ∧ state.sidClock.Within n ∧
      (n < SidClock.lifetime → ∀ s ∈ h.scans, s.sid.isFinite = true) := by
  -- a record takes the clock one step further at most, so the number of records bounds it
  induction hs with
  | connected readings hdisk hrun =>
    obtain ⟨hpaired, hclock⟩ := connect_eq_ok hdisk hrun
    exact ⟨{}, hpaired, hclock ▸ SidClock.ofReadings_within readings, fun _ => nofun⟩
  | @added n state state' record outcome hs hrecord hrun ih =>
    obtain ⟨h, hpaired, hclock, hfinite⟩ := ih
    have hadded := addRecord_cases hpaired hrecord hrun
    obtain ⟨h', hpaired', hscans⟩ := hadded.paired hpaired hrecord
    have hsid : (deriveSid record).run state.sidClock = (((deriveSid record).run state.sidClock).1,
        ((deriveSid record).run state.sidClock).2) := rfl
    obtain ⟨hwithin, hreal⟩ := deriveSid_within hclock hsid
    refine ⟨h', hpaired', ?_, fun hlifetime s hmem => ?_⟩
    · rcases hadded.clock with hsame | hsame
      · exact hsame ▸ hclock.mono (Nat.le_succ n)
      · exact hsame ▸ hwithin
    · rcases hscans s hmem with hmem | ⟨x, hx, hsid⟩
      · exact hfinite (Nat.lt_of_succ_lt hlifetime) s hmem
      · rw [hsid, Binary64.isFinite_dropZeroSign]
        exact (hreal x hx).2 hlifetime
  | @edited n state state' edit outcome hs hedit hrun ih =>
    obtain ⟨h, hpaired, hclock, hfinite⟩ := ih
    have hedited := editRecord_cases hpaired hedit hrun
    obtain ⟨h', hpaired', hscans⟩ := hedited.paired hpaired hedit
    refine ⟨h', hpaired', ?_, fun hlifetime s hmem => ?_⟩
    · exact hedited.clock ▸ hclock.mono (Nat.le_succ n)
    · rw [hscans] at hmem
      exact hfinite (Nat.lt_of_succ_lt hlifetime) s hmem

/-! ### Calls -/

/-- A call that adds the records of a body goes on with the history. -/
theorem add {body : Value} {outcome : Except Fault BatchResult}
    (hs : Reached config router schema collection serviceName n state) (hbody : body.IsBody)
    (hencodable : ∀ records, decodeRecords body = .ok records →
      ∀ r ∈ records, (Entries.get r motorsKey).EncodableKeys)
    (hrun : ((embedded config router schema collection serviceName).add body).run state =
      (outcome, state')) :
    ∃ more, Reached config router schema collection serviceName (n + more) state' :=
  call_keeps (Reached config router schema collection serviceName) hs
    (fun _ hdecoded r hr _ _ _ _ hreached hadd => hreached.added
      (isRecord_of_decodeRecords hbody hdecoded (hencodable _ hdecoded) r hr) hadd) hrun

/-- A call that makes the edits of a body goes on with the history. -/
theorem edit {body : Value} {outcome : Except Fault BatchResult}
    (hs : Reached config router schema collection serviceName n state) (hbody : body.IsBody)
    (hencodable : ∀ edits, decodeRecords body = .ok edits →
      ∀ e ∈ edits, (Entries.get e motorsKey).EncodableKeys)
    (hrun : ((embedded config router schema collection serviceName).edit body).run state =
      (outcome, state')) :
    ∃ more, Reached config router schema collection serviceName (n + more) state' :=
  call_keeps (Reached config router schema collection serviceName) hs
    (fun _ hdecoded r hr _ _ _ _ hreached hedit => hreached.edited
      (isRecord_of_decodeRecords hbody hdecoded (hencodable _ hdecoded) r hr) hedit) hrun

end CatalogState.Reached

/-! ### The sids of both stores -/

/-- Documents that belong to scans have their sids, and no motors. -/
theorem Entries.sids_of_belongsTo {documents : List Entries} {scans : List StoredScan}
    (h : List.Forall₂ Entries.BelongsTo documents scans) :
    ∃ sids : List Binary64,
      documents.map (Entries.get? · sidKey) = sids.map (fun x => some (.float x)) ∧
      scans.map StoredScan.sid = sids.map Binary64.dropZeroSign ∧
      ∀ d ∈ documents, Entries.has d motorsKey = false := by
  induction h with
  | nil => exact ⟨[], rfl, rfl, nofun⟩
  | cons hbelongs _ ih =>
    obtain ⟨sids, hdocuments, hscans, hmotors⟩ := ih
    obtain ⟨x, hx, hsid⟩ := hbelongs
    refine ⟨x :: sids, ?_, ?_, List.forall_mem_cons.mpr ⟨hx.motors, hmotors⟩⟩
    · rw [List.map_cons, hdocuments, hx.sid, List.map_cons]
    · rw [List.map_cons, hscans, hsid, List.map_cons]

/-- After every record, both stores have the same sids, each once: a document and a scan for
each, in the same order. The sids are numbers, and finite ones unless a clock has gone through
its lifetime; the tables keep a zero without its sign. No document has motors. -/
theorem CatalogState.Reached.sids
    (hs : Reached config router schema collection serviceName n state) :
    ∃ sids : List Binary64,
      (state.documents.documents collection).map (Entries.get? · sidKey) =
        sids.map (fun x => some (.float x)) ∧
      state.motors.records.map MotorRecord.sid = sids.map (fun x => .float x.dropZeroSign) ∧
      (sids.Pairwise fun x y => x.same y = false) ∧
      (∀ x ∈ sids, x.same x = true) ∧
      (n < SidClock.lifetime → ∀ x ∈ sids, x.isFinite = true) ∧
      ∀ d ∈ state.documents.documents collection, Entries.has d motorsKey = false := by
  obtain ⟨h, hpaired, -, hfinite⟩ := hs.paired
  obtain ⟨sids, hdocuments, hscans, hmotors⟩ := Entries.sids_of_belongsTo hpaired.belong
  have hsound := hpaired.shows.sound
  have hscan : ∀ x ∈ sids, ∃ s ∈ h.scans, s.sid = x.dropZeroSign := by
    intro x hx
    have hmem : x.dropZeroSign ∈ h.scans.map StoredScan.sid := by
      rw [hscans]
      exact List.mem_map_of_mem hx
    exact List.mem_map.mp hmem
  refine ⟨sids, hdocuments, ?_, ?_, fun x hx => ?_, fun hlifetime x hx => ?_, hmotors⟩
  · rw [hpaired.shows.records]
    have hsids := congrArg (List.map Value.float) hscans
    rw [List.map_map, List.map_map] at hsids
    unfold Holdings.records
    rw [List.map_map]
    exact hsids
  · have hdistinct : (h.scans.map StoredScan.sid).Pairwise fun x y => x.same y = false :=
      List.pairwise_map.mpr hsound.sids
    rw [hscans, List.pairwise_map] at hdistinct
    refine hdistinct.imp fun {x y} hxy => ?_
    rwa [Binary64.same_dropZeroSign, Binary64.dropZeroSign_same] at hxy
  · obtain ⟨s, hmem, hsid⟩ := hscan x hx
    exact (hsound.same_of_sid hmem hsid).2
  · obtain ⟨s, hmem, hsid⟩ := hscan x hx
    have hx := hfinite hlifetime s hmem
    rwa [hsid, Binary64.isFinite_dropZeroSign] at hx

/-! ### A catalog with one record -/

namespace Catalog

/-- A catalog that is kept in memory. -/
def inMemory : Catalog TableServer Collections :=
  embedded .inMemory builtInRouter .empty "scans" "SpecScans"

/-- The catalog before it is connected. -/
def unconnected : CatalogState TableServer Collections :=
  ⟨⟨false, .inMemory⟩, {}, .ofReadings []⟩

/-- The catalog when it is connected. -/
def fresh : CatalogState TableServer Collections := (inMemory.connect.run unconnected).2

/-- A record of a scan at zero with a motor. -/
def oneRecord : Entries := [(startTimeKey, .float .zero), (motorsKey, .map [("b", .float .zero)])]

/-- The catalog with that record. -/
def withRecord : CatalogState TableServer Collections :=
  ((inMemory.addRecord oneRecord).run fresh).2

theorem fresh_reached :
    fresh.Reached .inMemory builtInRouter .empty "scans" "SpecScans" 0 := by
  have hrun : (inMemory.connect.run unconnected).1 = .ok () := by decide
  exact .connected [] rfl (run_eq_of_fst hrun)

theorem oneRecord_isJson : (Value.map oneRecord).IsJson := by
  have hmotors : (Value.map [("b", .float .zero)]).IsJson :=
    .map (List.forall_mem_singleton.mpr ⟨"b", rfl⟩) (List.pairwise_singleton _ _)
      (List.forall_mem_singleton.mpr (.float _))
  refine .map (List.forall_mem_cons.mpr ⟨⟨"start_time", rfl⟩, ?_⟩) ?_
    (List.forall_mem_cons.mpr ⟨.float _, List.forall_mem_singleton.mpr hmotors⟩)
  · exact List.forall_mem_singleton.mpr ⟨"motors", rfl⟩
  · unfold Entries.Distinct
    decide

theorem oneRecord_isRecord : oneRecord.IsRecord where
  texts := oneRecord_isJson.texts
  distinct := oneRecord_isJson.distinctKeys
  mnemonics := (oneRecord_isJson.get "motors").distinctKeys
  encodable := by
    intro e he t ht
    rw [List.mem_singleton.mp he] at ht
    cases ht
    decide

theorem withRecord_reached :
    withRecord.Reached .inMemory builtInRouter .empty "scans" "SpecScans" 1 :=
  fresh_reached.added oneRecord_isRecord (run_eq_of_fst rfl)

theorem withRecord_documents : withRecord.documents.documents "scans" =
    [[(startTimeKey, .float .zero), (sidKey, .float .zero)]] := by decide

theorem withRecord_records : withRecord.motors.records =
    [⟨.float .zero, [("b", .float .zero)]⟩] := by decide +kernel

end Catalog

theorem CatalogState.Reached.sids_withRecord :
    ∃ sids : List Binary64,
      [some (Value.float .zero)] = sids.map (fun x => some (.float x)) ∧
      [Value.float .zero] = sids.map (fun x => .float x.dropZeroSign) ∧
      (sids.Pairwise fun x y => x.same y = false) ∧
      (∀ x ∈ sids, x.same x = true) ∧
      (∀ x ∈ sids, x.isFinite = true) ∧
      ∀ d ∈ withRecord.documents.documents "scans", Entries.has d motorsKey = false := by
  obtain ⟨sids, hdocuments, hrecords, hdistinct, hreal, hfinite, hmotors⟩ :=
    CatalogState.Reached.sids withRecord_reached
  rw [withRecord_documents] at hdocuments
  rw [withRecord_records] at hrecords
  exact ⟨sids, hdocuments, hrecords, hdistinct, hreal, hfinite (by decide), hmotors⟩

end ScanCatalog
