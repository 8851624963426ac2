import ScanCatalog.Proofs.Catalog.Reached

/-!
# Additions in batches

Each record of a batch is stored in both stores or in neither, whatever became of those before
it. The result of the batch tells them apart.

## Main definitions

* `Entries.motorTotal`: the motors of a batch, for which there has to be room;
* `CatalogState.AddsRecord`: what adding a record does.

## Main statements

* `Catalog.Added.addsRecord`: the step of one record;
* `CatalogState.Reached.addsAll`: the steps of all;
* `CatalogState.Reached.adds_batch`: the batch of a body.
-/

namespace ScanCatalog

open ScanCatalog.Action MotorStore Catalog

variable {config : MotorsConfig} {router : Router} {schema : Schema}
  {collection serviceName : Text} {state state' : CatalogState TableServer Collections} {n : Nat}
  {h : Holdings} {record : Entries} {outcome : Except Fault Entries}

/-- The number of motors of some records together. -/
def Entries.motorTotal : List Entries → Nat
  | [] => 0
  | record :: rest => record.motorCount + motorTotal rest

/-- What adding a record does. The record is stored if it passes the checks, can be split, and
no scan has its sid yet: its document and its scan come after all others. Else neither store
changes. -/
structure CatalogState.AddsRecord (schema : Schema) (collection : Text)
    (state : CatalogState TableServer Collections) (record : Entries)
    (outcome : Except Fault Entries) (state' : CatalogState TableServer Collections) : Prop where
  succeeds : outcome.isOk = true ↔
    schema.validate (.map record) = .ok () ∧ ∃ x document motors,
      ((decompose record).run state.sidClock).1 = .ok (document, ⟨.float x, motors⟩) ∧
      ∀ r ∈ state.motors.records, r.sid.same (.float x) = false
  stored : ∀ completed, outcome = .ok completed → ∃ x motors,
    (decompose record).run state.sidClock =
      (.ok (documentOf record x, ⟨.float x, motors⟩), state'.sidClock) ∧
    completed = (documentOf record x).set motorsKey (.map motors) ∧
    state'.documents.documents collection =
      state.documents.documents collection ++ [documentOf record x] ∧
    state'.motors.records =
      state.motors.records ++ [⟨.float x.dropZeroSign, record.storedMotors⟩]
  failed : ∀ fault, outcome = .error fault →
    state'.documents = state.documents ∧ state'.motors.records = state.motors.records

theorem Entries.length_storedMotors (record : Entries) :
    record.storedMotors.length = record.motorCount := List.length_map _

namespace Catalog

/-- A record for which there is room is added as it should be. -/
theorem Added.addsRecord (hs : state.Paired collection h) (hclock : state.sidClock.Within n)
    (hroom : state.motors.HasRoom 1 record.motorCount)
    (hadded : Added schema collection state h record outcome state') :
    state.AddsRecord schema collection record outcome state' := by
  have hrecords := hs.shows.records
  obtain ⟨hscans, hmotors⟩ := hs.shows.hasRoom_iff.mp hroom
  cases hadded with
  | @stored _ x ps hvalid hsid hsplit hstored hnew hdocuments hshows =>
    have hdecompose : (decompose record).run state.sidClock =
        (.ok (documentOf record x, ⟨.float x, ps.toEntries⟩), state'.sidClock) :=
      decompose_eq_ok.mpr ⟨x, _, hsid, hsplit, rfl, rfl⟩
    refine ⟨⟨fun _ => ⟨hvalid, x, _, _, congrArg Prod.fst hdecompose, ?_⟩, fun _ => rfl⟩,
      fun completed hcompleted => ?_, nofun⟩
    · rw [hrecords]
      exact h.records_same_eq_false.mpr hnew
    · cases hcompleted
      refine ⟨x, _, hdecompose, rfl, hdocuments, ?_⟩
      rw [hshows.records, hs.shows.sound.records_insert, hrecords, hstored]
  | failed hnot _ hdocuments hshows =>
    refine ⟨⟨nofun, ?_⟩, nofun, fun _ _ => ⟨hdocuments, ?_⟩⟩
    · rintro ⟨hvalid, x, _, _, hdecompose, hnew⟩
      obtain ⟨y, _, hsid, -, -, heq⟩ := decompose_eq_ok.mp (run_eq_of_fst hdecompose)
      cases heq
      have hreal := ((deriveSid_within hclock hsid).2 x rfl).1
      rw [hrecords, h.records_same_eq_false] at hnew
      exact absurd ⟨hvalid, congrArg Prod.fst hsid, ⟨hscans, hreal, hnew⟩, hmotors⟩ (hnot x)
    · rw [hshows.records, hrecords]

/-- What room a record leaves. -/
theorem Added.hasRoom (hs : state.Paired collection h) {scans motors : Nat}
    (hroom : state.motors.HasRoom (scans + 1) (record.motorCount + motors))
    (hadded : Added schema collection state h record outcome state') :
    state'.motors.HasRoom scans motors := by
  obtain ⟨hscans, hmotors⟩ := hs.shows.hasRoom_iff.mp hroom
  cases hadded with
  | @stored _ x ps _ _ _ hstored _ _ hshows =>
    have hlength : ps.length = record.motorCount := by
      rw [← Entries.length_storedMotors, ← hstored, Positions.toEntries, Positions.stored,
        List.length_map, List.length_map]
    refine hshows.hasRoom_iff.mpr ⟨?_, ?_⟩
    · rw [Holdings.lastScan_addMotors]
      change h.lastScan + 1 + scans ≤ _
      omega
    · rw [Holdings.lastMotor_addMotors, hlength]
      change h.lastMotor + record.motorCount + motors ≤ _
      omega
  | failed _ _ _ hshows => exact hshows.hasRoom_iff.mpr ⟨by omega, by omega⟩

end Catalog

/-- The records of a batch are added one after the other. -/
theorem CatalogState.Reached.addsAll {records : List Entries}
    {outcomes : List (Except Fault Entries)}
    (hsteps : Steps (Action.Step (embedded config router schema collection serviceName).addRecord)
      state records outcomes state')
    (hs : state.Reached config router schema collection serviceName n)
    (hrecords : ∀ r ∈ records, Entries.IsRecord r)
    (hroom : state.motors.HasRoom records.length (Entries.motorTotal records)) :
    Steps (AddsRecord schema collection) state records outcomes state' := by
  -- what room the first record leaves is enough for the others, whether it is stored or not
  induction hsteps generalizing n with
  | nil s => exact .nil s
  | cons hstep _ ih =>
    obtain ⟨hrecord, hrest⟩ := List.forall_mem_cons.mp hrecords
    obtain ⟨h, hpaired, hclock, -⟩ := hs.paired
    have hadded := addRecord_cases hpaired hrecord hstep
    rw [List.length_cons, Entries.motorTotal] at hroom
    have hfirst := hadded.addsRecord hpaired hclock
      ⟨by have := hroom.scans; omega, by have := hroom.motors; omega⟩
    exact .cons hfirst (ih (hs.added hrecord hstep) hrest (hadded.hasRoom hpaired hroom))

/-- A call adds the records of its body in order, each as it should be. Its result has the
records that were stored, as they were completed, and the positions of the others. -/
theorem CatalogState.Reached.adds_batch
    (hs : state.Reached config router schema collection serviceName n) {body : Value}
    {records : List Entries} (hbody : body.IsBody) (hdecoded : decodeRecords body = .ok records)
    (hencodable : ∀ r ∈ records, (Entries.get r motorsKey).EncodableKeys)
    (hroom : state.motors.HasRoom records.length (Entries.motorTotal records)) :
    ∃ result outcomes state',
      ((embedded config router schema collection serviceName).add body).run state =
        (.ok result, state') ∧
      Steps (AddsRecord schema collection) state records outcomes state' ∧
      result.records = outcomes.filterMap Except.toOption ∧
      result.errors.map (·.index) =
        (outcomes.findIdxs fun outcome => !outcome.isOk).map Int.ofNat := by
  obtain ⟨result, outcomes, state', hrun, hsteps, hresult⟩ :=
    runBatch_steps (embedded config router schema collection serviceName).addRecord records state
  have hrecords := isRecord_of_decodeRecords hbody hdecoded hencodable
  refine ⟨result, outcomes, state', ?_, addsAll hsteps hs hrecords hroom, hresult⟩
  unfold Catalog.add
  rw [hdecoded]
  exact hrun

namespace Catalog

/-- A body with a record that comes again. -/
def repeatedRecord : Value := .list [.map oneRecord, .map oneRecord]

theorem repeatedRecord_isBody : repeatedRecord.IsBody :=
  .list (List.forall_mem_cons.mpr
    ⟨oneRecord_isJson, List.forall_mem_singleton.mpr oneRecord_isJson⟩)

theorem repeatedRecord_errors :
    ((inMemory.add repeatedRecord).run fresh).1.map (fun result =>
      result.errors.map (·.index)) = .ok [1] := by
  decide +kernel

end Catalog

theorem CatalogState.Reached.adds_batch_repeatedRecord :
    ∃ outcomes state',
      Steps (AddsRecord .empty "scans") fresh [oneRecord, oneRecord] outcomes state' ∧
      (outcomes.findIdxs fun outcome => !outcome.isOk).map Int.ofNat = [1] := by
  have hdecoded : decodeRecords repeatedRecord = .ok [oneRecord, oneRecord] := rfl
  have hencodable : ∀ r ∈ [oneRecord, oneRecord], (Entries.get r motorsKey).EncodableKeys :=
    List.forall_mem_cons.mpr ⟨oneRecord_isRecord.encodable,
      List.forall_mem_singleton.mpr oneRecord_isRecord.encodable⟩
  have hroom : fresh.motors.HasRoom 2 2 := ⟨by decide, by decide⟩
  obtain ⟨result, outcomes, state', hrun, hsteps, -, herrors⟩ :=
    CatalogState.Reached.adds_batch fresh_reached repeatedRecord_isBody hdecoded hencodable hroom
  refine ⟨outcomes, state', hsteps, herrors.symm.trans ?_⟩
  have hresult : (Except.ok result : Except Fault BatchResult) =
      ((inMemory.add repeatedRecord).run fresh).1 := congrArg Prod.fst hrun.symm
  have hindices := repeatedRecord_errors
  rw [← hresult] at hindices
  exact Except.ok.inj hindices

end ScanCatalog
