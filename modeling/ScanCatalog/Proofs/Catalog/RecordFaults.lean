import ScanCatalog.Proofs.Catalog.Keyed
import ScanCatalog.Proofs.Document.Faults
import ScanCatalog.Proofs.Motor.Faults
import ScanCatalog.Proofs.Record.Faults

/-!
# Why records and edits fail

A record passes several checks on its way into both stores, each of which trusts those before
it. What they refuse is reported, but not everything is refused: an integer that is too large
for a binary64 number stops a check, a mnemonic without a UTF-8 form stops the store of the
motors, and an edit can name its record by an operator that its argument stops.

## Main definitions

* `Catalog.AddCause`, `Catalog.EditCause`: why a record or an edit fails.

## Main statements

* `Catalog.addRecord_cause`, `Catalog.editRecord_cause`: one record, one edit;
* `CatalogState.Arises.errors_caused`: all of a call.
-/

namespace ScanCatalog

open ScanCatalog.Action MotorStore Catalog

/-- A position of a motor that changes made too large is one of the changes. -/
theorem Value.HasTooLargePosition.of_update {ps : Positions} {changes : Entries}
    (hdistinct : ps.toEntries.Distinct) (hchanges : changes.Distinct)
    (h : (Value.map (ps.toEntries.update changes)).HasTooLargePosition) :
    (Value.map changes).HasTooLargePosition := by
  obtain ⟨t, position, hmem, hempty, htoo⟩ := h
  have hget := (hdistinct.update changes).get?_eq_some_iff.mpr hmem
  rw [Entries.get?_update _ hchanges] at hget
  cases hchange : changes.get? (.text t) with
  | some v =>
    rw [hchange] at hget
    obtain rfl := Option.some.inj hget
    exact ⟨t, v, Entries.get?_eq_some_mem hchange, hempty, htoo⟩
  | none =>
    -- positions that are stored are numbers already
    rw [hchange] at hget
    obtain ⟨p, -, hp⟩ := List.mem_map.mp (Entries.get?_eq_some_mem hget)
    obtain ⟨i, rfl, -⟩ := htoo
    cases hp

/-- A mnemonic that has no UTF-8 form after changes is one of the changes. -/
theorem Value.EncodableKeys.update {ps : Positions} {changes : Entries} (hps : ps.Encodable)
    (hchanges : (Value.map changes).EncodableKeys) :
    (Value.map (ps.toEntries.update changes)).EncodableKeys := by
  intro e he t ht
  have hkey : e.1 ∈ (ps.toEntries.update changes).keys := List.mem_map_of_mem he
  rcases Entries.mem_keys_update hkey with hkey | hkey
  · rw [Positions.keys_toEntries] at hkey
    obtain ⟨p, hp, hpt⟩ := List.mem_map.mp hkey
    exact Value.text.inj (hpt.trans ht) ▸ hps p hp
  · obtain ⟨e', he', hkey⟩ := List.mem_map.mp hkey
    exact hchanges e' he' t (hkey.trans ht)

theorem decompose_eq_error {record : Entries} {clock clock' : SidClock} {fault : Fault}
    (h : (decompose record).run clock = (.error fault, clock')) :
    (deriveSid record).run clock = (.error fault, clock') ∨ motorsOf record = .error fault := by
  rcases run_bind_cases h with ⟨cause, hsid, heq⟩ | ⟨x, t, -, h⟩
  · cases heq
    exact .inl hsid
  · rcases run_bind_cases h with ⟨cause, hmotors, heq⟩ | ⟨motors, u, -, h⟩
    · cases heq
      exact .inr (run_ofExcept_eq hmotors).1
    · cases h

namespace Catalog

variable {config : MotorsConfig} {router : Router} {schema : Schema}
  {collection serviceName : Text} {state state' : CatalogState TableServer Collections}
  {h k : Holdings} {record edit lookup document : Entries} {x : Binary64} {fault : Fault}

/-! ### Adding -/

/-- Why a record that is added fails: what is wrong is reported, or a position, the start time or
a reading of the clock is too large for a binary64 number, or a mnemonic has no UTF-8 form. -/
inductive AddCause (state : CatalogState TableServer Collections) (record : Entries) :
    Fault → Prop
  | reported {fault : Fault} (h : fault.isReported = true) : AddCause state record fault
  | position (h : (record.get motorsKey).HasTooLargePosition) :
    AddCause state record (.value .intTooLarge)
  | startTime (h : (record.get startTimeKey).IsTooLarge) :
    AddCause state record (.value .intTooLarge)
  | reading (h : SidClock.seconds state.sidClock.clock.read.1 = .error .intTooLarge) :
    AddCause state record (.value .intTooLarge)
  | mnemonic {fault : EncodeFault} (h : ¬ (record.get motorsKey).EncodableKeys) :
    AddCause state record (.value (.notEncodable fault))

/-- A document that cannot be stored after its scan is reported. -/
theorem insertDocument_eq_error {motors : Entries} {t : CatalogState TableServer Collections}
    (hrun : (insertDocument collection record x motors).run t = (.error fault, state'))
    (hkeyed : Entries.Keyed (t.documents.documents collection)) (htexts : record.TextKeys)
    (hdistinct : record.Distinct) (hreal : x.same x = true) : fault.isReported = true := by
  have hget := (Entries.documentOf_isDocument htexts hdistinct x).get
  rcases run_bind_cases hrun with ⟨cause, hdocument, heq⟩ | ⟨_, _, hdocument, hrun⟩
  · cases heq
    obtain ⟨documents, hstore, -⟩ := run_zoom_eq hdocument
    rw [Collections.insert_eq_error (fun d hd => hkeyed.isHashable hd) (by rw [hget]; rfl) hstore]
    rfl
  · obtain ⟨hcomplete, -⟩ := run_ofExcept_eq hrun
    unfold complete at hcomplete
    rw [hget] at hcomplete
    dsimp only at hcomplete
    rw [Value.same_float, if_pos hreal] at hcomplete
    cases hcomplete

/-- A record that is added fails for one of these causes. -/
theorem addRecord_cause (hs : state.Keyed collection) (hjson : (Value.map record).IsJson)
    (hrun : ((embedded config router schema collection serviceName).addRecord record).run state =
      (.error fault, state')) : AddCause state record fault := by
  obtain ⟨⟨h, k, hshows⟩, hkeyed⟩ := hs
  rcases run_bind_cases hrun with ⟨cause, hvalidate, heq⟩ | ⟨_, _, hvalidate, hrun⟩
  · cases heq
    obtain ⟨hinvalid, -⟩ := run_ofExcept_eq hvalidate
    rcases Schema.validate_eq_error hinvalid with ⟨problems, rfl⟩ | ⟨rfl, htoo⟩
    · exact .reported rfl
    · exact .position htoo
  obtain ⟨hvalid, rfl⟩ := run_ofExcept_eq hvalidate
  obtain ⟨ps, hmotors, hcheck, hchecked⟩ :=
    Schema.positions_of_validate hvalid (hjson.get "motors").distinctKeys
  rcases run_bind_cases hrun with ⟨cause, hsplit, heq⟩ | ⟨⟨document, motorRecord⟩, _, hsplit, hrun⟩
  · cases heq
    obtain ⟨clock, hclock, rfl⟩ := run_zoom_eq hsplit
    rcases decompose_eq_error hclock with hsid | hfault
    · obtain ⟨rfl, htoo | hreading⟩ := deriveSid_eq_error hsid
      · exact .startTime htoo
      · exact .reading hreading
    · cases hfault.symm.trans hmotors
  obtain ⟨clock, hclock, rfl⟩ := run_zoom_eq hsplit
  obtain ⟨x, motors, hsid, hmotors', rfl, rfl⟩ := decompose_eq_ok.mp hclock
  obtain rfl := Except.ok.inj (hmotors'.symm.trans hmotors)
  have hvalidPositions : ps.Valid :=
    Positions.valid_of_checkMotors hcheck (hjson.get "motors").distinctKeys
  rcases run_bind_cases hrun with ⟨cause, hinsert, heq⟩ | ⟨_, _, hinsert, hrun⟩
  · cases heq
    obtain ⟨session, hsession, rfl⟩ := run_zoom_eq hinsert
    rcases hshows.insert_eq_error hvalidPositions.distinctKeys hchecked x hsession with
      hreported | ⟨hencoding, hmnemonics⟩
    · exact .reported hreported
    · obtain ⟨cause, rfl⟩ := Fault.eq_of_isEncoding hencoding
      refine .mnemonic fun hencodable => hmnemonics ?_
      exact (Positions.encodable_of_checkMotors hcheck hencodable).encodableKeys
  · obtain ⟨session, hsession, rfl⟩ := run_zoom_eq hinsert
    rcases hshows.insert hvalidPositions.distinctKeys x hsession with
      ⟨_, -, -, -, hshows'⟩ | ⟨_, _, houtcome, -, -⟩
    · have hrun : (insertDocument collection record x ps.toEntries).run
          { state with motors := session, sidClock := clock } = (.error fault, state') := hrun
      exact .reported (insertDocument_eq_error hrun hkeyed hjson.texts hjson.distinctKeys
        (Holdings.same_self_of_addScan hshows'.sound))
    · cases houtcome

/-! ### Editing -/

/-- Why an edit fails: what is wrong is reported, or one of its positions is too large for a
binary64 number, or one of its mnemonics has no UTF-8 form, or a value by which it names its
record asks for a member of what is no list. -/
inductive EditCause (edit : Entries) : Fault → Prop
  | reported {fault : Fault} (h : fault.isReported = true) : EditCause edit fault
  | position (h : (edit.get motorsKey).HasTooLargePosition) : EditCause edit (.value .intTooLarge)
  | mnemonic {fault : EncodeFault} (h : ¬ (edit.get motorsKey).EncodableKeys) :
    EditCause edit (.value (.notEncodable fault))
  | member {lookup : Entries} {fault : ValueFault} (hnames : editLookup edit = .ok lookup)
    (hasks : lookup.AsksIn) (hkind : fault.kind = "TypeError") : EditCause edit (.value fault)

theorem applyChanges_eq_error {changes : Entries} (h : applyChanges record changes = .error fault) :
    ∃ kind, fault = .validation [.motorsNotObject kind] := by
  unfold applyChanges at h
  split at h
  · cases h
  · rcases Outcome.bind_eq_error.mp h with h | ⟨_, -, h⟩
    · unfold mergedMotors at h
      split at h <;> cases h
      exact ⟨_, rfl⟩
    · cases h

/-- An edit of a document fails for its motors, or is reported. -/
theorem applyEdit_cause (hkeyed : Entries.Keyed (state.documents.documents collection))
    (hshows : state.motors.Shows h k) (hjson : (Value.map edit).IsJson)
    (hnames : editLookup edit = .ok lookup)
    (hd : document ∈ state.documents.documents collection) (hx : document.IsDocument x)
    (hrun : ((embedded config router schema collection serviceName).applyEdit (.float x) lookup
      edit).run state = (.error fault, state')) : EditCause edit fault := by
  obtain ⟨ps, session, hstored, hshows', hdistinct, hencodable⟩ :=
    storedRecord_keyed config router schema serviceName hkeyed hshows hd hx
  have hchanges : edit.motorChanges.Distinct := (hjson.get "motors").distinctKeys
  unfold applyEdit at hrun
  rw [run_bind, hstored] at hrun
  dsimp only at hrun
  rcases run_bind_cases hrun with ⟨cause, happlyRun, heq⟩ | ⟨record, _, happlyRun, hrun⟩
  · cases heq
    obtain ⟨kind, rfl⟩ := applyChanges_eq_error (run_ofExcept_eq happlyRun).1
    exact .reported rfl
  obtain ⟨happly, rfl⟩ := run_ofExcept_eq happlyRun
  obtain ⟨-, rfl⟩ := (applyChanges_eq_ok (has_motors_of_editLookup hnames)).mp happly
  rcases run_bind_cases hrun with ⟨cause, hvalidate, heq⟩ | ⟨_, _, hvalidate, hrun⟩
  · cases heq
    rcases Schema.validate_eq_error (run_ofExcept_eq hvalidate).1 with ⟨problems, rfl⟩ | ⟨rfl, htoo⟩
    · exact .reported rfl
    · rw [Entries.get_merged] at htoo
      exact .position (htoo.of_update hdistinct hchanges)
  obtain ⟨hvalid, rfl⟩ := run_ofExcept_eq hvalidate
  have hstore : ∀ {t}, t.documents = state.documents →
      (storeDocument collection x edit (Entries.merged document ps.toEntries lookup edit)).run t ≠
        (.error fault, state') := by
    intro t ht hrun
    cases (storeDocument_run hkeyed hjson.texts hd hx (hkeyed.same_self hd hx) _ ht).symm.trans hrun
  by_cases hmotors : edit.has motorsKey = true
  · rw [if_pos hmotors, Entries.get_merged] at hrun
    rcases run_bind_cases hrun with ⟨cause, hreplace, heq⟩ | ⟨_, _, hreplace, hrun⟩
    · cases heq
      obtain ⟨session, hsession, rfl⟩ := run_zoom_eq hreplace
      obtain ⟨checked, hchecked⟩ := checkMotors_merged hvalid
      have hmerged : (Value.map (ps.toEntries.update edit.motorChanges)).DistinctKeys :=
        hdistinct.update edit.motorChanges
      rcases hshows'.replaceMotors_eq_error hmerged hchecked x hsession with
        hreported | ⟨hencoding, hmnemonics⟩
      · exact .reported hreported
      · obtain ⟨cause, rfl⟩ := Fault.eq_of_isEncoding hencoding
        exact .mnemonic fun hedit => hmnemonics (.update hencodable hedit)
    · obtain ⟨session, -, rfl⟩ := run_zoom_eq hreplace
      exact absurd hrun (hstore rfl)
  · rw [if_neg hmotors] at hrun
    exact absurd hrun (hstore rfl)

theorem editLookup_eq_error (h : editLookup edit = .error fault) :
    fault = .validation [.noTarget] := by
  unfold editLookup at h
  dsimp only at h
  split at h
  · cases h
  · split at h
    · cases h
    · exact (Except.error.inj h).symm

/-- The conditions by which an edit names its record are values of JSON under texts. -/
theorem editLookup_isJson (hjson : (Value.map edit).IsJson) (hnames : editLookup edit = .ok lookup) :
    lookup.TextKeys ∧ ∀ e ∈ lookup, e.2.IsJson := by
  rcases editLookup_eq_ok hnames with rfl | rfl
  · exact ⟨List.forall_mem_singleton.mpr ⟨"sid", rfl⟩,
      List.forall_mem_singleton.mpr (hjson.get "sid")⟩
  · exact ⟨List.forall_mem_cons.mpr ⟨⟨"spec_file", rfl⟩,
        List.forall_mem_singleton.mpr ⟨"scan_number", rfl⟩⟩,
      List.forall_mem_cons.mpr ⟨hjson.get "spec_file",
        List.forall_mem_singleton.mpr (hjson.get "scan_number")⟩⟩

/-- An edit fails for one of these causes. -/
theorem editRecord_cause (hs : state.Keyed collection) (hjson : (Value.map edit).IsJson)
    (hrun : ((embedded config router schema collection serviceName).editRecord edit).run state =
      (.error fault, state')) : EditCause edit fault := by
  obtain ⟨⟨h, k, hshows⟩, hkeyed⟩ := hs
  rcases editRecord_run_cases hkeyed hrun with
    ⟨_, -, -, hnot⟩ | ⟨lookup, document, x, hnames, -, hd, hx, happly⟩
  swap
  · exact applyEdit_cause hkeyed hshows hjson hnames hd hx happly
  rcases run_bind_cases hrun with ⟨cause, hlookup, heq⟩ | ⟨lookup, _, hlookup, hrun⟩
  · cases heq
    rw [editLookup_eq_error (run_ofExcept_eq hlookup).1]
    exact .reported rfl
  obtain ⟨hnames, rfl⟩ := run_ofExcept_eq hlookup
  rw [run_bind, run_count] at hrun
  cases hfound : findDocuments lookup (state.documents.documents collection) with
  | error cause =>
    obtain ⟨htexts, hvalues⟩ := editLookup_isJson hjson hnames
    rw [hfound] at hrun
    cases hrun
    rcases findDocuments_eq_error htexts hvalues hfound with hreported | ⟨hasks, cause, rfl, hkind⟩
    · exact .reported hreported
    · exact .member hnames hasks hkind
  | ok found =>
    have hone : ((found.length : Int) != 1) = true := by
      refine bne_iff_ne.mpr fun hone => ?_
      obtain ⟨document, rfl⟩ := List.length_eq_one_iff.mp (Int.ofNat_inj.mp hone)
      exact hnot lookup document hnames hfound
    rw [hfound] at hrun
    dsimp only [Except.map] at hrun
    rw [if_pos hone] at hrun
    cases hrun
    exact .reported rfl

end Catalog

/-- Every call with records gives a result, in every catalog that arises from empty stores and for
all values of JSON. Its errors are those of the records that failed, and each of them has a cause
in the state in which its record was added or edited. -/
theorem CatalogState.Arises.errors_caused {config : MotorsConfig} {router : Router}
    {schema : Schema} {collection serviceName : Text}
    {state : CatalogState TableServer Collections}
    (hs : Arises config router schema collection serviceName state) {body : Value}
    (hbody : body.IsBody) {records : List Entries} (hdecoded : decodeRecords body = .ok records) :
    (∃ result outcomes state',
        ((embedded config router schema collection serviceName).add body).run state =
          (.ok result, state') ∧
        Steps (Action.CausedStep (embedded config router schema collection serviceName).addRecord
          AddCause) state records outcomes state' ∧
        result.faults = faultsOf outcomes ∧
        result.errors.map (·.text) = (faultsOf outcomes).map Fault.report) ∧
      ∃ result outcomes state',
        ((embedded config router schema collection serviceName).edit body).run state =
          (.ok result, state') ∧
        Steps (Action.CausedStep (embedded config router schema collection serviceName).editRecord
          fun _ => EditCause) state records outcomes state' ∧
        result.faults = faultsOf outcomes ∧
        result.errors.map (·.text) = (faultsOf outcomes).map Fault.report := by
  have hjson := isJson_of_decodeRecords hbody hdecoded
  rw [add_run _ hdecoded, edit_run _ hdecoded]
  refine ⟨runBatch_caused hs ?_, runBatch_caused hs ?_⟩
  · intro record hr s outcome s' hs hstep
    refine ⟨hs.added (hjson record hr).texts (hjson record hr).distinctKeys hstep, ?_⟩
    rintro fault rfl
    exact addRecord_cause hs.keyed (hjson record hr) hstep
  · intro edit he s outcome s' hs hstep
    refine ⟨hs.edited (hjson edit he).texts hstep, ?_⟩
    rintro fault rfl
    exact editRecord_cause hs.keyed (hjson edit he) hstep

namespace Catalog

/-- A record with a motor at an integer that is too large. -/
def farRecord : Entries :=
  [(startTimeKey, .float .zero), (motorsKey, .map [("b", .tooFar)])]

theorem farRecord_isJson : (Value.map farRecord).IsJson := by
  have hmotors : (Value.map [("b", .tooFar)]).IsJson :=
    .map (List.forall_mem_singleton.mpr ⟨"b", rfl⟩) (List.pairwise_singleton _ _)
      (List.forall_mem_singleton.mpr (.int _))
  refine .map (List.forall_mem_cons.mpr ⟨⟨"start_time", rfl⟩, ?_⟩) ?_
    (List.forall_mem_cons.mpr ⟨.float _, List.forall_mem_singleton.mpr hmotors⟩)
  · exact List.forall_mem_singleton.mpr ⟨"motors", rfl⟩
  · unfold Entries.Distinct
    decide

theorem farRecord_faults :
    decodeRecords (.map farRecord) = .ok [farRecord] ∧
      ((inMemory.add (.map farRecord)).run fresh).1.map (·.faults) = .ok [.value .intTooLarge] ∧
      Fault.isReported (.value .intTooLarge) = false := by
  refine ⟨rfl, ?_, rfl⟩
  decide +kernel

end Catalog

/-- There is a cause for the fault of the record. -/
theorem CatalogState.Arises.errors_caused_farRecord :
    ∃ result state', (inMemory.add (.map farRecord)).run fresh = (.ok result, state') ∧
      result.faults = [.value .intTooLarge] ∧ AddCause fresh farRecord (.value .intTooLarge) := by
  have hbody : (Value.map farRecord).IsBody := farRecord_isJson
  obtain ⟨hdecoded, hfaults, -⟩ := farRecord_faults
  obtain ⟨⟨result, outcomes, state', hrun, hsteps, heq, -⟩, -⟩ :=
    CatalogState.Arises.errors_caused fresh_reached.arises hbody hdecoded
  have hfault : result.faults = [.value .intTooLarge] := by
    change ((inMemory.add (.map farRecord)).run fresh) = _ at hrun
    rw [hrun] at hfaults
    exact Except.ok.inj hfaults
  refine ⟨result, state', hrun, hfault, ?_⟩
  rw [hfault] at heq
  cases hsteps with
  | @cons _ _ _ _ _ outcome _ hstep hrest =>
    cases hrest
    cases outcome with
    | ok _ => cases heq
    | error fault =>
      cases heq
      exact hstep.2 _ rfl

/-- The fault is not reported. -/
theorem Catalog.farRecord_unreported :
    fresh.Arises .inMemory builtInRouter .empty "scans" "SpecScans" ∧
      decodeRecords (.map farRecord) = .ok [farRecord] ∧
      ∃ result, ((inMemory.add (.map farRecord)).run fresh).1 = .ok result ∧
        ∃ fault ∈ result.faults, fault.isReported = false := by
  obtain ⟨hdecoded, hfaults, hreported⟩ := farRecord_faults
  obtain ⟨result, hresult, hfault⟩ := Outcome.map_eq_ok.mp hfaults
  exact ⟨fresh_reached.arises, hdecoded, result, hresult, _, hfault ▸ List.mem_singleton_self _,
    hreported⟩

end ScanCatalog
