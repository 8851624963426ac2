import ScanCatalog.Proofs.Catalog.BySid
import ScanCatalog.Proofs.Catalog.Merged
import ScanCatalog.Proofs.Value.Sorting

/-!
# Edited records

An edit finds its record in the documents, reads both of its parts, merges its changes in
and stores both parts again. It changes the one scan and the one document of its record, or
nothing.

## Main definitions

* `Catalog.editedDocuments`, `Catalog.editedRecords`: both stores after an edit;
* `Catalog.EditSteps`: how far an edit of a document gets;
* `Catalog.Edited`: what an edit does.

## Main statements

* `Catalog.applyEdit_steps`: an edit of a document goes so far;
* `Catalog.editRecord_run_cases`: an edit is made of the one document that it names;
* `Catalog.editRecord_cases`: what an edit does, and when it fails;
* `Catalog.Edited.paired`: documents and scans stay in pairs.
-/

namespace ScanCatalog

open ScanCatalog.Action MotorStore

theorem Holdings.lastMotor_addMotors (h : Holdings) (scanId : Nat) (ps : Positions) :
    (h.addMotors scanId ps).lastMotor = h.lastMotor + ps.length := by
  induction ps generalizing h with
  | nil => rfl
  | cons p ps ih =>
    rw [Holdings.addMotors_cons, ih, List.length_cons]
    change h.lastMotor + 1 + ps.length = _
    omega

namespace Catalog

variable {config : MotorsConfig} {router : Router} {schema : Schema}
  {collection serviceName : Text} {state state' : CatalogState TableServer Collections}
  {h : Holdings} {edit lookup document : Entries} {s : StoredScan} {x : Binary64}
  {outcome : Except Fault Entries}

/-- The records with the motors of an edit put into the one of a sid. -/
def editedRecords (sid : Value) (edit : Entries) (records : List MotorRecord) :
    List MotorRecord :=
  records.map fun r =>
    if r.sid.same sid then ⟨r.sid, r.motors.update edit.storedMotors⟩ else r

/-- The documents with changes made in the one of a sid. -/
def editedDocuments (sid : Value) (changes : Entries) (documents : List Entries) : List Entries :=
  documents.map fun d =>
    if (Entries.get d sidKey).same sid then Entries.update d changes else d

/-- Motors that replace those of a scan by the merged ones make the edited records. -/
theorem editedRecords_of_replace (hh : h.Sound) (hmem : s ∈ h.scans)
    (hsame : s.sid.same x = true) {ps : Positions}
    (hps : ps.stored.toEntries = (h.positionsOf s.scanId).toEntries.update edit.storedMotors) :
    ((h.dropMotors s.scanId).addMotors s.scanId ps).records =
      editedRecords (.float x) edit h.records := by
  rw [hh.records_replace hmem hsame]
  refine List.map_congr_left fun r hr => ?_
  obtain ⟨a, ha, rfl⟩ := List.mem_map.mp hr
  by_cases hr : (h.recordOf a).sid.same (.float x) = true
  · rw [if_pos hr, if_pos hr, hps, hh.eq_of_sid ha hmem (Binary64.same_of_same hr hsame)]
    rfl
  · rw [if_neg hr, if_neg hr]

/-- An edit without motors leaves the motor records. -/
theorem editedRecords_of_nil (hnone : edit.storedMotors = []) (sid : Value)
    (records : List MotorRecord) : editedRecords sid edit records = records := by
  unfold editedRecords
  rw [hnone]
  refine (List.map_congr_left fun r _ => ?_).trans (List.map_id' records)
  split <;> rfl

/-! ### Edits -/

/-- An edit that names one document, and whose record passes the checks with the edit merged
in. -/
structure Editable (schema : Schema) (documents : List Entries) (h : Holdings)
    (edit lookup document : Entries) (s : StoredScan) : Prop where
  names : editLookup edit = .ok lookup
  found : findDocuments lookup documents = .ok [document]
  scan : s ∈ h.scans
  belongs : document.BelongsTo s
  mapping : edit.MotorsAreMapping
  valid : schema.validate (.map (Entries.merged document (h.positionsOf s.scanId).toEntries lookup
    edit)) = .ok ()

/-- The merged motors of an edited record fit into the tables. -/
def RoomFor (h : Holdings) (edit : Entries) (s : StoredScan) : Prop :=
  h.lastMotor + ((h.positionsOf s.scanId).toEntries.update edit.motorChanges).length ≤
    Tables.lastNumber

/-- What an edit does. -/
inductive Edited (schema : Schema) (collection : Text)
    (state : CatalogState TableServer Collections) (h : Holdings) (edit : Entries) :
    Except Fault Entries → CatalogState TableServer Collections → Prop
  | stored {state' : CatalogState TableServer Collections} {h' : Holdings}
    {lookup document : Entries} {s : StoredScan} {x : Binary64}
    (heditable : Editable schema (state.documents.documents collection) h edit lookup document s)
    (hdocument : document.IsDocument x)
    (hclock : state'.sidClock = state.sidClock)
    (hdocuments : state'.documents.documents collection =
      editedDocuments (.float x) (Entries.plainChanges lookup edit)
        (state.documents.documents collection))
    (hshows : state'.motors.Shows h' h') (hscans : h'.scans = h.scans) (hunsigned : h'.Unsigned)
    (hrecords : h'.records = editedRecords (.float x) edit h.records)
    (hlast : h'.lastMotor ≤ h.lastMotor +
      ((h.positionsOf s.scanId).toEntries.update edit.motorChanges).length) :
    Edited schema collection state h edit
      (.ok (Entries.merged document (h.positionsOf s.scanId).toEntries lookup edit)) state'
  | failed {state' : CatalogState TableServer Collections} {fault : Fault}
    (hnot : ∀ lookup document s,
      Editable schema (state.documents.documents collection) h edit lookup document s →
        ¬ RoomFor h edit s)
    (hclock : state'.sidClock = state.sidClock)
    (hdocuments : state'.documents = state.documents) (hshows : state'.motors.Shows h h) :
    Edited schema collection state h edit (.error fault) state'

/-- The last steps of an edit: its record is stored in the documents, and given. -/
def storeDocument (collection : Text) (x : Binary64) (edit record : Entries) :
    Action (CatalogState TableServer Collections) Entries := do
  let _ ← onDocuments (Collections.store.upsert collection [(sidKey, .float x)]
    [("$set", .map (record.erase motorsKey))])
  Action.ofExcept (checkKeys edit)
  return record

/-- The document is stored in a state with the documents as they were. -/
theorem storeDocument_run (hs : Entries.Keyed (state.documents.documents collection))
    (hedit : edit.TextKeys)
    (hd : document ∈ state.documents.documents collection) (hx : document.IsDocument x)
    (hreal : x.same x = true) (record : Entries) {t : CatalogState TableServer Collections}
    (ht : t.documents = state.documents) :
    (storeDocument collection x edit record).run t =
      (.ok record, { t with
        documents := state.documents.put collection (editedDocuments (.float x)
          (record.erase motorsKey) (state.documents.documents collection)) }) := by
  have hsatisfies : document.Satisfies [(sidKey, .float x)] := by
    rw [hs.satisfies_iff hd, hx.get]
    exact hreal
  have hupsert := Collections.upsert_run state.documents (record.erase motorsKey) (hs.answers x)
    (hs.satisfies_one x) ⟨document, hd, hsatisfies⟩
  have hdocuments : ((state.documents.documents collection).map fun d =>
      if Entries.Satisfies d [(sidKey, .float x)] then Entries.update d (record.erase motorsKey)
      else d) = editedDocuments (.float x) (record.erase motorsKey)
        (state.documents.documents collection) :=
    List.map_congr_left fun d hd => if_congr (hs.satisfies_iff hd x) rfl rfl
  have hkeys : checkKeys edit = .ok () := by
    have htexts : Value.AreTexts edit.keys := fun k hk => by
      obtain ⟨e, he, rfl⟩ := List.mem_map.mp hk
      exact hedit e he
    obtain ⟨sorted, hsorted⟩ := Value.sort_texts htexts
    unfold checkKeys
    rw [hsorted]
  unfold storeDocument
  rw [run_bind, onDocuments, run_zoom, ht, hupsert, hdocuments, hkeys]
  rfl

/-- The fields of a merged record change its document as the plain changes do. -/
theorem editedDocuments_merged {documents : List Entries} (hs : Entries.Keyed documents)
    (hedit : edit.TextKeys) (hd : document ∈ documents) (hx : document.IsDocument x)
    (hreal : x.same x = true) (motors : Entries) :
    editedDocuments (.float x) ((Entries.merged document motors lookup edit).erase motorsKey)
        documents =
      editedDocuments (.float x) (Entries.plainChanges lookup edit) documents := by
  refine List.map_congr_left fun d hmem => ?_
  by_cases hdx : (Entries.get d sidKey).same (.float x) = true
  · rw [if_pos hdx, if_pos hdx, hs.eq_of_sid hd hx hreal hmem hdx, Entries.update_merged hx hedit]
  · rw [if_neg hdx, if_neg hdx]

/-- How far an edit of a document gets, once its record is read: the edit is refused, the motors of
the record are not replaced, or its document is stored after them. -/
inductive EditSteps (config : MotorsConfig) (schema : Schema) (collection : Text)
    (state : CatalogState TableServer Collections) (x : Binary64)
    (document motors lookup edit : Entries) :
    Except Fault Entries → CatalogState TableServer Collections → Prop
  | refused {fault : Fault}
    (hnot : edit.MotorsAreMapping →
      schema.validate (.map (Entries.merged document motors lookup edit)) ≠ .ok ()) :
    EditSteps config schema collection state x document motors lookup edit (.error fault) state
  | notReplaced {fault : Fault} {session : Session TableServer}
    (hmapping : edit.MotorsAreMapping)
    (hvalid : schema.validate (.map (Entries.merged document motors lookup edit)) = .ok ())
    (hreplace : ((onTables config).replaceMotors (.float x)
      (.map (motors.update edit.motorChanges))).run state.motors = (.error fault, session)) :
    EditSteps config schema collection state x document motors lookup edit (.error fault)
      { state with motors := session }
  | replaced {session : Session TableServer} {outcome : Except Fault Entries}
    {state' : CatalogState TableServer Collections}
    (hmapping : edit.MotorsAreMapping)
    (hvalid : schema.validate (.map (Entries.merged document motors lookup edit)) = .ok ())
    (hreplace : ((onTables config).replaceMotors (.float x)
      (.map (motors.update edit.motorChanges))).run state.motors = (.ok (), session))
    (hrun : (storeDocument collection x edit (Entries.merged document motors lookup edit)).run
      { state with motors := session } = (outcome, state')) :
    EditSteps config schema collection state x document motors lookup edit outcome state'
  | kept {outcome : Except Fault Entries} {state' : CatalogState TableServer Collections}
    (hmapping : edit.MotorsAreMapping)
    (hvalid : schema.validate (.map (Entries.merged document motors lookup edit)) = .ok ())
    (hnone : edit.get? motorsKey = none)
    (hrun : (storeDocument collection x edit (Entries.merged document motors lookup edit)).run
      state = (outcome, state')) :
    EditSteps config schema collection state x document motors lookup edit outcome state'

theorem applyEdit_steps {motors : Entries} {t : CatalogState TableServer Collections}
    (hnames : editLookup edit = .ok lookup)
    (hstored : ((embedded config router schema collection serviceName).storedRecord
      (.float x)).run state = (.ok (document.set motorsKey (.map motors)), t))
    (hrun : ((embedded config router schema collection serviceName).applyEdit (.float x) lookup
      edit).run state = (outcome, state')) :
    EditSteps config schema collection t x document motors lookup edit outcome state' := by
  have hlookup := has_motors_of_editLookup hnames
  unfold applyEdit at hrun
  rw [run_bind, hstored] at hrun
  dsimp only at hrun
  rcases run_bind_cases hrun with ⟨fault, happlyRun, rfl⟩ | ⟨record, _, happlyRun, hrun⟩
  · obtain ⟨happly, rfl⟩ := run_ofExcept_eq happlyRun
    refine .refused fun hmapping _ => ?_
    cases happly.symm.trans ((applyChanges_eq_ok hlookup).mpr ⟨hmapping, rfl⟩)
  obtain ⟨happly, rfl⟩ := run_ofExcept_eq happlyRun
  obtain ⟨hmapping, rfl⟩ := (applyChanges_eq_ok hlookup).mp happly
  rcases run_bind_cases hrun with ⟨fault, hvalidate, rfl⟩ | ⟨_, _, hvalidate, hrun⟩
  · obtain ⟨hinvalid, rfl⟩ := run_ofExcept_eq hvalidate
    refine .refused fun _ hvalid => ?_
    cases hinvalid.symm.trans hvalid
  obtain ⟨hvalid, rfl⟩ := run_ofExcept_eq hvalidate
  by_cases hmotors : edit.has motorsKey = true
  · rw [if_pos hmotors, Entries.get_merged] at hrun
    rcases run_bind_cases hrun with ⟨fault, hreplace, rfl⟩ | ⟨_, _, hreplace, hrun⟩
    · obtain ⟨session, hsession, rfl⟩ := run_zoom_eq hreplace
      exact .notReplaced hmapping hvalid hsession
    · obtain ⟨session, hsession, rfl⟩ := run_zoom_eq hreplace
      exact .replaced hmapping hvalid hsession hrun
  · rw [if_neg hmotors] at hrun
    rw [Entries.has_eq_isSome, Option.isSome_iff_ne_none, not_not] at hmotors
    exact .kept hmapping hvalid hmotors hrun

/-- The document that an edit names is one that meets its conditions. -/
theorem Editable.document_mem {documents : List Entries}
    (he : Editable schema documents h edit lookup document s) :
    document ∈ documents ∧ document.Satisfies lookup := by
  obtain ⟨hd, hsatisfies⟩ := mem_of_filter_eq_singleton (findDocuments_eq_ok he.found).symm
  exact ⟨hd, of_decide_eq_true hsatisfies⟩

/-- The record that an edit names is the only one. -/
theorem Editable.eq {documents : List Entries} {lookup' document' : Entries} {s' : StoredScan}
    (he : Editable schema documents h edit lookup' document' s') (hh : h.Sound)
    (hnames : editLookup edit = .ok lookup)
    (hfound : findDocuments lookup documents = .ok [document]) (hx : document.IsDocument x)
    (hmem : s ∈ h.scans) (hsid : s.sid = x.dropZeroSign) :
    lookup' = lookup ∧ document' = document ∧ s' = s := by
  obtain rfl := Except.ok.inj (he.names.symm.trans hnames)
  obtain rfl := List.singleton_inj.mp (Except.ok.inj (he.found.symm.trans hfound))
  have hsid' := he.belongs.sid_eq hx
  refine ⟨rfl, rfl, hh.eq_of_sid he.scan hmem ?_⟩
  have hself := hh.sid_same s hmem
  rwa [hsid'.trans hsid.symm]

/-- The motors of an edited scan are replaced by the merged ones, or stay as they are. -/
theorem replaceMotors_merged (hs : state.Paired collection h) (hedit : edit.IsRecord)
    (hmem : s ∈ h.scans) (hsame : s.sid.same x = true)
    (hvalid : schema.validate (.map (Entries.merged document (h.positionsOf s.scanId).toEntries
      lookup edit)) = .ok ())
    {session session' : Session TableServer} (hshows : session.Shows h h)
    {replaced : Except Fault Unit}
    (hrun : ((onTables config).replaceMotors (.float x)
      (.map ((h.positionsOf s.scanId).toEntries.update edit.motorChanges))).run session =
        (replaced, session')) :
    (∃ h' : Holdings, replaced = .ok () ∧ session'.Shows h' h' ∧ h'.scans = h.scans ∧
        h'.Unsigned ∧ h'.records = editedRecords (.float x) edit h.records ∧
        h'.lastMotor ≤ h.lastMotor +
          ((h.positionsOf s.scanId).toEntries.update edit.motorChanges).length) ∨
      ∃ fault, replaced = .error fault ∧ session'.Shows h h ∧ ¬ RoomFor h edit s := by
  obtain ⟨checked, hchecked⟩ := checkMotors_merged hvalid
  obtain ⟨ps, rfl, -, -⟩ := checkMotors_eq_ok hchecked
  have hdistinct : (Value.map ((h.positionsOf s.scanId).toEntries.update
      edit.motorChanges)).DistinctKeys :=
    (positionsOf_distinct hs.shows.sound s.scanId).update edit.motorChanges
  have hencodable := mergedMotors_encodable hs.shows.sound s.scanId hedit
  rcases hshows.replaceMotors hdistinct x hrun with
    ⟨ps', t, hchecked', rfl, ht, htsame, hshows'⟩ | ⟨fault, left, rfl, hshows', hleft, -⟩
  · obtain rfl : ps = ps' :=
      Positions.toEntries_injective (Except.ok.inj (hchecked.symm.trans hchecked'))
    obtain rfl := hs.shows.sound.eq_of_sid ht hmem (Binary64.same_of_same htsame hsame)
    have hps : ps.stored.toEntries = (h.positionsOf t.scanId).toEntries.update edit.storedMotors :=
      (Positions.stored_toEntries hchecked).trans (storedMotors_merged hs.unsigned t.scanId edit)
    refine .inl ⟨_, rfl, hshows', Holdings.scans_addMotors _ _ _,
      (hs.unsigned.dropMotors _).addMotors _ _,
      editedRecords_of_replace hs.shows.sound hmem hsame hps, ?_⟩
    rw [Holdings.lastMotor_addMotors, Positions.length_of_checkMotors hchecked]
    exact Nat.le_refl _
  · refine .inr ⟨fault, rfl, hleft.eq hencodable ▸ hshows', fun hroom => ?_⟩
    have hfit : ps.Fit h := by
      refine ⟨Positions.encodable_of_checkMotors hchecked hencodable, ?_⟩
      rw [Positions.length_of_checkMotors hchecked]
      exact hroom
    obtain ⟨_, hfits⟩ := hshows.replaceMotors_fits config hdistinct hchecked ⟨s, hmem, hsame⟩ hfit
    cases hrun.symm.trans hfits

/-- An edit whose motors are stored is stored. -/
theorem Editable.finish
    (heditable : Editable schema (state.documents.documents collection) h edit lookup document s)
    (hs : state.Paired collection h) (hedit : edit.IsRecord)
    (hd : document ∈ state.documents.documents collection) (hx : document.IsDocument x)
    (hreal : x.same x = true) {session : Session TableServer} {h' : Holdings}
    (hshows : session.Shows h' h') (hscans : h'.scans = h.scans) (hunsigned : h'.Unsigned)
    (hrecords : h'.records = editedRecords (.float x) edit h.records)
    (hlast : h'.lastMotor ≤ h.lastMotor +
      ((h.positionsOf s.scanId).toEntries.update edit.motorChanges).length)
    (hrun : (storeDocument collection x edit
      (Entries.merged document (h.positionsOf s.scanId).toEntries lookup edit)).run
        { state with motors := session } = (outcome, state')) :
    Edited schema collection state h edit outcome state' := by
  have hstore := storeDocument_run hs.keyed hedit.texts hd hx hreal
    (Entries.merged document (h.positionsOf s.scanId).toEntries lookup edit)
    (t := { state with motors := session }) rfl
  obtain ⟨rfl, rfl⟩ := Prod.mk.inj (hstore.symm.trans hrun)
  refine .stored heditable hx rfl ?_ hshows hscans hunsigned hrecords hlast
  exact (Collections.documents_put _ _ _).trans
    (editedDocuments_merged hs.keyed hedit.texts hd hx hreal _)

/-- An edit of a named record stores what it makes of it in both stores, or changes nothing. -/
theorem applyEdit_cases (hs : state.Paired collection h) (hedit : edit.IsRecord)
    (hnames : editLookup edit = .ok lookup)
    (hfound : findDocuments lookup (state.documents.documents collection) = .ok [document])
    (hd : document ∈ state.documents.documents collection) (hx : document.IsDocument x)
    (hmem : s ∈ h.scans) (hsid : s.sid = x.dropZeroSign)
    (hrun : ((embedded config router schema collection serviceName).applyEdit (.float x) lookup
      edit).run state = (outcome, state')) :
    Edited schema collection state h edit outcome state' := by
  obtain ⟨hsame, hreal⟩ := hs.shows.sound.same_of_sid hmem hsid
  obtain ⟨session, hstored, hshows⟩ :=
    storedRecord_run config router schema serviceName hs hd hx hmem hsid
  have heditable : edit.MotorsAreMapping → schema.validate (.map (Entries.merged document
      (h.positionsOf s.scanId).toEntries lookup edit)) = .ok () →
        Editable schema (state.documents.documents collection) h edit lookup document s :=
    fun hmapping hvalid => ⟨hnames, hfound, hmem, ⟨x, hx, hsid⟩, hmapping, hvalid⟩
  have hunique : ∀ lookup' document' s',
      Editable schema (state.documents.documents collection) h edit lookup' document' s' →
        lookup' = lookup ∧ document' = document ∧ s' = s :=
    fun _ _ _ he => he.eq hs.shows.sound hnames hfound hx hmem hsid
  cases applyEdit_steps hnames hstored hrun with
  | refused hnot =>
    refine .failed (fun lookup' document' s' he _ => ?_) rfl rfl hshows
    obtain ⟨rfl, rfl, rfl⟩ := hunique _ _ _ he
    exact hnot he.mapping he.valid
  | notReplaced _ hvalid hreplace =>
    rcases replaceMotors_merged hs hedit hmem hsame hvalid hshows hreplace with
      ⟨_, houtcome, -⟩ | ⟨_, -, hshows', hroom⟩
    · cases houtcome
    · refine .failed (fun lookup' document' s' he => ?_) rfl rfl hshows'
      obtain ⟨rfl, rfl, rfl⟩ := hunique _ _ _ he
      exact hroom
  | replaced hmapping hvalid hreplace hrun =>
    rcases replaceMotors_merged hs hedit hmem hsame hvalid hshows hreplace with
      ⟨h', -, hshows', hscans, hunsigned, hrecords, hlast⟩ | ⟨_, houtcome, -, -⟩
    · exact (heditable hmapping hvalid).finish hs hedit hd hx hreal hshows' hscans hunsigned
        hrecords hlast hrun
    · cases houtcome
  | kept hmapping hvalid hnone hrun =>
    have hstoredMotors : edit.storedMotors = [] := by
      unfold Entries.storedMotors Entries.get
      rw [hnone]
      rfl
    exact (heditable hmapping hvalid).finish hs hedit hd hx hreal hshows rfl hs.unsigned
      (editedRecords_of_nil hstoredMotors _ _).symm (Nat.le_add_right _ _) hrun

/-- An edit is made of the one document that it names, by its sid. If it names none or several,
it fails and changes nothing. -/
theorem editRecord_run_cases (hs : Entries.Keyed (state.documents.documents collection))
    (hrun : ((embedded config router schema collection serviceName).editRecord edit).run state =
      (outcome, state')) :
    (∃ fault, outcome = .error fault ∧ state' = state ∧ ∀ lookup document,
        editLookup edit = .ok lookup →
          findDocuments lookup (state.documents.documents collection) ≠ .ok [document]) ∨
      ∃ lookup document x, editLookup edit = .ok lookup ∧
        findDocuments lookup (state.documents.documents collection) = .ok [document] ∧
        document ∈ state.documents.documents collection ∧ document.IsDocument x ∧
        ((embedded config router schema collection serviceName).applyEdit (.float x) lookup
          edit).run state = (outcome, state') := by
  rcases run_bind_cases hrun with ⟨fault, hlookup, rfl⟩ | ⟨lookup, _, hlookup, hrun⟩
  · obtain ⟨hfault, rfl⟩ := run_ofExcept_eq hlookup
    refine .inl ⟨fault, rfl, rfl, fun _ _ hnames => ?_⟩
    cases hfault.symm.trans hnames
  obtain ⟨hnames, rfl⟩ := run_ofExcept_eq hlookup
  have hnot : (∀ document, findDocuments lookup (state.documents.documents collection) ≠
      .ok [document]) → ∀ lookup' document, editLookup edit = .ok lookup' →
        findDocuments lookup' (state.documents.documents collection) ≠ .ok [document] := by
    intro hnone lookup' document hnames'
    obtain rfl := Except.ok.inj (hnames'.symm.trans hnames)
    exact hnone document
  rw [run_bind, run_count] at hrun
  cases hfound : findDocuments lookup (state.documents.documents collection) with
  | error fault =>
    rw [hfound] at hrun
    cases hrun
    refine .inl ⟨fault, rfl, rfl, hnot fun document hone => ?_⟩
    cases hfound.symm.trans hone
  | ok found =>
    rw [hfound] at hrun
    dsimp only [Except.map] at hrun
    by_cases hone : (found.length : Int) = 1
    swap
    · rw [if_pos (bne_iff_ne.mpr hone)] at hrun
      cases hrun
      refine .inl ⟨_, rfl, rfl, hnot fun document hfound' => hone ?_⟩
      rw [Except.ok.inj (hfound.symm.trans hfound')]
      rfl
    obtain ⟨document, rfl⟩ := List.length_eq_one_iff.mp (Int.ofNat_inj.mp hone)
    have hd : document ∈ state.documents.documents collection :=
      (mem_of_filter_eq_singleton (findDocuments_eq_ok hfound).symm).1
    obtain ⟨x, hx, -⟩ := hs.isDocument document hd
    have hsidOf : sidOf document = .ok (.float x) := by
      unfold sidOf
      rw [hx.sid]
      rfl
    have hsame : ((([document] : List Entries).length : Int) != 1) = false := rfl
    rw [hsame, if_neg Bool.false_ne_true, run_first hfound, hsidOf] at hrun
    exact .inr ⟨lookup, document, x, hnames, hfound, hd, hx, hrun⟩

/-- An edit stores what it makes of its record in both stores, or changes nothing and could not
be made. -/
theorem editRecord_cases (hs : state.Paired collection h) (hedit : edit.IsRecord)
    (hrun : ((embedded config router schema collection serviceName).editRecord edit).run state =
      (outcome, state')) :
    Edited schema collection state h edit outcome state' := by
  rcases editRecord_run_cases hs.keyed hrun with ⟨fault, rfl, rfl, hnot⟩ |
    ⟨lookup, document, x, hnames, hfound, hd, hx, hrun⟩
  · exact .failed (fun lookup document _ he _ => hnot lookup document he.names he.found) rfl rfl
      hs.shows
  · obtain ⟨s, hmem, hbelongs⟩ := hs.exists_scan hd
    exact applyEdit_cases hs hedit hnames hfound hd hx hmem (hbelongs.sid_eq hx) hrun

/-- An edit keeps documents and scans in pairs, and the scans as they are. -/
theorem Edited.paired (hs : state.Paired collection h) (hedit : edit.IsRecord)
    (hedited : Edited schema collection state h edit outcome state') :
    ∃ h', state'.Paired collection h' ∧ h'.scans = h.scans := by
  cases hedited with
  | stored _ _ _ hdocuments hshows hscans hunsigned _ =>
    refine ⟨_, ⟨hshows, hunsigned, ?_⟩, hscans⟩
    rw [hdocuments, hscans]
    refine List.forall₂_map_left_iff.mpr (hs.belong.imp fun d s hbelongs => ?_)
    obtain ⟨y, hy, hsid⟩ := hbelongs
    split
    · exact ⟨y, hy.update (Entries.plainChanges_textKeys hedit.texts _)
        (Entries.plainChanges_sid _ _) (Entries.plainChanges_motors _ _), hsid⟩
    · exact ⟨y, hy, hsid⟩
  | failed _ _ hdocuments hshows =>
    refine ⟨h, ⟨hshows, hs.unsigned, ?_⟩, rfl⟩
    rw [hdocuments]
    exact hs.belong

/-- An edit does not ask the clock. -/
theorem Edited.clock (hedited : Edited schema collection state h edit outcome state') :
    state'.sidClock = state.sidClock := by
  cases hedited with
  | stored _ _ hclock => exact hclock
  | failed _ hclock => exact hclock

end Catalog

end ScanCatalog