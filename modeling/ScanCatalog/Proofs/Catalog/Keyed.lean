import ScanCatalog.Proofs.Catalog.Reached

/-!
# Catalogs that hold rows left behind

A mnemonic without a UTF-8 form fails in the middle of a change of the tables, and the rows
before it stay. Documents and scans are no longer in pairs then. What remains, whatever records
and edits a catalog was given: each document has a sid that no other has, and an edit changes
the document and the scan of one sid only.

## Main definitions

* `CatalogState.Keyed`: documents by their sids, beside tables that hold something sound;
* `Catalog.EditsDocument`: what an edit of a document does;
* `CatalogState.Arises`: a catalog by its history, for any records and edits.

## Main statements

* `Catalog.addRecord_keyed`, `Catalog.EditsDocument.keyed`: a record or an edit keeps it so;
* `Catalog.applyEdit_document`: an edit of a document does that;
* `CatalogState.Arises.keyed`: it is so in every history;
* `CatalogState.Arises.add`, `CatalogState.Arises.edit`: calls go on with a history.
-/

namespace ScanCatalog

open ScanCatalog.Action MotorStore Catalog

section

variable {config : MotorsConfig} {router : Router} {schema : Schema}
  {collection serviceName : Text} {state state' : CatalogState TableServer Collections}
  {h k : Holdings} {record edit lookup document : Entries} {x : Binary64}
  {outcome : Except Fault Entries}

/-! ### Documents by their sids -/

namespace Entries.Keyed

variable {documents : List Entries} {changes : Entries}

/-- A document of a sid that is new comes last. -/
theorem append (hs : Keyed documents) (hx : document.IsDocument x) (hreal : x.same x = true)
    (hnew : ∀ d ∈ documents, (document.get sidKey).same (Entries.get d sidKey) = false) :
    Keyed (documents ++ [document]) where
  isDocument := List.forall_mem_append.mpr
    ⟨hs.isDocument, List.forall_mem_singleton.mpr ⟨x, hx, hreal⟩⟩
  pairwise := by
    refine List.pairwise_append.mpr ⟨hs.pairwise, List.pairwise_singleton _ _, fun d hd d' hd' => ?_⟩
    rw [List.mem_singleton.mp hd']
    obtain ⟨y, hy, -⟩ := hs.isDocument d hd
    have hne := hnew d hd
    rw [hx.get, hy.get] at hne
    rw [hx.get, hy.get]
    exact (Binary64.same_comm _ _).trans hne

/-- Changes of other fields leave the sids. -/
theorem edited (hs : Keyed documents) (sid : Value) (htexts : changes.TextKeys)
    (hsid : changes.has sidKey = false) (hmotors : changes.has motorsKey = false) :
    Keyed (editedDocuments sid changes documents) := by
  have hdocument : ∀ d ∈ documents, ∀ y, Entries.IsDocument d y → Entries.IsDocument
      (if (Entries.get d sidKey).same sid then Entries.update d changes else d) y := by
    intro d _ y hy
    split
    · exact hy.update htexts hsid hmotors
    · exact hy
  refine ⟨fun d' hd' => ?_, List.pairwise_map.mpr (hs.pairwise.imp_of_mem ?_)⟩
  · obtain ⟨d, hd, rfl⟩ := List.mem_map.mp hd'
    obtain ⟨y, hy, hreal⟩ := hs.isDocument d hd
    exact ⟨y, hdocument d hd y hy, hreal⟩
  · intro a b ha hb hne
    obtain ⟨y, hy, -⟩ := hs.isDocument a ha
    obtain ⟨z, hz, -⟩ := hs.isDocument b hb
    rw [hy.get, hz.get] at hne
    rw [(hdocument a ha y hy).get, (hdocument b hb z hz).get]
    exact hne

end Entries.Keyed

/-- Documents by their sids, and tables that hold something sound. -/
structure CatalogState.Keyed (state : CatalogState TableServer Collections) (collection : Text) :
    Prop where
  shows : ∃ h k, state.motors.Shows h k
  keyed : Entries.Keyed (state.documents.documents collection)

namespace Catalog

/-! ### Adding -/

/-- A record that is added, or that fails, keeps documents by their sids. -/
theorem addRecord_keyed (hs : state.Keyed collection) (htexts : record.TextKeys)
    (hdistinct : record.Distinct)
    (hrun : ((embedded config router schema collection serviceName).addRecord record).run state =
      (outcome, state')) : state'.Keyed collection := by
  obtain ⟨⟨h, k, hshows⟩, hkeyed⟩ := hs
  cases addRecord_steps hrun with
  | refused => exact ⟨⟨h, k, hshows⟩, hkeyed⟩
  | @notInserted x _ _ _ _ _ _ hmotors hinsert =>
    rcases hshows.insert (motorsOf_distinct hmotors) x hinsert with
      ⟨_, -, houtcome, -, -⟩ | ⟨_, left, -, hleft, -⟩
    · cases houtcome
    · exact ⟨⟨left, k, hleft⟩, hkeyed⟩
  | @inserted x _ _ _ _ _ _ _ _ hmotors hinsert hrun =>
    rcases hshows.insert (motorsOf_distinct hmotors) x hinsert with
      ⟨ps, -, -, -, hshows'⟩ | ⟨_, _, houtcome, -, -⟩
    swap
    · cases houtcome
    have hreal : x.same x = true := Holdings.same_self_of_addScan hshows'.sound
    have hx := Entries.documentOf_isDocument htexts hdistinct x
    -- nothing here ties the sids of the scans to those of the documents, so it is the document
    -- store that refuses a sid which it has
    have hput : ∀ {outcome : Except Fault Int} {documents : Collections},
        (Collections.store.insert collection [documentOf record x]).run state.documents =
          (outcome, documents) → Entries.Keyed (documents.documents collection) := by
      intro outcome documents hstore
      rcases Collections.insert_cases hstore with rfl | ⟨hdocuments, hnew⟩
      · exact hkeyed
      · rw [hdocuments]
        exact hkeyed.append hx hreal hnew
    rcases run_bind_cases hrun with ⟨fault, hdocument, rfl⟩ | ⟨_, _, hdocument, hrun⟩
    · obtain ⟨documents, hstore, rfl⟩ := run_zoom_eq hdocument
      exact ⟨⟨_, _, hshows'⟩, hput hstore⟩
    · obtain ⟨documents, hstore, rfl⟩ := run_zoom_eq hdocument
      obtain ⟨-, rfl⟩ := run_ofExcept_eq hrun
      exact ⟨⟨_, _, hshows'⟩, hput hstore⟩

/-! ### Editing -/

/-- What an edit of the document of a sid does. It changes that document and no other, or it
fails and changes none; and at most the scan of the sid has other motors. -/
structure EditsDocument (collection : Text) (state : CatalogState TableServer Collections)
    (h : Holdings) (x : Binary64) (changes : Entries) (outcome : Except Fault Entries)
    (state' : CatalogState TableServer Collections) : Prop where
  documents : outcome.isOk = true ∧ state'.documents.documents collection =
      editedDocuments (.float x) changes (state.documents.documents collection) ∨
    outcome.isOk = false ∧ state'.documents = state.documents
  shows : ∃ h' k', state'.motors.Shows h' k' ∧ (h' = h ∨ h.Swaps x h')

/-- The record of a sid is read: a document is completed by the motors of its scan, or by none.
That leaves no row pending. -/
theorem storedRecord_keyed (config : MotorsConfig) (router : Router) (schema : Schema)
    (serviceName : Text) (hkeyed : Entries.Keyed (state.documents.documents collection))
    (hshows : state.motors.Shows h k) (hd : document ∈ state.documents.documents collection)
    (hx : document.IsDocument x) :
    ∃ (ps : Positions) (session : Session TableServer),
      ((embedded config router schema collection serviceName).storedRecord (.float x)).run state =
        (.ok (document.set motorsKey (.map ps.toEntries)), { state with motors := session }) ∧
      session.Shows h h ∧ ps.toEntries.Distinct ∧ ps.Encodable := by
  have hreal : ∀ v ∈ [Value.float x], v.IsReal := List.forall_mem_singleton.mpr ⟨x, rfl⟩
  have hself : x.same x = true := hkeyed.same_self hd hx
  obtain ⟨session, found, hbySids, hsettled, hfound⟩ : ∃ session found,
      ((embedded config router schema collection serviceName).motorStore.bySids [.float x]).run
        state.motors = (.ok found, session) ∧ session.Shows h h ∧
      ∀ r ∈ found, r ∈ h.records ∧ r.sid.same (.float x) = true := by
    obtain ⟨session, k', hbySids, hsession, hk'⟩ :=
      hshows.bySids config hreal (sidCount_singleton_le x)
    refine ⟨session, _, hbySids, ?_, fun r hr => ?_⟩
    · rcases hk' with rfl | ⟨-, hempty⟩
      · exact hsession
      · cases hempty
    · obtain ⟨hr, hsid⟩ := List.mem_filter.mp hr
      exact ⟨hr, (Bool.or_false _).symm.trans hsid⟩
  have hmotors : (onMotors ((embedded config router schema collection serviceName).motorStore.bySids
      [.float x])).run state = (.ok found, { state with motors := session }) := by
    rw [onMotors, run_zoom, hbySids]
  obtain ⟨ps, hcomplete, hdistinct, hencodable⟩ : ∃ ps : Positions,
      complete document (found.head?.getD { sid := .float x }) =
        .ok (document.set motorsKey (.map ps.toEntries)) ∧ ps.toEntries.Distinct ∧
      ps.Encodable := by
    unfold complete
    rw [hx.get]
    cases hhead : found.head? with
    | none =>
      refine ⟨[], ?_, List.Pairwise.nil, fun _ hp => absurd hp List.not_mem_nil⟩
      exact if_pos hself
    | some r =>
      obtain ⟨hr, hsid⟩ := hfound r (List.mem_of_mem_head? hhead)
      obtain ⟨s, -, rfl⟩ := List.mem_map.mp hr
      refine ⟨h.positionsOf s.scanId, ?_, positionsOf_distinct hsettled.sound s.scanId, ?_⟩
      · exact if_pos ((Binary64.same_comm _ _).trans hsid)
      · intro p hp
        obtain ⟨m, hm, rfl⟩ := List.mem_map.mp hp
        exact hsettled.sound.encodable m (List.mem_filter.mp hm).1
  refine ⟨ps, session, ?_, hsettled, hdistinct, hencodable⟩
  unfold storedRecord
  rw [run_first (hkeyed.find_sid hd hx hself), run_bind, hmotors]
  dsimp only
  rw [run_ofExcept, hcomplete]

/-- What is left of an edit once the motors are stored does not fail. -/
theorem EditsDocument.finish (hkeyed : Entries.Keyed (state.documents.documents collection))
    (hedit : edit.TextKeys) (hd : document ∈ state.documents.documents collection)
    (hx : document.IsDocument x) {motors : Entries} {t : CatalogState TableServer Collections}
    (hrun : (storeDocument collection x edit (Entries.merged document motors lookup edit)).run t =
      (outcome, state'))
    (ht : t.documents = state.documents)
    (hshows : ∃ h' k', t.motors.Shows h' k' ∧ (h' = h ∨ h.Swaps x h')) :
    EditsDocument collection state h x (Entries.plainChanges lookup edit) outcome state' := by
  have hreal := hkeyed.same_self hd hx
  have hstore := storeDocument_run hkeyed hedit hd hx hreal
    (Entries.merged document motors lookup edit) ht
  obtain ⟨rfl, rfl⟩ := Prod.mk.inj (hstore.symm.trans hrun)
  refine ⟨.inl ⟨rfl, ?_⟩, hshows⟩
  exact (Collections.documents_put _ _ _).trans
    (editedDocuments_merged hkeyed hedit hd hx hreal motors)

/-- An edit of a document does that, whatever it finds in the tables. -/
theorem applyEdit_document (hkeyed : Entries.Keyed (state.documents.documents collection))
    (hshows : state.motors.Shows h k) (hedit : edit.TextKeys)
    (hnames : editLookup edit = .ok lookup)
    (hd : document ∈ state.documents.documents collection) (hx : document.IsDocument x)
    (hrun : ((embedded config router schema collection serviceName).applyEdit (.float x) lookup
      edit).run state = (outcome, state')) :
    EditsDocument collection state h x (Entries.plainChanges lookup edit) outcome state' := by
  obtain ⟨ps, session, hstored, hshows', hdistinct, -⟩ :=
    storedRecord_keyed config router schema serviceName hkeyed hshows hd hx
  have hmnemonics : (Value.map (ps.toEntries.update edit.motorChanges)).DistinctKeys :=
    Entries.Distinct.update hdistinct edit.motorChanges
  -- the motors come before the document, so an edit that fails leaves the documents
  cases applyEdit_steps hnames hstored hrun with
  | refused => exact ⟨.inr ⟨rfl, rfl⟩, h, h, hshows', .inl rfl⟩
  | notReplaced _ _ hreplace =>
    rcases hshows'.replaceMotors hmnemonics x hreplace with
      ⟨_, _, -, houtcome, -⟩ | ⟨_, left, -, hleft, -, hswaps⟩
    · cases houtcome
    · exact ⟨.inr ⟨rfl, rfl⟩, left, h, hleft, hswaps.elim .inl id⟩
  | replaced _ _ hreplace hrun =>
    rcases hshows'.replaceMotors hmnemonics x hreplace with
      ⟨ps, s, -, -, hs, hsame, hreplaced⟩ | ⟨_, _, houtcome, -⟩
    · exact .finish hkeyed hedit hd hx hrun rfl
        ⟨_, _, hreplaced, .inr ⟨s, hs, hsame, ps, rfl⟩⟩
    · cases houtcome
  | kept _ _ _ hrun =>
    exact .finish hkeyed hedit hd hx hrun rfl ⟨h, h, hshows', .inl rfl⟩

/-- Documents keep their sids in an edit. -/
theorem EditsDocument.keyed {changes : Entries}
    (hkeyed : Entries.Keyed (state.documents.documents collection)) (htexts : changes.TextKeys)
    (hsid : changes.has sidKey = false) (hmotors : changes.has motorsKey = false)
    (h : EditsDocument collection state h x changes outcome state') : state'.Keyed collection := by
  obtain ⟨hdocuments, h', k', hshows, -⟩ := h
  refine ⟨⟨h', k', hshows⟩, ?_⟩
  rcases hdocuments with ⟨-, hdocuments⟩ | ⟨-, hdocuments⟩
  · rw [hdocuments]
    exact hkeyed.edited _ htexts hsid hmotors
  · rw [hdocuments]
    exact hkeyed

/-- An edit keeps documents by their sids, made or not. -/
theorem editRecord_keyed (hs : state.Keyed collection) (hedit : edit.TextKeys)
    (hrun : ((embedded config router schema collection serviceName).editRecord edit).run state =
      (outcome, state')) : state'.Keyed collection := by
  obtain ⟨⟨h, k, hshows⟩, hkeyed⟩ := hs
  rcases editRecord_run_cases hkeyed hrun with
    ⟨_, -, rfl, -⟩ | ⟨lookup, document, x, hnames, -, hd, hx, hrun⟩
  · exact ⟨⟨h, k, hshows⟩, hkeyed⟩
  · exact (applyEdit_document hkeyed hshows hedit hnames hd hx hrun).keyed hkeyed
      (Entries.plainChanges_textKeys hedit lookup) (Entries.plainChanges_sid lookup edit)
      (Entries.plainChanges_motors lookup edit)

end Catalog

end

/-! ### Histories -/

variable {config : MotorsConfig} {router : Router} {schema : Schema}
  {collection serviceName : Text} {state state' : CatalogState TableServer Collections}

/-- A catalog by its history from empty stores. Each record that it was given is added or is an
edit, with success or not; of its keys it is known that they are texts, and of those of a record
that none comes again. -/
inductive CatalogState.Arises (config : MotorsConfig) (router : Router) (schema : Schema)
    (collection serviceName : Text) : CatalogState TableServer Collections → Prop
  | connected {disk : Disk} (readings : List Int) {state : CatalogState TableServer Collections}
    (hdisk : disk.databases = [])
    (hrun : (embedded config router schema collection serviceName).connect.run
      ⟨⟨false, disk, none⟩, {}, .ofReadings readings⟩ = (.ok (), state)) :
    Arises config router schema collection serviceName state
  | added {state state' : CatalogState TableServer Collections} {record : Entries}
    {outcome : Except Fault Entries}
    (hs : Arises config router schema collection serviceName state)
    (htexts : record.TextKeys) (hdistinct : record.Distinct)
    (hrun : ((embedded config router schema collection serviceName).addRecord record).run state =
      (outcome, state')) :
    Arises config router schema collection serviceName state'
  | edited {state state' : CatalogState TableServer Collections} {edit : Entries}
    {outcome : Except Fault Entries}
    (hs : Arises config router schema collection serviceName state)
    (hedit : edit.TextKeys)
    (hrun : ((embedded config router schema collection serviceName).editRecord edit).run state =
      (outcome, state')) :
    Arises config router schema collection serviceName state'

/-- A catalog that is reached arises. -/
theorem CatalogState.Reached.arises {n : Nat}
    (hs : Reached config router schema collection serviceName n state) :
    Arises config router schema collection serviceName state := by
  induction hs with
  | connected readings hdisk hrun => exact .connected readings hdisk hrun
  | added _ hrecord hrun ih => exact .added ih hrecord.texts hrecord.distinct hrun
  | edited _ hedit hrun ih => exact .edited ih hedit.texts hrun

namespace CatalogState.Arises

/-- The documents have sids, and each its own. -/
theorem keyed (hs : Arises config router schema collection serviceName state) :
    state.Keyed collection := by
  induction hs with
  | connected readings hdisk hrun =>
    obtain ⟨hpaired, -⟩ := connect_eq_ok hdisk hrun
    exact ⟨⟨_, _, hpaired.shows⟩, hpaired.keyed⟩
  | added _ htexts hdistinct hrun ih => exact addRecord_keyed ih htexts hdistinct hrun
  | edited _ hedit hrun ih => exact editRecord_keyed ih hedit hrun

/-- A call that adds the records of a body goes on with the history. -/
theorem add {body : Value} {outcome : Except Fault BatchResult}
    (hs : Arises config router schema collection serviceName state) (hbody : body.IsBody)
    (hrun : ((embedded config router schema collection serviceName).add body).run state =
      (outcome, state')) : Arises config router schema collection serviceName state' := by
  obtain ⟨_, harises⟩ := call_keeps (n := 0)
    (fun _ => Arises config router schema collection serviceName) hs
    (fun _ hdecoded r hr _ _ _ _ harises hadd =>
      have hjson := isJson_of_decodeRecords hbody hdecoded r hr
      harises.added hjson.texts hjson.distinctKeys hadd) hrun
  exact harises

/-- A call that makes the edits of a body goes on with the history. -/
theorem edit {body : Value} {outcome : Except Fault BatchResult}
    (hs : Arises config router schema collection serviceName state) (hbody : body.IsBody)
    (hrun : ((embedded config router schema collection serviceName).edit body).run state =
      (outcome, state')) : Arises config router schema collection serviceName state' := by
  obtain ⟨_, harises⟩ := call_keeps (n := 0)
    (fun _ => Arises config router schema collection serviceName) hs
    (fun _ hdecoded r hr _ _ _ _ harises hedit =>
      harises.edited (isJson_of_decodeRecords hbody hdecoded r hr).texts hedit) hrun
  exact harises

end CatalogState.Arises

end ScanCatalog
