import ScanCatalog.Proofs.Catalog.Valid
import ScanCatalog.Proofs.Record.Reflexive

/-!
# What is reported is what is stored

A call reports the records that it has stored. A record that is added is reported after its
positions are converted, but one that is edited with the positions of the edit as they are
sent, before the tables convert them. An integer beyond 53 bits is reported as it is then, and
stored as the nearest number.

## Main definitions

* `Entries.asStored`: a record as the stores keep it;
* `Entries.ExactMotors`: edits whose positions are stored as they are;
* `CatalogState.Called`: a catalog by the calls that were made;
* `Catalog.FoundBySid`: what a search for the sid of a reported record gives.

## Main statements

* `CatalogState.Paired.search_sid`: a search for a sid;
* `CatalogState.Keeps.found`: a record that is kept is found as it is stored;
* `CatalogState.Called.reports_stored`: the reports of calls with one record.
-/

namespace ScanCatalog

open ScanCatalog.Action MotorStore Catalog

/-! ### Records as they are stored -/

namespace Entries

/-- A record with its motors as the tables keep them. -/
def asStored (record : Entries) : Entries := record.set motorsKey (.map record.storedMotors)

/-- Each position of the edit is equal to what the tables keep of it. -/
def ExactMotors (edit : Entries) : Prop := ∀ e ∈ edit.motorChanges, e.2.same e.2.asStored = true

variable {reported found motors : Entries} {t : Text}

theorem get?_asStored (ht : Value.text t ≠ motorsKey) :
    reported.asStored.get? (.text t) = reported.get? (.text t) := get?_set_of_ne (Ne.symm ht)

theorem get?_asStored_motors (hmotors : reported.get? motorsKey = some (.map motors)) :
    reported.asStored.get? motorsKey = some (.map (mapValues Value.asStored motors)) := by
  unfold asStored storedMotors Entries.get
  rw [get?_set_self, hmotors]
  rfl

/-- A record is found equal to a reported one just if its positions are stored as they are
reported. -/
theorem same_asStored_iff (htexts : reported.TextKeys) (hdistinct : reported.Distinct)
    (hfoundTexts : found.TextKeys) (hfoundDistinct : found.Distinct)
    (hfound : ∀ t, found.get? (.text t) = reported.asStored.get? (.text t))
    (hmotors : reported.get? motorsKey = some (.map motors)) (hmotorTexts : motors.TextKeys)
    (hmotorDistinct : motors.Distinct)
    (hself : ∀ t v, Value.text t ≠ motorsKey → reported.get? (.text t) = some v →
      v.same v = true) :
    (Value.map reported).same (.map found) = true ↔
      ∀ e ∈ motors, e.2.same e.2.asStored = true := by
  have hstored := get?_asStored_motors hmotors
  rw [map_same_iff htexts hdistinct hfoundTexts hfoundDistinct,
    ← map_same_mapValues_iff hmotorTexts hmotorDistinct]
  -- the fields are found as they are reported, so it is a matter of the motors alone
  constructor
  · intro h
    have hrel := h "motors"
    rw [hfound] at hrel
    change Option.Rel _ (reported.get? motorsKey) (reported.asStored.get? motorsKey) at hrel
    rw [hmotors, hstored] at hrel
    cases hrel with
    | some hsame => exact hsame
  · intro h t
    rw [hfound]
    by_cases ht : Value.text t = motorsKey
    · rw [ht, hmotors, hstored]
      exact .some h
    · rw [get?_asStored ht]
      cases hget : reported.get? (.text t) with
      | none => exact .none
      | some v => exact .some (hself t v ht hget)

end Entries

/-! ### Searches for a sid -/

/-- A document joins the one record of its sid. -/
theorem MotorRecord.Keyed.completed?_eq_some {records : List MotorRecord}
    (hrecords : MotorRecord.Keyed records) {document : Entries} {x : Binary64}
    (hsid : document.get sidKey = .float x) {r : MotorRecord} (hr : r ∈ records)
    (hsame : (Value.float x).same r.sid = true) :
    document.completed? records = some (document.set motorsKey (.map r.motors)) := by
  have hone : records.filter (fun r => (document.get sidKey).same r.sid) = [r] := by
    rw [hsid]
    refine filter_eq_singleton hr hsame ?_
    refine List.Pairwise.imp_of_mem (fun {a b} ha hb hdistinct hxa => ?_) hrecords.distinct
    obtain ⟨y, hy⟩ := hrecords.real a ha
    obtain ⟨z, hz⟩ := hrecords.real b hb
    rw [hy] at hxa hdistinct
    rw [hz] at hdistinct ⊢
    have hxa : x.same y = true := hxa
    change x.same z = false
    rw [Binary64.same_congr_left hxa]
    exact hdistinct
  unfold Entries.completed?
  rw [← List.head?_filter, hone]
  rfl

/-- Sids are looked for among the documents. -/
def Router.KeepsSids (router : Router) (serviceName : Text) : Prop :=
  ∃ entry, router.table.owner? serviceName "sid" = some entry ∧ entry.backend = .mongodb

theorem Router.KeepsSids.route {router : Router} {serviceName : Text}
    (h : router.KeepsSids serviceName) (x : Binary64) :
    router.route serviceName (.map [(sidKey, .float x)]) =
      .ok ⟨[], [("sid", .literal (.float x))], []⟩ := by
  obtain ⟨entry, howner, hbackend⟩ := h
  have hterms : Terms.ofValue (.map [(sidKey, .float x)]) =
      .ok [("sid", .literal (.float x))] := rfl
  have hsplit : router.table.split serviceName [("sid", .literal (.float x))] =
      ⟨[], [("sid", .literal (.float x))], []⟩ := by
    simp [RoutingTable.split, RoutingTable.termsOf, howner, hbackend]
  unfold Router.route
  rw [hterms, liftFilter, Outcome.ok_bind, hsplit]
  cases hstrict : router.strict <;> rfl

variable {config : MotorsConfig} {router : Router} {schema : Schema}
  {collection serviceName : Text} {state state' : CatalogState TableServer Collections} {n : Nat}
  {h : Holdings} {record document edit reported motors : Entries} {x : Binary64}
  {outcome : Except Fault Entries}

/-- A search for the sid of a document gives it with the motors of the record of the sid. -/
theorem CatalogState.Paired.search_sid (hs : state.Paired collection h)
    (hrouter : router.KeepsSids serviceName)
    (hd : document ∈ state.documents.documents collection) (hx : document.IsDocument x)
    {r : MotorRecord} (hr : r ∈ state.motors.records)
    (hsame : (Value.float x).same r.sid = true) :
    (((embedded config router schema collection serviceName).search
      (.map [(sidKey, .float x)]) 0 0).run state).1 =
        .ok [document.set motorsKey (.map r.motors)] := by
  have hfind := hs.keyed.find_sid hd hx (hs.keyed.same_self hd hx)
  rw [hs.shows.records] at hr
  have hone : [document].length ≤ Statement.parameterLimit := Nat.succ_le_succ (Nat.zero_le _)
  rw [hs.search_documents rfl (hrouter.route x) hfind (Int.le_refl 0) (Int.le_refl 0), slice_zero,
    if_pos hone, List.filterMap_cons, hs.shows.sound.keyed.completed?_eq_some hx.get hr hsame]
  rfl

namespace Catalog

/-- What a search for the sid of a reported record gives: one record, which is the reported one
as the stores keep it. -/
structure FoundBySid (catalog : Catalog TableServer Collections)
    (state : CatalogState TableServer Collections) (reported found : Entries) : Prop where
  search : ((catalog.search (.map [(sidKey, reported.get sidKey)]) 0 0).run state).1 = .ok [found]
  asStored : ∀ t, found.get? (.text t) = reported.asStored.get? (.text t)

end Catalog

/-- The stores keep a reported record: its fields are those of a document, and its motors, as the
tables keep them, are those of the record of its sid. -/
structure CatalogState.Keeps (collection : Text) (state : CatalogState TableServer Collections)
    (reported positions document : Entries) (x : Binary64) : Prop where
  texts : reported.TextKeys
  distinct : reported.Distinct
  motors : reported.get? motorsKey = some (.map positions)
  mnemonics : positions.TextKeys
  once : positions.Distinct
  mem : document ∈ state.documents.documents collection
  isDocument : document.IsDocument x
  fields : ∀ t, Value.text t ≠ motorsKey → reported.get? (.text t) = document.get? (.text t)
  scan : ∃ r ∈ state.motors.records, (Value.float x).same r.sid = true ∧
    r.motors = Entries.mapValues Value.asStored positions

/-- The values of the documents are equal to themselves. -/
def CatalogState.Plain (collection : Text) (state : CatalogState TableServer Collections) : Prop :=
  ∀ d ∈ state.documents.documents collection, ∀ e ∈ d, e.2.same e.2 = true

/-- A record that the stores keep is found by its sid, and equal to what was reported just if its
positions are stored as they are. -/
theorem CatalogState.Keeps.found (hkeeps : state.Keeps collection reported motors document x)
    (hs : state.Paired collection h) (hplain : state.Plain collection)
    (hrouter : router.KeepsSids serviceName) :
    ∃ found, (embedded config router schema collection serviceName).FoundBySid state reported
        found ∧
      ((Value.map reported).same (.map found) = true ↔
        ∀ e ∈ motors, e.2.same e.2.asStored = true) := by
  obtain ⟨r, hr, hsame, hmotors⟩ := hkeeps.scan
  have hsid : reported.get sidKey = .float x := by
    unfold Entries.get
    rw [hkeeps.fields "sid" (by decide)]
    exact hkeeps.isDocument.get
  have hsearch : (((embedded config router schema collection serviceName).search
      (.map [(sidKey, .float x)]) 0 0).run state).1 =
        .ok [document.set motorsKey (.map r.motors)] :=
    hs.search_sid hrouter hkeeps.mem hkeeps.isDocument hr hsame
  have hasStored : ∀ t, (document.set motorsKey (.map r.motors)).get? (.text t) =
      reported.asStored.get? (.text t) := by
    intro t
    by_cases ht : Value.text t = motorsKey
    · rw [ht, Entries.get?_set_self, Entries.get?_asStored_motors hkeeps.motors, hmotors]
    · rw [Entries.get?_set_of_ne (Ne.symm ht), Entries.get?_asStored ht, hkeeps.fields t ht]
  refine ⟨_, ⟨by rw [hsid]; exact hsearch, hasStored⟩, ?_⟩
  refine Entries.same_asStored_iff hkeeps.texts hkeeps.distinct (hkeeps.isDocument.texts.set _ _)
    (hkeeps.isDocument.distinct.set _ _) hasStored hkeeps.motors hkeeps.mnemonics hkeeps.once
    fun t v ht hv => ?_
  rw [hkeeps.fields t ht] at hv
  exact hplain document hkeeps.mem _ (Entries.get?_eq_some_mem hv)

/-! ### What is reported -/

/-- A finite position is stored as it is, but for the sign of a zero. -/
theorem Value.float_same_asStored (hx : x.isFinite = true) :
    (Value.float x).same (Value.float x).asStored = true :=
  (Binary64.same_dropZeroSign x x).trans (Binary64.same_self_of_isFinite hx)

theorem Positions.toEntries_stored (ps : Positions) :
    ps.stored.toEntries = Entries.mapValues Value.asStored ps.toEntries := by
  unfold Positions.stored Positions.toEntries Entries.mapValues
  rw [List.map_map, List.map_map]
  rfl

namespace Catalog

/-- A record that is added is kept as it is reported. -/
theorem Added.keeps (hs : state.Paired collection h) (hrecord : record.IsRecord)
    (hadded : Added schema collection state h record (.ok reported) state') :
    ∃ positions document x, state'.Keeps collection reported positions document x ∧
      ∀ e ∈ positions, e.2.same e.2.asStored = true := by
  cases hadded with
  | @stored _ x ps hvalid _ hmotors hstored _ hdocuments hshows =>
    -- the positions are converted before the record is completed, and reported so
    obtain ⟨qs, hqs, -, hqsValid, -⟩ := Schema.motorsOf_of_validate hvalid hrecord
    obtain rfl := Positions.toEntries_injective (Except.ok.inj (hmotors.symm.trans hqs))
    have hdocument := Entries.documentOf_isDocument hrecord.texts hrecord.distinct x
    have hreal : x.same x = true := Holdings.same_self_of_addScan hshows.sound
    refine ⟨ps.toEntries, documentOf record x, x,
      { texts := hdocument.texts.set _ _
        distinct := hdocument.distinct.set _ _
        motors := Entries.get?_set_self _ _ _
        mnemonics := List.forall_mem_map.mpr fun p _ => ⟨p.1, rfl⟩
        once := hqsValid.distinctKeys
        mem := by
          rw [hdocuments]
          exact List.mem_append_right _ (List.mem_singleton_self _)
        isDocument := hdocument
        fields := fun t ht => Entries.get?_set_of_ne (Ne.symm ht)
        scan := ⟨⟨.float x.dropZeroSign, ps.stored.toEntries⟩, ?_,
          (Binary64.same_dropZeroSign x x).trans hreal, ps.toEntries_stored⟩ }, ?_⟩
    · rw [hshows.records, hs.shows.sound.records_insert]
      exact List.mem_append_right _ (List.mem_singleton_self _)
    · exact List.forall_mem_map.mpr fun p hp => Value.float_same_asStored (hqsValid.finite p hp)

/-- A record that is edited is kept with the motors that the edit is merged in as the tables keep
them. They are stored as they are reported just if those of the edit are. -/
theorem Edited.keeps (hs : state.Paired collection h) (hedit : edit.IsRecord)
    (hmnemonics : edit.motorChanges.TextKeys)
    (hedited : Edited schema collection state h edit (.ok reported) state') :
    ∃ positions document x, state'.Keeps collection reported positions document x ∧
      ((∀ e ∈ positions, e.2.same e.2.asStored = true) ↔ edit.ExactMotors) := by
  cases hedited with
  | @stored _ h' lookup document s x heditable hx _ hdocuments hshows _ _ hrecords =>
    obtain ⟨hsame, hreal⟩ :=
      hs.shows.sound.same_of_sid heditable.scan (heditable.belongs.sid_eq hx)
    obtain ⟨-, hmotors, -⟩ := Schema.permits_of_validate_merged hx hedit.texts hedit.distinct
      heditable.valid
    refine ⟨(h.positionsOf s.scanId).toEntries.update edit.motorChanges,
      document.update (Entries.plainChanges lookup edit), x,
      { texts := Entries.merged_textKeys hx hedit.texts _
        distinct := Entries.merged_distinct hx _ _
        motors := Entries.get?_merged_motors
        mnemonics := fun e he => (hmotors e he).imp fun _ ht => ht.1
        once := (positionsOf_distinct hs.shows.sound s.scanId).update _
        mem := ?_
        isDocument := hx.update (Entries.plainChanges_textKeys hedit.texts _)
          (Entries.plainChanges_sid _ _) (Entries.plainChanges_motors _ _)
        fields := fun t ht => ?_
        scan := ⟨⟨.float s.sid,
          (h.positionsOf s.scanId).toEntries.update edit.storedMotors⟩, ?_, ?_, ?_⟩ }, ?_⟩
    · rw [hdocuments]
      refine List.mem_map.mpr ⟨document, heditable.document_mem.1, if_pos ?_⟩
      rw [hx.get]
      exact hreal
    · rw [Entries.get?_merged hedit.distinct ht,
        Entries.get?_update _ (Entries.plainChanges_distinct hedit.distinct lookup)]
    · rw [hshows.records, hrecords]
      exact List.mem_map.mpr ⟨h.recordOf s, List.mem_map_of_mem heditable.scan, if_pos hsame⟩
    · exact (Binary64.same_comm x s.sid).trans hsame
    · exact (storedMotors_merged hs.unsigned s.scanId edit).symm
    · constructor
      · exact fun h e he => h e (Entries.mem_update_of_mem _ hmnemonics hedit.mnemonics he)
      · intro hexact e he
        rcases Entries.mem_update_value he with hold | ⟨c, hc, hvalue⟩
        · -- an old position is from the tables, so it is a finite number
          obtain ⟨p, -, rfl⟩ := List.mem_map.mp hold
          obtain ⟨_, -, -, hposition⟩ := hmotors _ he
          exact Value.float_same_asStored (Except.ok.inj hposition)
        · rw [hvalue]
          exact hexact c hc

/-- Documents stay equal to themselves when a record is added that is. -/
theorem Added.plain (hplain : state.Plain collection)
    (hself : ∀ e ∈ record, e.2.same e.2 = true)
    (hadded : Added schema collection state h record outcome state') :
    state'.Plain collection := by
  unfold CatalogState.Plain at hplain ⊢
  cases hadded with
  | @stored _ x ps _ _ _ _ _ hdocuments hshows =>
    rw [hdocuments, List.forall_mem_append, List.forall_mem_singleton]
    refine ⟨hplain, fun e he => ?_⟩
    rcases Entries.mem_set_value he with he | hvalue
    · exact hself e (List.mem_filter.mp he).1
    · rw [hvalue]
      exact Holdings.same_self_of_addScan hshows.sound
  | failed _ _ hdocuments =>
    rw [hdocuments]
    exact hplain

/-- They do so when an edit is made that is equal to itself. -/
theorem Edited.plain (hplain : state.Plain collection) (hself : ∀ e ∈ edit, e.2.same e.2 = true)
    (hedited : Edited schema collection state h edit outcome state') :
    state'.Plain collection := by
  unfold CatalogState.Plain at hplain ⊢
  cases hedited with
  | stored _ _ _ hdocuments =>
    rw [hdocuments, editedDocuments, List.forall_mem_map]
    intro d hd
    split
    · intro e he
      rcases Entries.mem_update_value he with he | ⟨c, hc, hvalue⟩
      · exact hplain d hd e he
      · rw [hvalue]
        exact hself c (List.mem_filter.mp (List.mem_filter.mp hc).1).1
    · exact hplain d hd
  | failed _ _ hdocuments =>
    rw [hdocuments]
    exact hplain

/-- A batch of one record does its task for it, and ends where that does. -/
theorem runBatch_singleton {σ : Type} (task : Entries → Action σ Entries) (record : Entries)
    (s : σ) : (runBatch task [record]).run s =
      (.ok (BatchResult.add { records := [], errors := [], total := 1 } 0 ((task record).run s).1),
        ((task record).run s).2) := by
  unfold runBatch runBatchFrom
  rw [run_bind, run_outcome]
  rfl

/-- What a batch of one record did that has one to report. -/
theorem run_of_runBatch_singleton {σ : Type} {task : Entries → Action σ Entries} {s s' : σ}
    {result : BatchResult} (hrun : (runBatch task [record]).run s = (.ok result, s'))
    (hresult : result.records = [reported]) : (task record).run s = (.ok reported, s') := by
  rw [runBatch_singleton] at hrun
  obtain ⟨hbatch, rfl⟩ := Prod.mk.inj hrun
  obtain rfl := Except.ok.inj hbatch
  refine Prod.ext ?_ rfl
  cases houtcome : ((task record).run s).1 with
  | error fault =>
    rw [houtcome] at hresult
    cases hresult
  | ok record =>
    rw [houtcome] at hresult
    exact congrArg _ (List.singleton_inj.mp hresult)

end Catalog

/-! ### Calls -/

namespace CatalogState

/-- A catalog by the calls that were made, from empty stores on: each adds the records of a body
or makes its edits, with success or not. -/
inductive Called (config : MotorsConfig) (router : Router) (schema : Schema)
    (collection serviceName : Text) : CatalogState TableServer Collections → Prop
  | connected {disk : Disk} (readings : List Int) {state : CatalogState TableServer Collections}
    (hdisk : disk.databases = [])
    (hrun : (embedded config router schema collection serviceName).connect.run
      ⟨⟨false, disk, none⟩, {}, .ofReadings readings⟩ = (.ok (), state)) :
    Called config router schema collection serviceName state
  | added {state state' : CatalogState TableServer Collections} {body : Value}
    {outcome : Except Fault BatchResult}
    (hs : Called config router schema collection serviceName state) (hbody : body.IsPlainBody)
    (hencodable : ∀ records, decodeRecords body = .ok records →
      ∀ r ∈ records, (Entries.get r motorsKey).EncodableKeys)
    (hrun : ((embedded config router schema collection serviceName).add body).run state =
      (outcome, state')) :
    Called config router schema collection serviceName state'
  | edited {state state' : CatalogState TableServer Collections} {body : Value}
    {outcome : Except Fault BatchResult}
    (hs : Called config router schema collection serviceName state) (hbody : body.IsPlainBody)
    (hencodable : ∀ edits, decodeRecords body = .ok edits →
      ∀ e ∈ edits, (Entries.get e motorsKey).EncodableKeys)
    (hrun : ((embedded config router schema collection serviceName).edit body).run state =
      (outcome, state')) :
    Called config router schema collection serviceName state'

/-- The records of a body of a call. -/
theorem isRecord_of_call {body : Value} {records : List Entries} (hbody : body.IsPlainBody)
    (hdecoded : decodeRecords body = .ok records)
    (hencodable : ∀ r ∈ records, (Entries.get r motorsKey).EncodableKeys) :
    ∀ r ∈ records, Entries.IsRecord r ∧ ∀ e ∈ r, e.2.same e.2 = true := by
  intro r hr
  have hrecord := isRecord_of_decodeRecords hbody.isBody hdecoded hencodable r hr
  exact ⟨hrecord, (Entries.map_same_self_iff hrecord.texts hrecord.distinct).mp
    (same_self_of_decodeRecords hbody hdecoded r hr)⟩

/-- Calls give their records one after the other, and what is stored is equal to itself. -/
theorem Called.reached (hs : state.Called config router schema collection serviceName) :
    ∃ n, state.Reached config router schema collection serviceName n ∧
      state.Plain collection := by
  induction hs with
  | connected readings hdisk hrun =>
    refine ⟨0, .connected readings hdisk hrun, ?_⟩
    have hdocuments := List.forall₂_nil_right_iff.mp (connect_eq_ok hdisk hrun).1.belong
    unfold Plain
    rw [hdocuments]
    exact nofun
  | added _ hbody hencodable hrun ih =>
    obtain ⟨n, hreached, hplain⟩ := ih
    refine (call_keeps (fun n s => Reached config router schema collection serviceName n s ∧
      s.Plain collection) ⟨hreached, hplain⟩
        (fun records hdecoded r hr n s outcome s' hkept hadd => ?_) hrun).imp' (n + ·) fun _ => id
    obtain ⟨hrecord, hself⟩ := isRecord_of_call hbody hdecoded (hencodable _ hdecoded) r hr
    obtain ⟨h, hpaired, -, -⟩ := hkept.1.paired
    exact ⟨hkept.1.added hrecord hadd, (addRecord_cases hpaired hrecord hadd).plain hkept.2 hself⟩
  | edited _ hbody hencodable hrun ih =>
    obtain ⟨n, hreached, hplain⟩ := ih
    refine (call_keeps (fun n s => Reached config router schema collection serviceName n s ∧
      s.Plain collection) ⟨hreached, hplain⟩
        (fun edits hdecoded e he n s outcome s' hkept hedit => ?_) hrun).imp' (n + ·) fun _ => id
    obtain ⟨hrecord, hself⟩ := isRecord_of_call hbody hdecoded (hencodable _ hdecoded) e he
    obtain ⟨h, hpaired, -, -⟩ := hkept.1.paired
    exact ⟨hkept.1.edited hrecord hedit,
      (editRecord_cases hpaired hrecord hedit).plain hkept.2 hself⟩

/-- A record that a call reports, given one, is the one record that a search for its sid gives,
but for its motors, which are found as the tables keep them. A record that is added is found
equal to the one reported. A record that is edited is so if and only if each position of the
edit is equal to what the tables keep of it. -/
theorem Called.reports_stored (hs : state.Called config router schema collection serviceName)
    (hrouter : router.KeepsSids serviceName) {body : Value} (hbody : body.IsPlainBody)
    (hdecoded : decodeRecords body = .ok [record])
    (hencodable : (record.get motorsKey).EncodableKeys) :
    (∀ result state' reported,
      ((embedded config router schema collection serviceName).add body).run state =
        (.ok result, state') → result.records = [reported] →
      ∃ found, (embedded config router schema collection serviceName).FoundBySid state' reported
          found ∧ (Value.map reported).same (.map found) = true) ∧
    ∀ result state' reported,
      ((embedded config router schema collection serviceName).edit body).run state =
        (.ok result, state') → result.records = [reported] →
      ∃ found, (embedded config router schema collection serviceName).FoundBySid state' reported
          found ∧ ((Value.map reported).same (.map found) = true ↔ record.ExactMotors) := by
  obtain ⟨n, hreached, hplain⟩ := hs.reached
  obtain ⟨h, hpaired, -, -⟩ := hreached.paired
  obtain ⟨hrecord, hself⟩ := isRecord_of_call hbody hdecoded
    (List.forall_mem_singleton.mpr hencodable) record (List.mem_singleton_self _)
  have hjson := isJson_of_decodeRecords hbody.isBody hdecoded record (List.mem_singleton_self _)
  refine ⟨fun result state' reported hrun hresult => ?_,
    fun result state' reported hrun hresult => ?_⟩
  · rw [add_run _ hdecoded] at hrun
    have hadded := addRecord_cases hpaired hrecord (run_of_runBatch_singleton hrun hresult)
    obtain ⟨h', hpaired', -⟩ := hadded.paired hpaired hrecord
    obtain ⟨positions, document, x, hkeeps, hexact⟩ := hadded.keeps hpaired hrecord
    obtain ⟨found, hfound, hsame⟩ := hkeeps.found hpaired' (hadded.plain hplain hself) hrouter
    exact ⟨found, hfound, hsame.mpr hexact⟩
  · rw [edit_run _ hdecoded] at hrun
    have hedited := editRecord_cases hpaired hrecord (run_of_runBatch_singleton hrun hresult)
    obtain ⟨h', hpaired', -⟩ := hedited.paired hpaired hrecord
    obtain ⟨positions, document, x, hkeeps, hexact⟩ :=
      hedited.keeps hpaired hrecord (Entries.motorChanges_textKeys hjson)
    obtain ⟨found, hfound, hsame⟩ := hkeeps.found hpaired' (hedited.plain hplain hself) hrouter
    exact ⟨found, hfound, hsame.trans hexact⟩

end CatalogState

namespace Catalog

theorem builtInRouter_keepsSids : builtInRouter.KeepsSids "SpecScans" :=
  ⟨⟨"SpecScans", "sid", .mongodb⟩, by decide, rfl⟩

/-- The text of the record of the scan at zero. -/
def oneText : Value := "\x7b\"start_time\": 0.0, \"motors\": \x7b\"b\": 0.0\x7d\x7d"

theorem decodeRecords_oneText : decodeRecords oneText = .ok [oneRecord] := by cbv

theorem withRecord_called :
    withRecord.Called .inMemory builtInRouter .empty "scans" "SpecScans" := by
  have hconnect : (inMemory.connect.run unconnected).1 = .ok () := by decide
  have hrun : (inMemory.add oneText).run fresh = (_, withRecord) :=
    (add_run inMemory decodeRecords_oneText fresh).trans (runBatch_singleton _ _ _)
  have hbody : oneText.IsPlainBody := trivial
  refine .added (.connected [] rfl (run_eq_of_fst hconnect)) hbody (fun records hdecoded => ?_) hrun
  obtain rfl := Except.ok.inj (hdecoded.symm.trans decodeRecords_oneText)
  exact List.forall_mem_singleton.mpr oneRecord_isRecord.encodable

/-- A text that adds the scan at one, or edits the scan at zero. -/
def unitText : Value := "\x7b\"sid\": 0, \"start_time\": 1, \"motors\": \x7b\"b\": 1\x7d\x7d"

/-- The record of that text. -/
def unitRecord : Entries :=
  [(sidKey, .int 0), (startTimeKey, .int 1), (motorsKey, .map [("b", .int 1)])]

theorem decodeRecords_unitText : decodeRecords unitText = .ok [unitRecord] := by cbv

end Catalog

/-- What both calls report of that text is found. -/
theorem CatalogState.Called.reports_stored_withRecord :
    (∃ reported found, ((inMemory.add unitText).run withRecord).1.map BatchResult.records =
        .ok [reported] ∧
      inMemory.FoundBySid ((inMemory.add unitText).run withRecord).2 reported found ∧
      (Value.map reported).same (.map found) = true) ∧
    ∃ reported found, ((inMemory.edit unitText).run withRecord).1.map BatchResult.records =
        .ok [reported] ∧
      inMemory.FoundBySid ((inMemory.edit unitText).run withRecord).2 reported found ∧
      (Value.map reported).same (.map found) = true := by
  have hencodable : (unitRecord.get motorsKey).EncodableKeys := by
    intro e he t ht
    rw [List.mem_singleton.mp he] at ht
    cases ht
    decide
  have hexact : unitRecord.ExactMotors := List.forall_mem_singleton.mpr (by decide +kernel)
  have hbody : unitText.IsPlainBody := trivial
  obtain ⟨hadds, hedits⟩ := CatalogState.Called.reports_stored withRecord_called
    builtInRouter_keepsSids hbody decodeRecords_unitText hencodable
  have hadded : ((inMemory.add unitText).run withRecord).1.map (·.records.length) = .ok 1 := by
    rw [add_run inMemory decodeRecords_unitText]
    decide +kernel
  have hedited : ((inMemory.edit unitText).run withRecord).1.map (·.records.length) = .ok 1 := by
    rw [edit_run inMemory decodeRecords_unitText]
    decide +kernel
  constructor
  · obtain ⟨result, hresult, hlength⟩ := Outcome.map_eq_ok.mp hadded
    obtain ⟨reported, hreported⟩ := List.length_eq_one_iff.mp hlength
    obtain ⟨found, hfound, hsame⟩ := hadds _ _ _ (run_eq_of_fst hresult) hreported
    exact ⟨reported, found, Outcome.map_eq_ok.mpr ⟨result, hresult, hreported⟩, hfound, hsame⟩
  · obtain ⟨result, hresult, hlength⟩ := Outcome.map_eq_ok.mp hedited
    obtain ⟨reported, hreported⟩ := List.length_eq_one_iff.mp hlength
    obtain ⟨found, hfound, hsame⟩ := hedits _ _ _ (run_eq_of_fst hresult) hreported
    exact ⟨reported, found, Outcome.map_eq_ok.mpr ⟨result, hresult, hreported⟩, hfound,
      hsame.mpr hexact⟩

namespace Catalog

/-- A text that edits the scan at zero, with a position that is no binary64 number. -/
def wideText : Value := "\x7b\"sid\": 0, \"motors\": \x7b\"b\": 9007199254740993\x7d\x7d"

/-- What is reported of that edit. -/
def wideRecord : Entries :=
  [(startTimeKey, .float .zero), (sidKey, .float .zero),
    (motorsKey, .map [("b", .int 9007199254740993)])]

theorem decodeRecords_wideText : decodeRecords wideText =
    .ok [[(sidKey, .int 0), (motorsKey, .map [("b", .int 9007199254740993)])]] := by cbv

/-- The one record that is found is not equal to the one that is reported. -/
theorem wideText_reports_other :
    ((inMemory.edit wideText).run withRecord).1.map BatchResult.records = .ok [wideRecord] ∧
      ((inMemory.search (.map [(sidKey, wideRecord.get sidKey)]) 0 0).run
        ((inMemory.edit wideText).run withRecord).2).1.map (fun found => found.map fun record =>
          (Value.map wideRecord).same (.map record)) = .ok [false] := by
  rw [edit_run inMemory decodeRecords_wideText]
  exact ⟨by decide +kernel, by decide +kernel⟩

end Catalog

end ScanCatalog
