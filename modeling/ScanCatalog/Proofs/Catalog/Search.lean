import ScanCatalog.Proofs.Catalog.Join
import ScanCatalog.Proofs.Document.Find
import ScanCatalog.Proofs.Motor.Failures
import ScanCatalog.Proofs.Motor.Sessions
import ScanCatalog.Search

/-!
# What a search finds

Whatever backends a search asks and in which order, it finds the same: of the documents
that satisfy their part of the filter, those whose scan satisfies the other part, each
with the motors of that scan.

## Main definitions

* `Catalog.embedded`: a catalog with its motors in tables and its documents in memory;
* `Session.Changed`: a session after any changes, whether they failed or not;
* `Catalog.Fulfils`: a search that completes what a split filter asks for.

## Main statements

* `Catalog.searchExpression_eq_ok`: what a search finds.
-/

namespace ScanCatalog

open ScanCatalog.Action MotorStore

/-- A catalog whose motors are kept in tables and whose documents are kept in memory. -/
def Catalog.embedded (config : MotorsConfig) (router : Router) (schema : Schema)
    (collection serviceName : Text) : Catalog TableServer Collections where
  motorStore := onTables config
  documentStore := Collections.store
  router := router
  schema := schema
  collection := collection
  serviceName := serviceName

namespace Session

/-- A session of a store after changes in any order and with any outcome, from a disk without
databases. -/
inductive Changed (config : MotorsConfig) : Session TableServer → Prop
  | connected {disk : Disk} {session : Session TableServer} (hdisk : disk.databases = [])
    (hrun : (onTables config).connect.run ⟨false, disk, none⟩ = (.ok (), session)) :
    Changed config session
  | inserted {session : Session TableServer} (hs : Changed config session) (sid : Binary64)
    {motors : Value} (hdistinct : motors.DistinctKeys) :
    Changed config (((onTables config).insert (.float sid) motors).run session).2
  | replaced {session : Session TableServer} (hs : Changed config session) (sid : Binary64)
    {motors : Value} (hdistinct : motors.DistinctKeys) :
    Changed config (((onTables config).replaceMotors (.float sid) motors).run session).2

variable {config : MotorsConfig} {session : Session TableServer} {h k : Holdings}

/-- The tables always hold something sound, also when a failed change left rows behind. -/
theorem Changed.shows (hs : session.Changed config) : ∃ h k, session.Shows h k := by
  induction hs with
  | connected hdisk hrun => exact ⟨{}, {}, connect_shows hdisk hrun⟩
  | inserted _ sid hdistinct ih =>
    obtain ⟨h, k, hshows⟩ := ih
    rcases hshows.insert hdistinct sid rfl with ⟨_, -, -, -, hshows'⟩ | ⟨_, left, -, hshows', -⟩
    · exact ⟨_, _, hshows'⟩
    · exact ⟨left, k, hshows'⟩
  | replaced _ sid hdistinct ih =>
    obtain ⟨h, k, hshows⟩ := ih
    rcases hshows.replaceMotors hdistinct sid rfl with
      ⟨_, _, -, -, -, -, hshows'⟩ | ⟨_, left, -, hshows', -⟩
    · exact ⟨_, _, hshows'⟩
    · exact ⟨left, k, hshows'⟩

end Session

namespace Entries

/-- A document whose sid is a finite number, unless it has none. -/
def FiniteSid (document : Entries) : Prop :=
  ∀ sid, document.get? sidKey = some sid → ∃ x : Binary64, sid = .float x ∧ x.isFinite = true

/-- A document whose sid is a number that is equal to itself, unless it has none. -/
def RealSid (document : Entries) : Prop :=
  document.get sidKey = .null ∨ (document.get sidKey).IsSid

variable {document : Entries}

theorem FiniteSid.realSid (hd : document.FiniteSid) : document.RealSid := by
  unfold RealSid Entries.get
  cases hsid : document.get? sidKey with
  | none => exact .inl rfl
  | some sid =>
    obtain ⟨x, rfl, hx⟩ := hd sid hsid
    exact .inr ⟨x, rfl, Binary64.same_self_of_isFinite hx⟩

theorem RealSid.isHashable (hd : document.RealSid) :
    (document.get sidKey).isHashable = true := by
  rcases hd with hsid | ⟨x, hsid, -⟩
  · rw [hsid]
    rfl
  · rw [hsid]
    rfl

/-- Records that a document does not join may be left out. -/
theorem completed?_filter {records : List MotorRecord} {condition : MotorRecord → Bool}
    (h : ∀ r ∈ records, (document.get sidKey).same r.sid = true → condition r = true) :
    document.completed? (records.filter condition) = document.completed? records := by
  unfold completed?
  rw [← List.head?_filter, ← List.head?_filter, List.filter_filter]
  refine congrArg _ (congrArg _ (List.filter_congr fun r hr => ?_))
  cases hsame : (document.get sidKey).same r.sid with
  | false => rw [Bool.false_and]
  | true => rw [h r hr hsame, Bool.and_true]

theorem completed?_eq_none {records : List MotorRecord}
    (h : ∀ r ∈ records, (document.get sidKey).same r.sid = false) :
    document.completed? records = none := by
  unfold completed?
  rw [Option.map_eq_none_iff, List.find?_eq_none]
  exact fun r hr => Bool.eq_false_iff.mp (h r hr)

end Entries

theorem Holdings.Sound.keyed {h : Holdings} (hs : h.Sound) : MotorRecord.Keyed h.records where
  real := by
    intro r hr
    obtain ⟨s, -, rfl⟩ := List.mem_map.mp hr
    exact ⟨s.sid, rfl⟩
  distinct := List.pairwise_map.mpr hs.sids

/-- What a search goes by: the documents, and the scans that the motor tables hold. -/
structure Stores where
  collections : Collections
  scans : Holdings

namespace Catalog

variable {config : MotorsConfig} {router : Router} {schema : Schema}
  {collection serviceName : Text}

/-! ### Parts of a list -/

theorem slice_zero {α : Type} (items : List α) : slice items 0 0 = items := by
  simp [slice, positionIn]

theorem slice_sublist {α : Type} (items : List α) (offset limit : Int) :
    (slice items offset limit).Sublist items := by
  unfold slice
  split
  · exact List.drop_sublist _ _
  · exact (List.take_sublist _ _).trans (List.drop_sublist _ _)

theorem mem_of_mem_slice {α : Type} {items : List α} {offset limit : Int} {a : α}
    (h : a ∈ slice items offset limit) : a ∈ items :=
  (slice_sublist items offset limit).subset h

theorem slice_nil {α : Type} (offset limit : Int) : slice ([] : List α) offset limit = [] := by
  simp [slice]

theorem filterMap_filter_of_none {α β : Type} {f : α → Option β} {p : α → Bool} {items : List α}
    (h : ∀ a ∈ items, p a = false → f a = none) :
    (items.filter p).filterMap f = items.filterMap f := by
  rw [List.filterMap_filter]
  refine List.filterMap_congr fun a ha => ?_
  cases hp : p a with
  | true => rfl
  | false => exact (h a ha hp).symm

/-! ### What the stores answer -/

/-- The documents that satisfy a query, from an offset on and up to a limit. -/
theorem documents_run (query : Entries) (offset limit : Int)
    (state : CatalogState TableServer Collections) :
    ((embedded config router schema collection serviceName).documents query offset limit).run state =
      ((findDocuments query (state.documents.documents collection)).map fun found =>
        slice found offset limit, state) := by
  change (onDocuments (Collections.store.get collection query offset limit)).run state = _
  rw [onDocuments, run_zoom]
  have hget : (Collections.store.get collection query offset limit).run state.documents =
      ((findDocuments query (state.documents.documents collection)).map fun found =>
        slice found offset limit, state.documents) := by
    change (Collections.find collection query >>= fun found =>
      Action.pure (slice found offset limit)).run state.documents = _
    have hfind : (Collections.find collection query).run state.documents =
        (findDocuments query (state.documents.documents collection), state.documents) := rfl
    rw [run_bind, hfind]
    cases findDocuments query (state.documents.documents collection) <;> rfl
  rw [hget]

/-- A state with the documents of some stores, whose motor tables hold their scans now. -/
def Offers (state : CatalogState TableServer Collections) (stores : Stores) : Prop :=
  state.documents = stores.collections ∧ ∃ k, state.motors.Shows stores.scans k

variable {stores : Stores}

theorem documents_leads (query : Entries) (offset limit : Int) :
    Leads Offers
      ((embedded config router schema collection serviceName).documents query offset limit) stores
      ((findDocuments query (stores.collections.documents collection)).map fun found =>
        slice found offset limit) stores := by
  intro state hs
  refine ⟨state, ?_, hs⟩
  rw [documents_run, hs.1]

/-- A page of the documents that are found. -/
theorem documents_leads_of_find {query : Entries} {found : List Entries}
    (hfind : findDocuments query (stores.collections.documents collection) = .ok found)
    (offset limit : Int) :
    Leads Offers
      ((embedded config router schema collection serviceName).documents query offset limit) stores
      (.ok (slice found offset limit)) stores := by
  have hleads : Leads Offers
      ((embedded config router schema collection serviceName).documents query offset limit) stores
      _ stores := documents_leads query offset limit
  rwa [hfind] at hleads

/-- The documents that satisfy a query can be found, if a page of them is given. -/
theorem findDocuments_of_documents_run {state state' : CatalogState TableServer Collections}
    {query : Entries} {offset limit : Int} {page : List Entries} (hs : Offers state stores)
    (hrun : ((embedded config router schema collection serviceName).documents query offset
      limit).run state = (.ok page, state')) :
    ∃ found, findDocuments query (stores.collections.documents collection) = .ok found := by
  obtain ⟨hpage, -⟩ := (documents_leads query offset limit).outcome_eq hs hrun
  obtain ⟨found, hfound, -⟩ := Outcome.map_eq_ok.mp hpage.symm
  exact ⟨found, hfound⟩

/-- What a question to the motor tables leads to. -/
theorem onMotors_leads {α : Type} {action : Action (Session TableServer) α} {a : α}
    (h : ∀ session k, session.Shows stores.scans k → ∃ session' k',
      action.run session = (.ok a, session') ∧ session'.Shows stores.scans k') :
    Leads Offers (onMotors action) stores (.ok a) stores := by
  intro state hs
  obtain ⟨hcollections, k, hshows⟩ := hs
  obtain ⟨session, k', hrun, hshows'⟩ := h _ k hshows
  refine ⟨{ state with motors := session }, ?_, hcollections, k', hshows'⟩
  rw [onMotors, run_zoom, hrun]

theorem bySids_leads {sids : List Value} (hsids : ∀ v ∈ sids, v.IsReal)
    (hcount : sidCount sids ≤ Statement.parameterLimit) :
    Leads Offers (onMotors ((onTables config).bySids sids)) stores
      (.ok (stores.scans.records.filter fun r => sids.any fun sid => r.sid.same sid)) stores := by
  refine onMotors_leads fun session k hs => ?_
  obtain ⟨session', k', hrun, hshows, -⟩ := hs.bySids config hsids hcount
  exact ⟨session', k', hrun, hshows⟩

variable {state state' : CatalogState TableServer Collections} {results found : List Entries}
  {scans : List MotorRecord}

/-- The motor tables cannot be asked for too many sids. -/
theorem bySids_tooMany (hs : Offers state stores) {sids : List Value}
    (hsids : ∀ v ∈ sids, v.IsReal) (hcount : Statement.parameterLimit < sidCount sids) :
    ∃ t, (onMotors ((onTables config).bySids sids)).run state = (.error tooManySids, t) := by
  obtain ⟨-, k, hshows⟩ := hs
  obtain ⟨session, hrun, -⟩ := hshows.bySids_tooMany config hsids hcount
  refine ⟨{ state with motors := session }, ?_⟩
  rw [onMotors, run_zoom, hrun]

/-- The motor records of the terms of the motor tables are those that satisfy the queries of
the terms, and they are found again. -/
theorem motorRecords_leads (hs : Offers state stores) {terms : Terms}
    (hrun : ((embedded config router schema collection serviceName).motorRecords terms).run state =
      (.ok scans, state')) :
    ∃ queries, compileTerms terms = .ok queries ∧
      scans = (stores.scans.records.filter fun r => ∀ query ∈ queries, query.Holds r.motors) ∧
      Leads Offers ((embedded config router schema collection serviceName).motorRecords terms)
        stores (.ok scans) stores := by
  obtain ⟨-, k, hshows⟩ := hs
  obtain ⟨queries, _, hcompileRun, hasked⟩ := run_bind_eq_ok.mp hrun
  obtain ⟨hcompile, rfl⟩ := run_ofExcept_eq hcompileRun
  obtain ⟨session, hmotors, -⟩ := run_zoom_eq hasked
  obtain ⟨hencodable, hlimits⟩ := hshows.asks_of_byQueries_eq_ok hmotors
  have hcompiled := compileTerms_compiled hcompile
  obtain ⟨_, hanswer, -⟩ := hshows.byQueries config hcompiled hencodable hlimits
  obtain ⟨hscans, -⟩ := Prod.mk.inj (hmotors.symm.trans hanswer)
  cases hscans
  have hquestion : Leads Offers (onMotors ((onTables config).byQueries queries)) stores _ stores :=
    onMotors_leads fun session k hs => by
      obtain ⟨session', hanswer, hshows'⟩ := hs.byQueries config hcompiled hencodable hlimits
      exact ⟨session', _, hanswer, hshows'⟩
  have hcompiles : Leads Offers (Action.ofExcept (compileTerms terms)) stores (.ok queries) stores :=
    hcompile ▸ Leads.ofExcept _
  exact ⟨queries, hcompile, rfl, hcompiles.bind hquestion⟩

/-! ### The strategies -/

/-- Documents of which no more sids are different than a statement can have parameters. -/
def Askable (documents : List Entries) : Prop :=
  sidCount (sidsOf documents) ≤ Statement.parameterLimit

/-- A search that cuts `found` to a page, and completes the documents of the page by the motors of
some scans, unless it does not admit the page. What it admits it admits a part of. -/
structure Completes
    (search : Int → Int → Action (CatalogState TableServer Collections) (List Entries))
    (stores : Stores) (admits : List Entries → Prop) (found : List Entries)
    (scans : List MotorRecord) : Prop where
  part : ∀ {page others : List Entries}, page.Sublist others → others.Sublist found →
    admits others → admits page
  answers : ∀ offset limit : Int, admits (slice found offset limit) →
    Leads Offers (search offset limit) stores
      (.ok ((slice found offset limit).filterMap fun d => d.completed? scans)) stores
  refuses : ∀ offset limit : Int, ¬ admits (slice found offset limit) →
    ∀ state, Offers state stores → ∃ fault t, (search offset limit).run state = (.error fault, t)

/-- A page that is given is admitted, and has the documents that are left, completed. -/
theorem Completes.eq_of_run
    {search : Int → Int → Action (CatalogState TableServer Collections) (List Entries)}
    {admits : List Entries → Prop} {offset limit : Int}
    (hsearch : Completes search stores admits found scans) (hs : Offers state stores)
    (hrun : (search offset limit).run state = (.ok results, state')) :
    admits (slice found offset limit) ∧
      results = (slice found offset limit).filterMap fun d => d.completed? scans := by
  by_cases hadmits : admits (slice found offset limit)
  · exact ⟨hadmits, Except.ok.inj ((hsearch.answers offset limit hadmits).outcome_eq hs hrun).1⟩
  · obtain ⟨fault, t, hrefused⟩ := hsearch.refuses offset limit hadmits state hs
    cases hrefused.symm.trans hrun

/-- A search that admits every page. -/
theorem Completes.of_leads
    {search : Int → Int → Action (CatalogState TableServer Collections) (List Entries)}
    (h : ∀ offset limit : Int, Leads Offers (search offset limit) stores
      (.ok ((slice found offset limit).filterMap fun d => d.completed? scans)) stores) :
    Completes search stores (fun _ => True) found scans where
  part _ _ _ := trivial
  answers offset limit _ := h offset limit
  refuses _ _ hnot := absurd trivial hnot

/-- Something that is found out before does not change what is completed. -/
theorem Completes.after {α : Type} {first : Action (CatalogState TableServer Collections) α}
    {next : α → Int → Int → Action (CatalogState TableServer Collections) (List Entries)} {a : α}
    {admits : List Entries → Prop} (hnext : Completes (next a) stores admits found scans)
    (hfirst : Leads Offers first stores (.ok a) stores) :
    Completes (fun offset limit => first >>= fun a => next a offset limit) stores admits found
      scans where
  part := hnext.part
  answers offset limit hadmits := hfirst.bind (hnext.answers offset limit hadmits)
  refuses offset limit hnot state hs := by
    obtain ⟨s, hrun, hs⟩ := hfirst state hs
    obtain ⟨fault, t, hrefused⟩ := hnext.refuses offset limit hnot s hs
    refine ⟨fault, t, ?_⟩
    rw [run_bind, hrun]
    exact hrefused

theorem isSid_of_mem_sidsOf {documents : List Entries} (hdocuments : ∀ d ∈ documents, d.RealSid) :
    ∀ v ∈ sidsOf documents, v.IsSid := by
  intro v hv
  obtain ⟨hv, hnull⟩ := List.mem_filter.mp hv
  obtain ⟨d, hd, rfl⟩ := List.mem_map.mp hv
  rcases hdocuments d hd with hsid | hsid
  · rw [hsid] at hnull
    cases hnull
  · exact hsid

/-- What is asked for some documents can be asked for a part of them. -/
theorem Askable.sublist {documents page : List Entries} (h : Askable documents)
    (hpage : page.Sublist documents) (hdocuments : ∀ d ∈ documents, d.RealSid) : Askable page :=
  Nat.le_trans (sidCount_mono (isSid_of_mem_sidsOf hdocuments)
    ((hpage.map _).filter _).subset) h

theorem sublist_of_findDocuments {query : Entries} {documents : List Entries}
    (hfind : findDocuments query documents = .ok found) : found.Sublist documents := by
  rw [findDocuments_eq_ok hfind]
  exact List.filter_sublist

theorem realSid_of_findDocuments {query : Entries} {documents : List Entries}
    (hdocuments : ∀ d ∈ documents, d.RealSid) (hfind : findDocuments query documents = .ok found) :
    ∀ d ∈ found, d.RealSid :=
  fun d hd => hdocuments d ((sublist_of_findDocuments hfind).subset hd)

/-- Documents of too many sids are not completed. -/
theorem searchDocuments_tooMany (hs : Offers state stores)
    (hdocuments : ∀ d ∈ stores.collections.documents collection, d.RealSid) {query : Entries}
    (hfind : findDocuments query (stores.collections.documents collection) = .ok found)
    {offset limit : Int} (hpage : ¬ Askable (slice found offset limit)) :
    ∃ t, ((embedded config router schema collection serviceName).searchDocuments query offset
      limit).run state = (.error tooManySids, t) := by
  have hreal : ∀ v ∈ sidsOf (slice found offset limit), v.IsReal := fun v hv =>
    (isSid_of_mem_sidsOf (fun d hd => realSid_of_findDocuments hdocuments hfind d
      (mem_of_mem_slice hd)) v hv).isReal
  have hdocumentsLeads : Leads Offers ((embedded config router schema collection
      serviceName).documents query offset limit) stores _ stores :=
    documents_leads_of_find hfind offset limit
  obtain ⟨s, hdocumentsRun, hoffers⟩ := hdocumentsLeads state hs
  have hasked : ∃ t, (onMotors ((embedded config router schema collection
      serviceName).motorStore.bySids (sidsOf (slice found offset limit)))).run s =
        (.error tooManySids, t) := bySids_tooMany hoffers hreal (Nat.lt_of_not_le hpage)
  obtain ⟨t, hasked⟩ := hasked
  refine ⟨t, ?_⟩
  unfold searchDocuments
  rw [run_bind, hdocumentsRun]
  dsimp only
  rw [run_bind, hasked]

/-- Documents that are found are completed by the motors of the scans of their sids. -/
theorem searchDocuments_completes (hsound : stores.scans.Sound)
    (hdocuments : ∀ d ∈ stores.collections.documents collection, d.RealSid) {query : Entries}
    (hfind : findDocuments query (stores.collections.documents collection) = .ok found) :
    Completes ((embedded config router schema collection serviceName).searchDocuments query)
      stores Askable found stores.scans.records where
  part hpage hothers haskable := haskable.sublist hpage fun d hd =>
    realSid_of_findDocuments hdocuments hfind d (hothers.subset hd)
  refuses offset limit hpage state hs := ⟨_, searchDocuments_tooMany hs hdocuments hfind hpage⟩
  answers offset limit haskable := by
    generalize hpage : slice found offset limit = page at haskable
    have hsids : ∀ d ∈ page, d.RealSid := fun d hd =>
      realSid_of_findDocuments hdocuments hfind d (mem_of_mem_slice (hpage ▸ hd))
    have hreal : ∀ v ∈ sidsOf page, v.IsReal := fun v hv => (isSid_of_mem_sidsOf hsids v hv).isReal
    have hjoin : join page (stores.scans.records.filter fun r =>
        (sidsOf page).any fun sid => r.sid.same sid) =
          .ok (page.filterMap fun d => d.completed? stores.scans.records) := by
      rw [join_keyed (hsound.keyed.filter _) fun d hd => (hsids d hd).isHashable]
      refine congrArg _ (List.filterMap_congr fun d hd => Entries.completed?_filter ?_)
      intro r hr hsame
      -- the sid of a document that joins a record is among those that were asked for
      obtain ⟨y, hy⟩ := hsound.keyed.real r hr
      rcases hsids d hd with hsid | ⟨x, hsid, -⟩
      · rw [hsid, hy] at hsame
        cases hsame
      · refine List.any_eq_true.mpr
          ⟨d.get sidKey, List.mem_filter.mpr ⟨List.mem_map_of_mem hd, ?_⟩, ?_⟩
        · rw [hsid]
          rfl
        · rw [Value.same_comm_of_isReal ⟨y, hy⟩ ⟨x, hsid⟩]
          exact hsame
    have hdocumentsLeads : Leads Offers ((embedded config router schema collection
        serviceName).documents query offset limit) stores (.ok page) stores :=
      hpage ▸ documents_leads_of_find hfind offset limit
    rw [← hjoin]
    exact hdocumentsLeads.bind ((bySids_leads hreal haskable).bind (Leads.ofExcept _))

/-- A page of documents, completed by scans that were found before. -/
theorem joinPage_leads (hkeyed : MotorRecord.Keyed scans)
    (hdocuments : ∀ d ∈ stores.collections.documents collection, d.RealSid) {query : Entries}
    (hfind : findDocuments query (stores.collections.documents collection) = .ok found)
    (offset limit : Int) :
    Leads Offers ((embedded config router schema collection serviceName).documents query
        offset limit >>= fun documents => Action.ofExcept (join documents scans)) stores
      (.ok ((slice found offset limit).filterMap fun d => d.completed? scans)) stores := by
  have hhashable : ∀ d ∈ slice found offset limit, (Entries.get d sidKey).isHashable = true := by
    intro d hd
    have hd := mem_of_mem_slice hd
    rw [findDocuments_eq_ok hfind] at hd
    exact (hdocuments d (List.mem_filter.mp hd).1).isHashable
  rw [← join_keyed hkeyed hhashable]
  exact (documents_leads_of_find hfind offset limit).bind (Leads.ofExcept _)

/-- A document that joins one of some records has its sid among theirs. -/
theorem completed?_eq_none_of_not_satisfies {document : Entries}
    {records : List MotorRecord} (hkeyed : MotorRecord.Keyed records)
    (hnot : ¬ document.Satisfies (sidAmong (records.map (·.sid)))) :
    document.completed? records = none := by
  refine Entries.completed?_eq_none fun r hr => Bool.eq_false_iff.mpr fun hsame => hnot ?_
  obtain ⟨y, hy⟩ := hkeyed.real r hr
  unfold Entries.Satisfies sidAmong
  rw [satisfies_sidAmong]
  unfold Entries.get at hsame
  cases hsid : document.get? sidKey with
  | none =>
    rw [hsid, hy] at hsame
    cases hsame
  | some sid =>
    rw [hsid] at hsame
    have hmem : sid.isIn (records.map (·.sid)) = true :=
      List.any_eq_true.mpr ⟨r.sid, List.mem_map_of_mem hr, hsame⟩
    rw [Option.any_some, hmem]

/-- A search that fulfils a split filter on some documents: it cuts documents of them to a page
and completes them by the scans that the filter asks for, if it admits the page. The documents that
it finds need not be those that satisfy the filter, but without paging the completed ones are the
same. -/
def Fulfils (search : Int → Int → Action (CatalogState TableServer Collections) (List Entries))
    (stores : Stores) (documents : List Entries) (routed : Routed) : Prop :=
  ∃ queries found admits, compileTerms routed.sql = .ok queries ∧ found.Sublist documents ∧
    Completes search stores admits found
      (stores.scans.records.filter fun r => ∀ query ∈ queries, query.Holds r.motors) ∧
    (found.filterMap fun d => d.completed?
        (stores.scans.records.filter fun r => ∀ query ∈ queries, query.Holds r.motors)) =
      (documents.filter fun d => d.Satisfies routed.mongodb.toDocumentQuery).filterMap fun d =>
        d.completed?
          (stores.scans.records.filter fun r => ∀ query ∈ queries, query.Holds r.motors)

/-- Without terms for the motor tables a search starts from the documents. -/
theorem searchDocuments_fulfils (hs : Offers state stores)
    (hdocuments : ∀ d ∈ stores.collections.documents collection, d.RealSid) {mongodb : Terms}
    {unowned : List Text} {offset limit : Int}
    (hrun : ((embedded config router schema collection serviceName).searchDocuments
      mongodb.toDocumentQuery offset limit).run state = (.ok results, state')) :
    Fulfils ((embedded config router schema collection serviceName).searchDocuments
        mongodb.toDocumentQuery) stores (stores.collections.documents collection)
      ⟨[], mongodb, unowned⟩ := by
  obtain ⟨_, hshows⟩ := hs.2
  have hall : stores.scans.records.filter (fun r => ∀ query ∈ ([] : List PositionQuery),
      query.Holds r.motors) = stores.scans.records := List.filter_eq_self.mpr fun r _ => by simp
  obtain ⟨_, _, hdocumentsRun, -⟩ := run_bind_eq_ok.mp hrun
  obtain ⟨found, hfind⟩ := findDocuments_of_documents_run hs hdocumentsRun
  refine ⟨[], found, Askable, rfl, sublist_of_findDocuments hfind, ?_,
    by rw [findDocuments_eq_ok hfind]⟩
  rw [hall]
  exact searchDocuments_completes hshows.sound hdocuments hfind

/-- With terms for the motor tables alone, the documents are those of the sids of the scans. -/
theorem relationalOnly_fulfils (hs : Offers state stores)
    (hdocuments : ∀ d ∈ stores.collections.documents collection, d.RealSid) {term : Text × Filter}
    {terms : Terms} {unowned : List Text} {offset limit : Int}
    (hrun : ((embedded config router schema collection serviceName).searchRouted
      ⟨term :: terms, [], unowned⟩ offset limit).run state = (.ok results, state')) :
    Fulfils ((embedded config router schema collection serviceName).searchRouted
        ⟨term :: terms, [], unowned⟩) stores (stores.collections.documents collection)
      ⟨term :: terms, [], unowned⟩ := by
  obtain ⟨_, hshows⟩ := hs.2
  obtain ⟨scans, t, hmotors, hrun⟩ := run_bind_eq_ok.mp hrun
  obtain ⟨queries, hcompile, hscans, hleads⟩ := motorRecords_leads hs hmotors
  have hkeyed : MotorRecord.Keyed scans := hscans ▸ hshows.sound.keyed.filter _
  have hsatisfied : (stores.collections.documents collection).filter (fun d =>
      d.Satisfies (Terms.toDocumentQuery [])) = stores.collections.documents collection :=
    List.filter_eq_self.mpr fun d _ => decide_eq_true d.satisfies_nil
  refine ⟨queries, ?_⟩
  rw [hsatisfied, ← hscans]
  by_cases hempty : scans.isEmpty = true
  · -- without scans no document is asked for
    refine ⟨[], fun _ => True, hcompile, List.nil_sublist _,
      .of_leads fun offset limit => hleads.bind ?_, ?_⟩
    · rw [if_pos hempty, slice_nil]
      exact Leads.pure []
    · rw [List.isEmpty_iff.mp hempty]
      exact (List.filterMap_eq_nil_iff.mpr fun d _ => rfl).symm
  · rw [if_neg hempty] at hrun
    obtain ⟨_, _, hdocumentsRun, -⟩ := run_bind_eq_ok.mp hrun
    obtain ⟨found, hfind⟩ :=
      findDocuments_of_documents_run (hleads.outcome_eq hs hmotors).2 hdocumentsRun
    refine ⟨found, fun _ => True, hcompile, sublist_of_findDocuments hfind,
      .of_leads fun offset limit => hleads.bind ?_, ?_⟩
    · rw [if_neg hempty]
      exact joinPage_leads hkeyed hdocuments hfind offset limit
    · rw [findDocuments_eq_ok hfind]
      refine filterMap_filter_of_none fun d _ hnot => ?_
      exact completed?_eq_none_of_not_satisfies hkeyed (of_decide_eq_false hnot)

/-- With terms for both stores, each is asked for its own. -/
theorem both_fulfils (hs : Offers state stores)
    (hdocuments : ∀ d ∈ stores.collections.documents collection, d.RealSid)
    {term term' : Text × Filter} {terms terms' : Terms} {unowned : List Text} {offset limit : Int}
    (hrun : ((embedded config router schema collection serviceName).searchRouted
      ⟨term :: terms, term' :: terms', unowned⟩ offset limit).run state = (.ok results, state')) :
    Fulfils ((embedded config router schema collection serviceName).searchRouted
        ⟨term :: terms, term' :: terms', unowned⟩) stores
      (stores.collections.documents collection) ⟨term :: terms, term' :: terms', unowned⟩ := by
  obtain ⟨_, hshows⟩ := hs.2
  obtain ⟨scans, t, hmotors, hrun⟩ := run_bind_eq_ok.mp hrun
  obtain ⟨queries, hcompile, hscans, hleads⟩ := motorRecords_leads hs hmotors
  have hkeyed : MotorRecord.Keyed scans := hscans ▸ hshows.sound.keyed.filter _
  obtain ⟨_, _, hdocumentsRun, -⟩ := run_bind_eq_ok.mp hrun
  obtain ⟨found, hfind⟩ :=
    findDocuments_of_documents_run (hleads.outcome_eq hs hmotors).2 hdocumentsRun
  refine ⟨queries, found, fun _ => True, hcompile, sublist_of_findDocuments hfind, ?_,
    by rw [findDocuments_eq_ok hfind]⟩
  rw [← hscans]
  exact .of_leads fun offset limit =>
    hleads.bind (joinPage_leads hkeyed hdocuments hfind offset limit)

/-- All strategies fulfil a split filter, whichever store they ask first. -/
theorem searchRouted_fulfils (hs : Offers state stores)
    (hdocuments : ∀ d ∈ stores.collections.documents collection, d.RealSid) {routed : Routed}
    {offset limit : Int}
    (hrun : ((embedded config router schema collection serviceName).searchRouted routed offset
      limit).run state = (.ok results, state')) :
    Fulfils ((embedded config router schema collection serviceName).searchRouted routed) stores
      (stores.collections.documents collection) routed := by
  obtain ⟨sql, mongodb, unowned⟩ := routed
  cases sql with
  | nil =>
    have hrun : ((embedded config router schema collection serviceName).searchDocuments
        mongodb.toDocumentQuery offset limit).run state = (.ok results, state') := by
      cases mongodb <;> exact hrun
    have hfulfils : Fulfils ((embedded config router schema collection serviceName).searchDocuments
        mongodb.toDocumentQuery) stores (stores.collections.documents collection)
        ⟨[], mongodb, unowned⟩ := searchDocuments_fulfils hs hdocuments hrun
    cases mongodb <;> exact hfulfils
  | cons term terms =>
    cases mongodb with
    | nil => exact relationalOnly_fulfils hs hdocuments hrun
    | cons term' terms' => exact both_fulfils hs hdocuments hrun

/-- All strategies find the same documents with the same motors. -/
theorem searchRouted_eq_ok {h k : Holdings} (hs : state.motors.Shows h k)
    (hdocuments : ∀ d ∈ state.documents.documents collection, d.FiniteSid) {routed : Routed}
    (hrun : ((embedded config router schema collection serviceName).searchRouted routed 0 0).run
      state = (.ok results, state')) :
    ∃ queries, compileTerms routed.sql = .ok queries ∧
      results = ((state.documents.documents collection).filter fun d =>
        d.Satisfies routed.mongodb.toDocumentQuery).filterMap fun d =>
          d.completed? (h.records.filter fun r => ∀ query ∈ queries, query.Holds r.motors) := by
  have hoffers : Offers state ⟨state.documents, h⟩ := ⟨rfl, k, hs⟩
  obtain ⟨queries, found, _, hcompile, -, hcompletes, hsame⟩ :=
    searchRouted_fulfils hoffers (fun d hd => (hdocuments d hd).realSid) hrun
  refine ⟨queries, hcompile, ?_⟩
  rw [(hcompletes.eq_of_run hoffers hrun).2, slice_zero, hsame]

/-- A search without paging finds the documents that satisfy their part of the filter and
whose scan satisfies the queries of the other part, in their order, with the motors of that
scan. -/
theorem searchExpression_eq_ok (hs : state.motors.Changed config)
    (hdocuments : ∀ d ∈ state.documents.documents collection, d.FiniteSid) {expression : Entries}
    (hrun : ((embedded config router schema collection serviceName).searchExpression expression
      0 0).run state = (.ok results, state')) :
    ∃ routed queries, router.route serviceName (.map expression) = .ok routed ∧
      compileTerms routed.sql = .ok queries ∧
      results = ((state.documents.documents collection).filter fun d =>
        d.Satisfies routed.mongodb.toDocumentQuery).filterMap fun d =>
          d.completed?
            (state.motors.records.filter fun r => ∀ query ∈ queries, query.Holds r.motors) := by
  obtain ⟨h, k, hshows⟩ := hs.shows
  obtain ⟨routed, _, hrouteRun, hsearch⟩ := run_bind_eq_ok.mp hrun
  obtain ⟨hroute, rfl⟩ := Prod.mk.inj ((run_ofExcept _ state).symm.trans hrouteRun)
  obtain ⟨queries, hcompile, hresults⟩ := searchRouted_eq_ok hshows hdocuments hsearch
  exact ⟨routed, queries, hroute, hcompile, by rw [hshows.records]; exact hresults⟩

/-- A router by the built-in table. -/
def builtInRouter : Router := ⟨.builtIn "SpecScans", false⟩

/-- A scan with its document, and a document without a scan. -/
def oneScanState : CatalogState TableServer Collections where
  motors := oneScan
  documents := ⟨[("scans", [[(sidKey, .float .zero), ("did", "x")], [("did", "x")]])]⟩
  sidClock := .ofReadings []

/-- The document with the motors of its scan. -/
def oneScanFound : Entries :=
  [(sidKey, .float .zero), ("did", "x"), (motorsKey, .map [("b", .float .zero)])]

theorem oneScan_changed : oneScan.Changed .inMemory := by
  have hrun : ((onTables .inMemory).connect.run ⟨false, .inMemory⟩).1 = .ok () := by
    decide
  exact .inserted (.connected rfl (run_eq_of_fst hrun)) _ (List.pairwise_singleton _ _)

theorem oneScanState_finiteSid :
    ∀ d ∈ oneScanState.documents.documents "scans", d.FiniteSid := by
  refine List.forall_mem_cons.mpr ⟨?_, List.forall_mem_singleton.mpr ?_⟩
  · intro sid hsid
    cases hsid
    exact ⟨.zero, rfl, rfl⟩
  · intro sid hsid
    cases hsid

theorem searchExpression_oneScan :
    ∃ routed queries,
      builtInRouter.route "SpecScans" (.map [("did", "x"), ("motors.b", .float .zero)]) =
        .ok routed ∧
      compileTerms routed.sql = .ok queries ∧
      [oneScanFound] =
        ((oneScanState.documents.documents "scans").filter fun d =>
          d.Satisfies routed.mongodb.toDocumentQuery).filterMap fun d =>
            d.completed?
              (oneScan.records.filter fun r => ∀ query ∈ queries, query.Holds r.motors) := by
  have hrun : (((embedded .inMemory builtInRouter .empty "scans" "SpecScans").searchExpression
      [("did", "x"), ("motors.b", .float .zero)] 0 0).run oneScanState).1 =
      .ok [oneScanFound] := by
    decide +kernel
  exact searchExpression_eq_ok oneScan_changed oneScanState_finiteSid (run_eq_of_fst hrun)

end Catalog

end ScanCatalog
