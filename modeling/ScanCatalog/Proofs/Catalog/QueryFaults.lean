import ScanCatalog.Proofs.Catalog.Keyed
import ScanCatalog.Proofs.Document.Faults
import ScanCatalog.Proofs.Filter.Parts
import ScanCatalog.Proofs.Motor.Faults
import ScanCatalog.Proofs.Motor.Refusals
import ScanCatalog.Proofs.Routing.Owners

/-!
# Why searches and counts fail

A query is read, taken apart by the router and asked of both stores. What they cannot answer is
refused before, or by the store that is asked, and reported, except in two places: the text of a
query can be too long or too deep for its reader, and the part for the motor tables can have a
number that is too large for a binary64 number, or a text without a UTF-8 form.

## Main definitions

* `Router.HasMotorPart`: what a query says in the part for the motor tables;
* `Catalog.QueryCause`: why a search or a count fails.

## Main statements

* `Catalog.search_cause`, `Catalog.count_cause`: every fault has such a cause.
-/

namespace ScanCatalog

open ScanCatalog.Action MotorStore

/-! ### Terms for the stores -/

/-- Documents can be searched for terms, unless one of their operators is not known. -/
theorem Terms.ReadFrom.findDocuments_eq_error {terms : Terms} {expression : Entries}
    {documents : List Entries} {fault : Fault} (h : terms.ReadFrom expression)
    (hjson : (Value.map expression).IsJson)
    (hfind : findDocuments terms.toDocumentQuery documents = .error fault) :
    fault.isReported = true := by
  have hentries := fun e (he : e ∈ terms.toDocumentQuery) => h.mem_toDocumentQuery hjson he
  have htexts : terms.toDocumentQuery.TextKeys := by
    intro e he
    obtain ⟨term, -, hkey, -⟩ := hentries e he
    exact ⟨term.1, hkey⟩
  have hvalues : ∀ e ∈ terms.toDocumentQuery, e.2.IsJson := by
    intro e he
    obtain ⟨_, -, -, hvalue, -⟩ := hentries e he
    exact hvalue
  rcases ScanCatalog.findDocuments_eq_error htexts hvalues hfind with hreported | ⟨hasks, -⟩
  · exact hreported
  -- a filter with an operator for sets that has no list would not have been read
  · obtain ⟨path, entries, argument, he, hargument, hlist⟩ := hasks
    obtain ⟨_, -, -, hvalue, hread⟩ := hentries _ he
    obtain ⟨items, rfl⟩ := Filter.listed_of_ofValue hvalue hread hargument
    exact absurd rfl (hlist items)

namespace Router

variable {router : Router} {serviceName : Text} {expression : Entries} {routed : Routed}
  {fault : Fault} {w : Value}

/-- What a query says in the part for the motor tables: a key that they own, or a part of the
value under it. -/
def HasMotorPart (router : Router) (serviceName : Text) (expression : Entries) (w : Value) : Prop :=
  ∃ key v, (Value.text key, v) ∈ expression ∧
    (router.table.owner? serviceName key).any (fun entry => entry.backend == .sql) = true ∧
      (w = .text key ∨ v.HasPart w)

theorem route_eq_error (h : router.route serviceName (.map expression) = .error fault) :
    fault.isReported = true := by
  rcases Outcome.bind_eq_error.mp h with h | ⟨terms, -, h⟩
  · cases hterms : Terms.ofEntries expression with
    | ok terms =>
      rw [Terms.ofValue, hterms] at h
      cases h
    | error cause =>
      rw [Terms.ofValue, hterms] at h
      cases h
      rfl
  · dsimp only at h
    split at h <;> cases h
    rfl

/-- The terms for the documents are read from entries of the query. -/
theorem readFrom_of_route (h : router.route serviceName (.map expression) = .ok routed) :
    routed.mongodb.ReadFrom expression := by
  obtain ⟨terms, hterms, rfl⟩ := route_eq_ok h
  exact (Terms.readFrom_of_ofEntries hterms).filter _

/-- The terms for the motor tables are what the query says in the part for them. -/
theorem hasMotorPart_of_route (hjson : (Value.map expression).IsJson)
    (h : router.route serviceName (.map expression) = .ok routed) {term : Text × Filter}
    (hterm : term ∈ routed.sql) (hw : w = .text term.1 ∨ term.2.Mentions w) :
    router.HasMotorPart serviceName expression w := by
  obtain ⟨terms, hterms, rfl⟩ := route_eq_ok h
  obtain ⟨hterm, howner⟩ := List.mem_filter.mp hterm
  obtain ⟨v, hv, hfilter⟩ := Terms.readFrom_of_ofEntries hterms term hterm
  refine ⟨term.1, v, hv, howner, hw.imp id fun hmentions => ?_⟩
  cases hjson with
  | map _ _ hvalues => exact Filter.hasPart_of_ofValue (hvalues _ hv) hfilter hmentions

end Router

/-- What is left of a text with a UTF-8 form has one too. -/
theorem Text.Encodable.drop {t : Text} (h : t.Encodable) (n : Nat) : (t.drop n).Encodable :=
  fun c hc => h c (List.mem_of_mem_drop hc)

namespace Catalog

variable {config : MotorsConfig} {router : Router} {schema : Schema}
  {collection serviceName : Text} {state state' : CatalogState TableServer Collections}
  {stores : Stores} {routed : Routed} {expression : Entries} {query : Value} {offset limit : Int}
  {fault : Fault}

/-- Why a search or a count fails: what is wrong is reported, or the text of the query is stopped
at for its size, or the part for the motor tables has a number that is too large for a binary64
number, or a text without a UTF-8 form. -/
inductive QueryCause (router : Router) (serviceName : Text) (query : Value) : Fault → Prop
  | reported {fault : Fault} (h : fault.isReported = true) :
    QueryCause router serviceName query fault
  | size {fault : Fault} (hdecoded : decodeQuery query = .error fault) (hsize : fault.IsOfSize) :
    QueryCause router serviceName query fault
  | number {expression : Entries} {w : Value} (hdecoded : decodeQuery query = .ok expression)
    (hpart : router.HasMotorPart serviceName expression w) (hlarge : w.IsTooLarge) :
    QueryCause router serviceName query (.value .intTooLarge)
  | text {expression : Entries} {t : Text} {fault : EncodeFault}
    (hdecoded : decodeQuery query = .ok expression)
    (hpart : router.HasMotorPart serviceName expression (.text t)) (hnot : ¬ t.Encodable) :
    QueryCause router serviceName query (.value (.notEncodable fault))

theorem decodeQuery_cause (router : Router) (serviceName : Text)
    (h : decodeQuery query = .error fault) : QueryCause router serviceName query fault :=
  (decodeQuery_eq_error h).elim .reported (.size h)

/-! ### The motor tables -/

/-- The motor tables do not answer for one of these causes. -/
theorem motorRecords_cause (hs : Offers state stores) (hjson : (Value.map expression).IsJson)
    (hdecoded : decodeQuery query = .ok expression)
    (hroute : router.route serviceName (.map expression) = .ok routed)
    (hrun : ((embedded config router schema collection serviceName).motorRecords routed.sql).run
      state = (.error fault, state')) : QueryCause router serviceName query fault := by
  obtain ⟨-, k, hshows⟩ := hs
  rcases run_bind_cases hrun with ⟨cause, hcompileRun, heq⟩ | ⟨queries, _, hcompileRun, hrun⟩
  · cases heq
    rcases compileTerms_eq_error (run_ofExcept_eq hcompileRun).1 with
      hreported | ⟨rfl, term, hterm, w, hw, hlarge⟩
    · exact .reported hreported
    · exact .number hdecoded (router.hasMotorPart_of_route hjson hroute hterm (.inr hw)) hlarge
  obtain ⟨hcompile, rfl⟩ := run_ofExcept_eq hcompileRun
  obtain ⟨session, hanswer, -⟩ := run_zoom_eq hrun
  rcases hshows.byQueries_eq_error (compileTerms_compiled hcompile) hanswer with
    hreported | ⟨hencoding, asked, hasked, t, ht, hnot⟩
  · exact .reported hreported
  obtain ⟨cause, rfl⟩ := Fault.eq_of_isEncoding hencoding
  obtain ⟨m, hm, term, hterm, hsource⟩ := compileTerms_mnemonic hcompile hasked
  obtain rfl := Value.text.inj (hm.symm.trans ht)
  rcases hsource with rfl | hmentions
  · exact .text hdecoded (router.hasMotorPart_of_route hjson hroute hterm (.inl rfl))
      fun hkey => hnot (hkey.drop _)
  · exact .text hdecoded (router.hasMotorPart_of_route hjson hroute hterm (.inr hmentions)) hnot

/-! ### Searching -/

/-- Documents that cannot be found end what asks for them. -/
theorem documents_leads_of_error {asked : Entries} {cause : Fault}
    (hfind : findDocuments asked (stores.collections.documents collection) = .error cause)
    (offset limit : Int) :
    Leads Offers ((embedded config router schema collection serviceName).documents asked offset
      limit) stores (.error cause) stores := by
  have hleads : Leads Offers ((embedded config router schema collection serviceName).documents
    asked offset limit) stores _ stores := documents_leads asked offset limit
  rwa [hfind] at hleads

/-- A search of documents fails only if they cannot be found, or are too many. -/
theorem searchDocuments_eq_error (hs : Offers state stores)
    (hdocuments : ∀ d ∈ stores.collections.documents collection, d.RealSid) {asked : Entries}
    (hrun : ((embedded config router schema collection serviceName).searchDocuments asked offset
      limit).run state = (.error fault, state')) :
    findDocuments asked (stores.collections.documents collection) = .error fault ∨
      fault = tooManySids := by
  obtain ⟨_, hshows⟩ := hs.2
  cases hfind : findDocuments asked (stores.collections.documents collection) with
  | ok found =>
    refine .inr ?_
    by_cases haskable : Askable (slice found offset limit)
    · have hcompletes : Completes ((embedded config router schema collection
          serviceName).searchDocuments asked) stores Askable found stores.scans.records :=
        searchDocuments_completes hshows.sound hdocuments hfind
      cases ((hcompletes.answers offset limit haskable).outcome_eq hs hrun).1
    · obtain ⟨t, htooMany⟩ := searchDocuments_tooMany hs hdocuments hfind haskable
      cases hrun.symm.trans htooMany
      rfl
  | error cause =>
    have hleads : Leads Offers ((embedded config router schema collection
        serviceName).searchDocuments asked offset limit) stores (.error cause) stores :=
      (documents_leads_of_error hfind offset limit).bind_error
    exact .inl (hleads.outcome_eq hs hrun).1.symm

/-- A page of documents that is joined with scans fails only if they cannot be found. -/
theorem joinPage_eq_error {scans : List MotorRecord} (hs : Offers state stores)
    (hkeyed : MotorRecord.Keyed scans)
    (hdocuments : ∀ d ∈ stores.collections.documents collection, d.RealSid) {asked : Entries}
    (hrun : ((embedded config router schema collection serviceName).documents asked offset
      limit >>= fun documents => Action.ofExcept (join documents scans)).run state =
        (.error fault, state')) :
    findDocuments asked (stores.collections.documents collection) = .error fault := by
  cases hfind : findDocuments asked (stores.collections.documents collection) with
  | ok found =>
    cases ((joinPage_leads hkeyed hdocuments hfind offset limit).outcome_eq hs hrun).1
  | error cause =>
    exact (((documents_leads_of_error hfind offset limit).bind_error).outcome_eq hs hrun).1.symm

/-- A search by a query that was taken apart fails for one of these causes. -/
theorem searchRouted_cause (hs : Offers state stores)
    (hdocuments : ∀ d ∈ stores.collections.documents collection, d.RealSid)
    (hjson : (Value.map expression).IsJson) (hdecoded : decodeQuery query = .ok expression)
    (hroute : router.route serviceName (.map expression) = .ok routed)
    (hrun : ((embedded config router schema collection serviceName).searchRouted routed offset
      limit).run state = (.error fault, state')) : QueryCause router serviceName query fault := by
  obtain ⟨_, hshows⟩ := hs.2
  have hreported : findDocuments routed.mongodb.toDocumentQuery
      (stores.collections.documents collection) = .error fault →
        QueryCause router serviceName query fault :=
    fun hfind => .reported ((Router.readFrom_of_route hroute).findDocuments_eq_error hjson hfind)
  have hanswered : ∀ {scans t}, ((embedded config router schema collection
      serviceName).motorRecords routed.sql).run state = (.ok scans, t) →
        MotorRecord.Keyed scans ∧ Offers t stores := by
    intro scans t hmotors
    obtain ⟨queries, -, hscans, hleads⟩ := motorRecords_leads hs hmotors
    exact ⟨hscans ▸ hshows.sound.keyed.filter _, (hleads.outcome_eq hs hmotors).2⟩
  unfold searchRouted at hrun
  dsimp only at hrun
  cases hstrategy : routed.strategy with
  | neither | documentOnly =>
    rw [hstrategy] at hrun
    rcases searchDocuments_eq_error hs hdocuments hrun with hfind | rfl
    · exact hreported hfind
    · exact .reported rfl
  | relationalOnly =>
    rw [hstrategy] at hrun
    rcases run_bind_cases hrun with ⟨cause, hmotors, heq⟩ | ⟨scans, t, hmotors, hrun⟩
    · cases heq
      exact motorRecords_cause hs hjson hdecoded hroute hmotors
    obtain ⟨hkeyed, ht⟩ := hanswered hmotors
    split at hrun
    · cases hrun
    -- documents can always be asked for the sids of scans
    · have hfind := joinPage_eq_error ht hkeyed hdocuments hrun
      unfold sidAmong at hfind
      rw [findDocuments_of_forall fun d _ => ⟨_, satisfies_sidAmong d _⟩] at hfind
      cases hfind
  | both =>
    rw [hstrategy] at hrun
    rcases run_bind_cases hrun with ⟨cause, hmotors, heq⟩ | ⟨scans, t, hmotors, hrun⟩
    · cases heq
      exact motorRecords_cause hs hjson hdecoded hroute hmotors
    obtain ⟨hkeyed, ht⟩ := hanswered hmotors
    exact hreported (joinPage_eq_error ht hkeyed hdocuments hrun)

/-- A search by an expression fails for one of these causes. -/
theorem searchExpression_cause (hs : state.Keyed collection)
    (hjson : (Value.map expression).IsJson) (hdecoded : decodeQuery query = .ok expression)
    (hrun : ((embedded config router schema collection serviceName).searchExpression expression
      offset limit).run state = (.error fault, state')) :
    QueryCause router serviceName query fault := by
  obtain ⟨⟨h, k, hshows⟩, hkeyed⟩ := hs
  rcases run_bind_cases hrun with ⟨cause, hrouteRun, heq⟩ | ⟨routed, _, hrouteRun, hrun⟩
  · cases heq
    exact .reported (Router.route_eq_error (run_ofExcept_eq hrouteRun).1)
  obtain ⟨hroute, rfl⟩ := run_ofExcept_eq hrouteRun
  have hoffers : Offers state ⟨state.documents, h⟩ := ⟨rfl, k, hshows⟩
  exact searchRouted_cause hoffers hkeyed.realSid hjson hdecoded hroute hrun

/-- A search fails for one of these causes. -/
theorem search_cause (hs : state.Keyed collection) (hquery : query.IsBody)
    (hrun : ((embedded config router schema collection serviceName).search query offset limit).run
      state = (.error fault, state')) : QueryCause router serviceName query fault := by
  unfold Catalog.search at hrun
  split at hrun
  · cases hrun
    exact .reported rfl
  rcases run_bind_cases hrun with ⟨cause, hdecodeRun, heq⟩ | ⟨expression, _, hdecodeRun, hrun⟩
  · cases heq
    exact decodeQuery_cause router serviceName (run_ofExcept_eq hdecodeRun).1
  obtain ⟨hdecode, rfl⟩ := run_ofExcept_eq hdecodeRun
  exact searchExpression_cause hs (isJson_of_decodeQuery hquery hdecode) hdecode hrun

/-- A count fails for one of these causes. -/
theorem count_cause (hs : state.Keyed collection) (hquery : query.IsBody)
    (hrun : ((embedded config router schema collection serviceName).count query).run state =
      (.error fault, state')) : QueryCause router serviceName query fault := by
  rcases run_bind_cases hrun with ⟨cause, hdecodeRun, heq⟩ | ⟨expression, _, hdecodeRun, hrun⟩
  · cases heq
    exact decodeQuery_cause router serviceName (run_ofExcept_eq hdecodeRun).1
  obtain ⟨hdecode, rfl⟩ := run_ofExcept_eq hdecodeRun
  have hjson := isJson_of_decodeQuery hquery hdecode
  rcases run_bind_cases hrun with ⟨cause, hrouteRun, heq⟩ | ⟨routed, _, hrouteRun, hrun⟩
  · cases heq
    exact .reported (Router.route_eq_error (run_ofExcept_eq hrouteRun).1)
  obtain ⟨hroute, rfl⟩ := run_ofExcept_eq hrouteRun
  cases hstrategy : routed.strategy with
  | neither | documentOnly =>
    rw [hstrategy] at hrun
    dsimp only at hrun
    rw [run_count] at hrun
    cases hfind : findDocuments routed.mongodb.toDocumentQuery
        (state.documents.documents collection) with
    | ok found =>
      rw [hfind] at hrun
      cases hrun
    | error cause =>
      rw [hfind] at hrun
      cases hrun
      exact .reported ((Router.readFrom_of_route hroute).findDocuments_eq_error hjson hfind)
  | relationalOnly | both =>
    rw [hstrategy] at hrun
    rcases run_bind_cases hrun with ⟨cause, hsearch, heq⟩ | ⟨_, _, -, hrun⟩
    · cases heq
      exact searchExpression_cause hs hjson hdecode hsearch
    · cases hrun

end Catalog

end ScanCatalog
