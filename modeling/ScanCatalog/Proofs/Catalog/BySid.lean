import ScanCatalog.Proofs.Catalog.Paired

/-!
# The record of a sid

A document is found by its sid, and so is its scan. Both make the record that is stored under
the sid.

## Main statements

* `Entries.Keyed.find_sid`, `Session.Shows.bySid`: the document and the scan of a sid;
* `Catalog.storedRecord_run`: the record of a sid.
-/

namespace ScanCatalog

open ScanCatalog.Action MotorStore

namespace Catalog

/-- The one item of a list that satisfies a condition. -/
theorem filter_eq_singleton {α : Type} {p : α → Bool} {items : List α} {a : α} (ha : a ∈ items)
    (hp : p a = true) (hone : items.Pairwise fun b c => p b = true → p c = false) :
    items.filter p = [a] := by
  induction items with
  | nil => cases ha
  | cons b rest ih =>
    obtain ⟨hb, hrest⟩ := List.pairwise_cons.mp hone
    rcases List.mem_cons.mp ha with rfl | ha
    · have hnone : rest.filter p = [] :=
        List.filter_eq_nil_iff.mpr fun c hc => Bool.eq_false_iff.mp (hb c hc hp)
      rw [List.filter_cons_of_pos hp, hnone]
    · have hnot : ¬ p b = true := by
        intro hpb
        rw [hb a ha hpb] at hp
        cases hp
      rw [List.filter_cons_of_neg hnot, ih ha hrest]

/-- The one item that satisfies a condition is an item, and satisfies it. -/
theorem mem_of_filter_eq_singleton {α : Type} {p : α → Bool} {items : List α} {a : α}
    (h : items.filter p = [a]) : a ∈ items ∧ p a = true := by
  rw [← List.mem_filter, h]
  exact List.mem_singleton_self a

/-- A condition on the sid is one on the number that it is. -/
theorem satisfies_sid {document : Entries} {y : Binary64}
    (hsid : document.get? sidKey = some (.float y)) (x : Binary64) :
    documentSatisfies document [(sidKey, .float x)] = .ok (y.same x) := by
  refine documentSatisfies_sid document ?_
  rw [hsid]
  rfl

end Catalog

/-- The record of the scan of a sid is found. -/
theorem Session.Shows.bySid (config : MotorsConfig) {session : Session TableServer} {h : Holdings}
    (hs : session.Shows h h) {s : StoredScan} (hmem : s ∈ h.scans) {x : Binary64}
    (hsame : s.sid.same x = true) :
    ∃ session', ((onTables config).bySids [.float x]).run session =
      (.ok [h.recordOf s], session') ∧ session'.Shows h h := by
  have hreal : ∀ v ∈ [Value.float x], v.IsReal := List.forall_mem_singleton.mpr ⟨x, rfl⟩
  obtain ⟨session', k, hrun, hshows, hk⟩ :=
    hs.bySids config hreal (sidCount_singleton_le x)
  have hone : h.records.filter (fun r => [Value.float x].any fun sid => r.sid.same sid) =
      [h.recordOf s] := by
    refine Catalog.filter_eq_singleton (List.mem_map_of_mem hmem) ?_ ?_
    · exact Bool.or_eq_true_iff.mpr (.inl hsame)
    · refine List.pairwise_map.mpr (hs.sound.sids.imp fun {a b} hdistinct ha => ?_)
      have ha : a.sid.same x = true := by simpa [Holdings.recordOf] using ha
      refine Bool.eq_false_iff.mpr fun hb => ?_
      have hb : b.sid.same x = true := by simpa [Holdings.recordOf] using hb
      rw [Binary64.same_of_same ha hb] at hdistinct
      cases hdistinct
  rw [hone] at hrun
  refine ⟨session', hrun, ?_⟩
  rcases hk with rfl | ⟨rfl, -⟩ <;> exact hshows

namespace Entries.Keyed

variable {documents : List Entries} {document : Entries} {x : Binary64}

theorem answers (hs : Keyed documents) (x : Binary64) :
    ∀ d ∈ documents, Entries.Answers [(sidKey, .float x)] d := by
  intro d hd
  obtain ⟨y, hy, -⟩ := hs.isDocument d hd
  exact ⟨_, Catalog.satisfies_sid hy.sid x⟩

/-- A document is asked for by its sid. -/
theorem satisfies_iff (hs : Keyed documents) (hd : document ∈ documents) (x : Binary64) :
    document.Satisfies [(sidKey, .float x)] ↔ (document.get sidKey).same (.float x) = true := by
  obtain ⟨y, hy, -⟩ := hs.isDocument document hd
  rw [Entries.Satisfies, Catalog.satisfies_sid hy.sid, hy.get, Except.ok.injEq]
  rfl

/-- One document has a sid. -/
theorem satisfies_one (hs : Keyed documents) (x : Binary64) :
    documents.Pairwise fun d d' =>
      Entries.Satisfies d [(sidKey, .float x)] → ¬ Entries.Satisfies d' [(sidKey, .float x)] := by
  refine List.Pairwise.imp_of_mem (fun {d d'} hd hd' hdistinct hsame hsame' => ?_) hs.pairwise
  obtain ⟨y, hy, -⟩ := hs.isDocument d hd
  obtain ⟨z, hz, -⟩ := hs.isDocument d' hd'
  rw [hs.satisfies_iff hd, hy.get] at hsame
  rw [hs.satisfies_iff hd', hz.get] at hsame'
  rw [hy.get, hz.get] at hdistinct
  cases (Binary64.same_of_same hsame hsame').symm.trans hdistinct

/-- A document is found by its sid. -/
theorem find_sid (hs : Keyed documents) (hd : document ∈ documents) (hx : document.IsDocument x)
    (hreal : x.same x = true) : findDocuments [(sidKey, .float x)] documents = .ok [document] := by
  rw [findDocuments_of_forall (hs.answers x)]
  have hsatisfies : document.Satisfies [(sidKey, .float x)] := by
    rw [hs.satisfies_iff hd, hx.get]
    exact hreal
  refine congrArg _ (Catalog.filter_eq_singleton hd (decide_eq_true hsatisfies) ?_)
  exact (hs.satisfies_one x).imp fun hone hsame =>
    decide_eq_false (hone (of_decide_eq_true hsame))

/-- Documents of the same sid are one. -/
theorem eq_of_sid (hs : Keyed documents) (hd : document ∈ documents) (hx : document.IsDocument x)
    (hreal : x.same x = true) {d : Entries} (hmem : d ∈ documents)
    (hsame : (d.get sidKey).same (.float x) = true) : d = document := by
  have hfound := findDocuments_eq_ok (hs.find_sid hd hx hreal)
  have hd : d ∈ [document] := by
    rw [hfound]
    exact List.mem_filter.mpr ⟨hmem, decide_eq_true ((hs.satisfies_iff hmem x).mpr hsame)⟩
  exact List.mem_singleton.mp hd

end Entries.Keyed

namespace Catalog

variable {config : MotorsConfig} {router : Router} {schema : Schema}
  {collection serviceName : Text} {state : CatalogState TableServer Collections}
  {h : Holdings} {document : Entries} {s : StoredScan} {x : Binary64}

/-- What is done with the first document that satisfies a query, if it is the one that does. -/
theorem run_first {α : Type} {query : Entries}
    (hfind : findDocuments query (state.documents.documents collection) = .ok [document])
    (next : Entries → Action (CatalogState TableServer Collections) α) :
    ((embedded config router schema collection serviceName).documents query 0 1 >>= fun found =>
      Action.ofExcept (firstDocument found) >>= next).run state = (next document).run state := by
  have hget : ((embedded config router schema collection serviceName).documents query 0 1).run
      state = (.ok [document], state) := by
    change (onDocuments (Collections.store.get collection query 0 1)).run state = _
    rw [onDocuments, run_zoom, Collections.first_run, hfind]
    rfl
  rw [run_bind, hget]
  rfl

/-- The number of the documents that satisfy a query. -/
theorem run_count (query : Entries) :
    (onDocuments ((embedded config router schema collection serviceName).documentStore.count
      (embedded config router schema collection serviceName).collection query)).run state =
      ((findDocuments query (state.documents.documents collection)).map fun found =>
        (found.length : Int), state) := by
  change (onDocuments (Collections.store.count collection query)).run state = _
  rw [onDocuments, run_zoom, Collections.count_run]

/-- The record of a sid is that of its document and its scan. -/
theorem storedRecord_run (config : MotorsConfig) (router : Router) (schema : Schema)
    (serviceName : Text) (hs : state.Paired collection h)
    (hd : document ∈ state.documents.documents collection) (hx : document.IsDocument x)
    (hmem : s ∈ h.scans) (hsid : s.sid = x.dropZeroSign) :
    ∃ session, ((embedded config router schema collection serviceName).storedRecord
        (.float x)).run state =
      (.ok (document.set motorsKey (.map (h.positionsOf s.scanId).toEntries)),
        { state with motors := session }) ∧ session.Shows h h := by
  obtain ⟨hsame, hreal⟩ := hs.shows.sound.same_of_sid hmem hsid
  obtain ⟨session, hbySid, hshows⟩ := hs.shows.bySid config hmem hsame
  have hmotors : (onMotors ((embedded config router schema collection serviceName).motorStore.bySids
      [.float x])).run state = (.ok [h.recordOf s], { state with motors := session }) := by
    have hrun : ((embedded config router schema collection serviceName).motorStore.bySids
        [.float x]).run state.motors = (.ok [h.recordOf s], session) := hbySid
    rw [onMotors, run_zoom, hrun]
  have hcomplete : complete document (h.recordOf s) =
      .ok (document.set motorsKey (.map (h.positionsOf s.scanId).toEntries)) := by
    unfold complete Holdings.recordOf
    dsimp only
    rw [hx.get, Value.same_float, Binary64.same_comm, if_pos hsame]
  refine ⟨session, ?_, hshows⟩
  unfold storedRecord
  rw [run_first (hs.keyed.find_sid hd hx hreal), run_bind, hmotors]
  dsimp only [List.head?_cons, Option.getD_some]
  rw [hcomplete]
  rfl

end Catalog

end ScanCatalog
