import ScanCatalog.Proofs.Action.Leads
import ScanCatalog.Proofs.Document.Find

/-!
# Changing documents

What the operations of collections in memory do to the documents of a collection: an
insertion puts a document at the end, and an upsert changes the one document that satisfies
its condition.

## Main statements

* `Collections.insert_run`, `Collections.insert_cases`: putting in a document;
* `Collections.upsert_run`: changing the one document that satisfies a condition;
* `Collections.count_run`, `Collections.first_run`: asking for documents.
-/

namespace ScanCatalog

open ScanCatalog.Action

/-- A condition that every document can be asked for. -/
def Entries.Answers (condition document : Entries) : Prop :=
  ∃ satisfied, documentSatisfies document condition = .ok satisfied

theorem Entries.Answers.satisfies {condition document : Entries}
    (h : condition.Answers document) :
    documentSatisfies document condition = .ok (decide (document.Satisfies condition)) := by
  obtain ⟨satisfied, hsatisfied⟩ := h
  cases satisfied with
  | true =>
    have hdocument : document.Satisfies condition := hsatisfied
    rw [hsatisfied, decide_eq_true hdocument]
  | false =>
    have hdocument : ¬ document.Satisfies condition := by
      intro hok
      rw [Entries.Satisfies, hsatisfied] at hok
      cases hok
    rw [hsatisfied, decide_eq_false hdocument]

theorem forM_requireHashable {documents : List Entries}
    (h : ∀ d ∈ documents, (Entries.get d sidKey).isHashable = true) :
    (documents.map fun d => Entries.get d sidKey).forM requireHashable = .ok () := by
  induction documents with
  | nil => rfl
  | cons d rest ih =>
    obtain ⟨hd, hrest⟩ := List.forall_mem_cons.mp h
    have hrequire : requireHashable (Entries.get d sidKey) = .ok () := if_pos hd
    change (requireHashable (Entries.get d sidKey) >>= fun _ =>
      (rest.map fun d => Entries.get d sidKey).forM requireHashable) = _
    rw [hrequire, Outcome.ok_bind, ih hrest]

/-- A sid that is put in among others must not be the same as one of them. -/
theorem insertDocuments_new {stored : List Entries} {document : Entries}
    (hstored : ∀ d ∈ stored, (Entries.get d sidKey).isHashable = true)
    (hhashable : (document.get sidKey).isHashable = true)
    (hnew : ∀ d ∈ stored, (document.get sidKey).same (Entries.get d sidKey) = false) :
    insertDocuments stored [document] = .ok (stored ++ [document]) := by
  have hany : ((stored.map fun d => Entries.get d sidKey).any fun s =>
      (document.get sidKey).same s) = false := by
    rw [List.any_map, List.any_eq_false]
    exact fun d hd => Bool.eq_false_iff.mp (hnew d hd)
  have hcheck : checkNewSid (stored.map fun d => Entries.get d sidKey) document = .ok () := by
    have hrequire : requireHashable (document.get sidKey) = .ok () := if_pos hhashable
    unfold checkNewSid
    dsimp only
    rw [hrequire, Outcome.ok_bind, hany]
    rfl
  unfold insertDocuments
  dsimp only
  rw [forM_requireHashable hstored, Outcome.ok_bind]
  have hdocuments : [document].forM (checkNewSid (stored.map fun d => Entries.get d sidKey)) =
      .ok () := by
    change (checkNewSid _ document >>= fun _ => Except.ok ()) = _
    rw [hcheck, Outcome.ok_bind]
  rw [hdocuments, Outcome.ok_bind]
  rfl

/-- A document that is put in has another sid than those that were there. -/
theorem insertDocuments_eq_ok {stored documents : List Entries} {document : Entries}
    (h : insertDocuments stored [document] = .ok documents) :
    documents = stored ++ [document] ∧
      ∀ d ∈ stored, (document.get sidKey).same (Entries.get d sidKey) = false := by
  obtain ⟨_, -, h⟩ := Outcome.bind_eq_ok.mp h
  obtain ⟨_, hcheck, h⟩ := Outcome.bind_eq_ok.mp h
  cases h
  refine ⟨rfl, ?_⟩
  change (checkNewSid (stored.map fun d => Entries.get d sidKey) document >>= fun _ => Except.ok ()) =
    _ at hcheck
  obtain ⟨_, hcheck, -⟩ := Outcome.bind_eq_ok.mp hcheck
  obtain ⟨_, -, hcheck⟩ := Outcome.bind_eq_ok.mp hcheck
  split at hcheck
  · cases hcheck
  · next hany =>
    rw [List.any_map] at hany
    exact fun d hd => Bool.eq_false_iff.mpr (List.any_eq_false.mp (Bool.eq_false_iff.mpr hany) d hd)

/-- An upsert changes the documents that satisfy its condition, if there is one and no two
satisfy it. -/
theorem upsertDocument_one {condition fields : Entries} {before documents : List Entries}
    (hanswers : ∀ d ∈ documents, condition.Answers d)
    (hone : documents.Pairwise fun d d' =>
      Entries.Satisfies d condition → ¬ Entries.Satisfies d' condition)
    (hsome : ∃ d ∈ documents, Entries.Satisfies d condition) :
    upsertDocument condition (.map fields) before documents =
      .ok (before ++ documents.map fun d =>
        if Entries.Satisfies d condition then Entries.update d fields else d, none) := by
  induction documents generalizing before with
  | nil =>
    obtain ⟨_, hd, -⟩ := hsome
    cases hd
  | cons d rest ih =>
    obtain ⟨hd, hrest⟩ := List.forall_mem_cons.mp hanswers
    obtain ⟨hothers, honeRest⟩ := List.pairwise_cons.mp hone
    unfold upsertDocument
    rw [hd.satisfies, Outcome.ok_bind]
    by_cases hsatisfies : Entries.Satisfies d condition
    -- the search ends at the first document that satisfies the condition, so that the rest is
    -- as it should be only because no other satisfies it
    · have hunchanged : rest.map (fun d =>
          if Entries.Satisfies d condition then Entries.update d fields else d) = rest :=
        (List.map_congr_left fun d' hd' => if_neg (hothers d' hd' hsatisfies)).trans
          (List.map_id' rest)
      rw [if_pos (decide_eq_true hsatisfies), List.map_cons, if_pos hsatisfies, hunchanged]
      rfl
    · obtain ⟨d', hd', hsatisfies'⟩ := hsome
      have hmem : d' ∈ rest := by
        rcases List.mem_cons.mp hd' with rfl | hmem
        · exact absurd hsatisfies' hsatisfies
        · exact hmem
      rw [if_neg (by simpa using hsatisfies), ih hrest honeRest ⟨d', hmem, hsatisfies'⟩,
        List.map_cons, if_neg hsatisfies, List.append_assoc]
      rfl

namespace Collections

theorem lookup_putIn (name : Text) (documents : List Entries)
    (collections : List (Text × List Entries)) :
    (putIn name documents collections).lookup name = some documents := by
  induction collections with
  | nil => simp [putIn]
  | cons c rest ih =>
    obtain ⟨n, ds⟩ := c
    unfold putIn
    by_cases hname : n = name
    · rw [if_pos hname, List.lookup_cons_self]
    · rw [if_neg hname, List.lookup_cons, beq_false_of_ne fun h => hname h.symm]
      exact ih

@[simp] theorem documents_put (store : Collections) (name : Text) (documents : List Entries) :
    (store.put name documents).documents name = documents := by
  unfold Collections.documents put
  rw [lookup_putIn]
  rfl

variable {name : Text} {state : Collections}

/-- Putting in a document of a new sid puts it at the end. -/
theorem insert_run {document : Entries}
    (hstored : ∀ d ∈ state.documents name, (Entries.get d sidKey).isHashable = true)
    (hhashable : (document.get sidKey).isHashable = true)
    (hnew : ∀ d ∈ state.documents name,
      (document.get sidKey).same (Entries.get d sidKey) = false) :
    (store.insert name [document]).run state =
      (.ok 1, state.put name (state.documents name ++ [document])) := by
  have hchange : (change name fun stored => insertDocuments stored [document]).run state =
      (.ok (), state.put name (state.documents name ++ [document])) := by
    unfold change Action.run
    dsimp only
    rw [insertDocuments_new hstored hhashable hnew]
  change (change name (fun stored => insertDocuments stored [document]) >>= fun _ =>
    Action.pure 1).run state = _
  rw [run_bind, hchange]
  rfl

/-- Putting in a document puts it at the end, or fails and changes nothing. -/
theorem insert_cases {document : Entries} {state' : Collections} {outcome : Except Fault Int}
    (hrun : (store.insert name [document]).run state = (outcome, state')) :
    state' = state ∨ state'.documents name = state.documents name ++ [document] ∧
      ∀ d ∈ state.documents name, (document.get sidKey).same (Entries.get d sidKey) = false := by
  change (change name (fun stored => insertDocuments stored [document]) >>= fun _ =>
    Action.pure 1).run state = _ at hrun
  rw [run_bind] at hrun
  unfold change Action.run at hrun
  dsimp only at hrun
  cases hinsert : insertDocuments (state.documents name) [document] with
  | error fault =>
    rw [hinsert] at hrun
    cases hrun
    exact .inl rfl
  | ok documents =>
    rw [hinsert] at hrun
    cases hrun
    obtain ⟨rfl, hnew⟩ := insertDocuments_eq_ok hinsert
    exact .inr ⟨documents_put _ _ _, hnew⟩

/-- Changing the one document that satisfies a condition changes no other. -/
theorem upsert_run (state : Collections) {condition : Entries} (fields : Entries)
    (hanswers : ∀ d ∈ state.documents name, condition.Answers d)
    (hone : (state.documents name).Pairwise fun d d' =>
      Entries.Satisfies d condition → ¬ Entries.Satisfies d' condition)
    (hsome : ∃ d ∈ state.documents name, Entries.Satisfies d condition) :
    (store.upsert name condition [("$set", .map fields)]).run state =
      (.ok 1, state.put name ((state.documents name).map fun d =>
        if Entries.Satisfies d condition then Entries.update d fields else d)) := by
  have hupsert : (Collections.upsert name condition (.map fields)).run state =
      (.ok (), state.put name ((state.documents name).map fun d =>
        if Entries.Satisfies d condition then Entries.update d fields else d)) := by
    unfold Collections.upsert Action.run
    dsimp only
    rw [upsertDocument_one hanswers hone hsome, List.nil_append]
  change (Collections.upsert name condition (.map fields) >>= fun _ => Action.pure 1).run state = _
  rw [run_bind, hupsert]
  rfl

/-- The number of the documents that satisfy a query. -/
theorem count_run (query : Entries) :
    (store.count name query).run state =
      ((findDocuments query (state.documents name)).map fun found => (found.length : Int),
        state) := by
  have hfind : (Collections.find name query).run state =
      (findDocuments query (state.documents name), state) := rfl
  change (Collections.find name query >>= fun found =>
    Action.pure (found.length : Int)).run state = _
  rw [run_bind, hfind]
  cases findDocuments query (state.documents name) <;> rfl

theorem slice_one {α : Type} (items : List α) : slice items 0 1 = items.take 1 := by
  unfold slice positionIn
  rw [if_neg (by decide), if_neg (by decide), if_neg (by decide)]
  rfl

/-- The first document that satisfies a query. -/
theorem first_run (query : Entries) :
    (store.get name query 0 1).run state =
      ((findDocuments query (state.documents name)).map fun found => found.take 1, state) := by
  have hfind : (Collections.find name query).run state =
      (findDocuments query (state.documents name), state) := rfl
  change (Collections.find name query >>= fun found => Action.pure (slice found 0 1)).run state = _
  rw [run_bind, hfind]
  cases findDocuments query (state.documents name) with
  | error fault => rfl
  | ok found =>
    change (Except.ok (slice found 0 1), state) = _
    rw [slice_one]
    rfl

end Collections

end ScanCatalog
