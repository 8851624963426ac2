import Mathlib.Control.Monad.Basic
import ScanCatalog.Document.Collection
import ScanCatalog.Proofs.Action.Outcome
import ScanCatalog.Proofs.Motor.Compiled

/-!
# Finding documents

What a question to a collection in memory gives: the documents that satisfy the query, in
their order. Conditions on the sid are those of the value under its key.

## Main definitions

* `Entries.Satisfies`: a document that satisfies a query;
* `Condition.Met`: how a condition is met.

## Main statements

* `findDocuments_eq_ok`: the documents that are found;
* `satisfies_sidAmong`, `documentSatisfies_sid`: conditions on the sid;
* `Entries.Satisfies.met`: the conditions of a query by keys.
-/

namespace ScanCatalog

/-- The document satisfies the query. -/
def Entries.Satisfies (document query : Entries) : Prop := documentSatisfies document query = .ok true

instance (document query : Entries) : Decidable (Entries.Satisfies document query) :=
  inferInstanceAs (Decidable (documentSatisfies document query = .ok true))

theorem Entries.satisfies_nil (document : Entries) : document.Satisfies [] := rfl

/-- A search that ends without a fault finds the documents that satisfy the query. -/
theorem findDocuments_eq_ok {query : Entries} {documents found : List Entries}
    (h : findDocuments query documents = .ok found) :
    found = documents.filter fun d => Entries.Satisfies d query := by
  induction documents generalizing found with
  | nil =>
    cases h
    rfl
  | cons document rest ih =>
    obtain ⟨satisfied, hsatisfied, h⟩ := Outcome.bind_eq_ok.mp h
    cases satisfied with
    | true =>
      obtain ⟨others, hothers, h⟩ := Outcome.bind_eq_ok.mp h
      cases h
      have hdocument : Entries.Satisfies document query := hsatisfied
      rw [List.filter_cons_of_pos (by simpa using hdocument), ← ih hothers]
    | false =>
      have hdocument : ¬ Entries.Satisfies document query := by
        intro hok
        rw [Entries.Satisfies, hsatisfied] at hok
        cases hok
      rw [List.filter_cons_of_neg (by simpa using hdocument)]
      exact ih h

/-- Where every document can be asked, the documents are found. -/
theorem findDocuments_of_forall {query : Entries} {documents : List Entries}
    (h : ∀ d ∈ documents, ∃ satisfied, documentSatisfies d query = .ok satisfied) :
    findDocuments query documents = .ok (documents.filter fun d => Entries.Satisfies d query) := by
  have hok : ∃ found, findDocuments query documents = .ok found := by
    induction documents with
    | nil => exact ⟨[], rfl⟩
    | cons document rest ih =>
      obtain ⟨⟨satisfied, hsatisfied⟩, hrest⟩ := List.forall_mem_cons.mp h
      obtain ⟨found, hfound⟩ := ih hrest
      unfold findDocuments
      rw [hsatisfied, Outcome.ok_bind, hfound]
      cases satisfied
      · exact ⟨found, rfl⟩
      · exact ⟨document :: found, rfl⟩
  obtain ⟨found, hfound⟩ := hok
  rw [hfound, findDocuments_eq_ok hfound]

/-- Nothing is asked of the documents of an empty query. -/
theorem findDocuments_nil (documents : List Entries) : findDocuments [] documents = .ok documents := by
  rw [findDocuments_of_forall fun d _ => ⟨true, d.satisfies_nil⟩]
  exact congrArg _ (List.filter_eq_self.mpr fun d _ => decide_eq_true d.satisfies_nil)

/-! ### Conditions on the sid -/

/-- A path without a dot leads to the value under it. -/
theorem lookupPath_key {path : Text} (hpath : path.pieces dotMark = [path]) (document : Entries) :
    lookupPath document path = document.get? (.text path) := by
  unfold lookupPath
  rw [hpath]
  unfold lookupParts
  cases Entries.get? document (.text path) <;> rfl

theorem lookupPath_sid (document : Entries) : lookupPath document "sid" = document.get? sidKey :=
  lookupPath_key (by decide) document

namespace Condition

theorem operatorHolds_in (v : Option Value) (values : List Value) :
    operatorHolds v "$in" (.list values) = .ok (v.any fun v => v.isIn values) := by
  unfold operatorHolds
  rw [if_neg (by decide), if_neg (by decide), if_neg (by decide), if_pos rfl]
  cases v <;> rfl

theorem holds_in (v : Option Value) (values : List Value) :
    holds v (.map [("$in", .list values)]) = .ok (v.any fun v => v.isIn values) := by
  have hoperators : areOperators [("$in", .list values)] = .ok true := rfl
  have hvalues : operatorsHold v [("$in", .list values)] = .ok (v.any fun v => v.isIn values) := by
    change (do if ← operatorHolds v "$in" (.list values) then Except.ok true else return false) = _
    rw [operatorHolds_in, Outcome.ok_bind]
    cases v.any fun v => v.isIn values <;> rfl
  unfold holds
  dsimp only
  rw [hoperators, liftValue_ok, Outcome.ok_bind, hvalues]
  rfl

end Condition

theorem documentSatisfies_sid (document : Entries) {condition : Value} {holds : Bool}
    (h : Condition.holds (document.get? sidKey) condition = .ok holds) :
    documentSatisfies document [(sidKey, condition)] = .ok holds := by
  change (do
    if ← Condition.holds (lookupPath document "sid") condition then Except.ok true
    else return false) = _
  rw [lookupPath_sid, h, Outcome.ok_bind]
  cases holds <;> rfl

/-- A sid among some others. -/
theorem satisfies_sidAmong (document : Entries) (sids : List Value) :
    documentSatisfies document [(sidKey, .map [("$in", .list sids)])] =
      .ok ((document.get? sidKey).any fun sid => sid.isIn sids) :=
  documentSatisfies_sid document (Condition.holds_in _ sids)

/-! ### Conditions that are met -/

/-- How a condition is met by a value, or by a missing one: the value is equal to it, it is a
mapping of operators that hold, or the value is a list that has it. -/
inductive Condition.Met : Option Value → Value → Prop
  | equal {v asked : Value} (h : v.same asked = true) : Met (some v) asked
  | operators {v : Option Value} {entries : Entries} (hne : entries ≠ [])
    (hkeys : areOperators entries = .ok true) (h : operatorsHold v entries = .ok true) :
    Met v (.map entries)
  | item {items : List Value} {asked : Value} (h : asked.isIn items = true) :
    Met (some (.list items)) asked

namespace Condition

theorem met_of_equals {v : Option Value} {asked : Value} (h : equals v asked = true) :
    Met v asked := by
  unfold equals at h
  split at h
  · cases h
  · next items =>
    split at h
    · exact .equal h
    · exact .item h
  · exact .equal h

/-- A condition that holds is met. -/
theorem met_of_holds {v : Option Value} {asked : Value} (h : holds v asked = .ok true) :
    Met v asked := by
  unfold holds at h
  split at h
  · exact met_of_equals (Except.ok.inj h)
  · next hne =>
    obtain ⟨operators, hkeys, h⟩ := Outcome.bind_eq_ok.mp h
    cases operators with
    | true => exact .operators hne (liftValue_eq_ok.mp hkeys) h
    | false => exact met_of_equals (Except.ok.inj h)
  · exact met_of_equals (Except.ok.inj h)

end Condition

/-- A document that satisfies a query by keys meets its conditions. -/
theorem Entries.Satisfies.met {document query : Entries}
    (hkeys : ∀ e ∈ query, ∃ path : Text, e.1 = .text path ∧ path.pieces dotMark = [path])
    (h : document.Satisfies query) : ∀ e ∈ query, Condition.Met (document.get? e.1) e.2 := by
  induction query with
  | nil => exact nofun
  | cons e rest ih =>
    obtain ⟨⟨path, hkey, hpath⟩, hrest⟩ := List.forall_mem_cons.mp hkeys
    obtain ⟨key, condition⟩ := e
    cases hkey
    unfold Satisfies documentSatisfies at h
    obtain ⟨holds, hholds, h⟩ := Outcome.bind_eq_ok.mp h
    cases holds with
    | true =>
      rw [lookupPath_key hpath] at hholds
      exact List.forall_mem_cons.mpr ⟨Condition.met_of_holds hholds, ih hrest h⟩
    | false => cases h

end ScanCatalog
