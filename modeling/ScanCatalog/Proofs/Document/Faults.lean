import ScanCatalog.Proofs.Document.Change
import ScanCatalog.Proofs.Record.Body

/-!
# What the document store refuses

A condition on a document fails in two ways. An operator that is not known is a fault of the
document store. An argument of `$in` that is no list is a fault of a value, and depends on the
value in the document. Nothing else fails: values without an order do not compare, and paths
of JSON are texts.

## Main definitions

* `Entries.AsksIn`: a query with such an argument of `$in`.

## Main statements

* `findDocuments_eq_error`: why a search of documents fails;
* `Collections.insert_eq_error`: why a document is not put in.
-/

namespace ScanCatalog

namespace Value

/-- A value that cannot be among others that are no list, or octets. -/
theorem isMember_eq_error {v argument : Value} {fault : ValueFault} (hjson : argument.IsJson)
    (h : v.isMember argument = .error fault) :
    fault.kind = "TypeError" ∧ ∀ items, argument ≠ .list items := by
  cases hjson with
  | list => cases h
  | text t =>
    cases v with
    | text part => cases h
    | _ => cases h; exact ⟨rfl, nofun⟩
  | map =>
    unfold isMember at h
    dsimp only at h
    split at h
    · cases h
    · cases h; exact ⟨rfl, nofun⟩
  | _ => cases h; exact ⟨rfl, nofun⟩

end Value

/-- One of the conditions has operators, with an argument of `$in` that is no list. -/
def Entries.AsksIn (query : Entries) : Prop :=
  ∃ path entries argument, (path, Value.map entries) ∈ query ∧ (Value.text "$in", argument) ∈ entries ∧
    ∀ items, argument ≠ .list items

namespace Condition

variable {v : Option Value} {fault : Fault}

theorem operatorHolds_eq_error {operator : Text} {argument : Value} (hjson : argument.IsJson)
    (h : operatorHolds v operator argument = .error fault) :
    fault = .documentStore (.unknownOperator operator) ∨
      operator = "$in" ∧ (∀ items, argument ≠ .list items) ∧
        ∃ cause, fault = .value cause ∧ cause.kind = "TypeError" := by
  unfold operatorHolds at h
  split at h
  · cases h
  split at h
  · cases h
  split at h
  · cases h
  split at h
  · next hin =>
    split at h
    · cases h
    · next w =>
      cases hmember : w.isMember argument with
      | ok member => rw [hmember] at h; cases h
      | error cause =>
        rw [hmember] at h
        cases h
        obtain ⟨hkind, hlist⟩ := Value.isMember_eq_error hjson hmember
        exact .inr ⟨hin, hlist, cause, rfl, hkind⟩
  · split at h
    · cases h
    · cases h; exact .inl rfl

theorem operatorsHold_eq_error {entries : Entries}
    (h : operatorsHold v entries = .error fault) :
    ∃ e ∈ entries, operatorHolds v e.1.display e.2 = .error fault := by
  induction entries with
  | nil => cases h
  | cons e rest ih =>
    obtain ⟨operator, argument⟩ := e
    rcases Outcome.bind_eq_error.mp h with h | ⟨holds, -, h⟩
    · exact ⟨_, List.mem_cons_self, h⟩
    · cases holds with
      | false => cases h
      | true =>
        obtain ⟨e, he, h⟩ := ih h
        exact ⟨e, List.mem_cons_of_mem _ he, h⟩

/-- Keys that are texts can be asked whether they are operators. -/
theorem areOperators_texts {entries : Entries} (h : entries.TextKeys) :
    ∃ all, areOperators entries = .ok all := by
  induction entries with
  | nil => exact ⟨true, rfl⟩
  | cons e rest ih =>
    obtain ⟨key, argument⟩ := e
    obtain ⟨⟨t, ht⟩, hrest⟩ := List.forall_mem_cons.mp h
    obtain ⟨all, hall⟩ := ih hrest
    dsimp only at ht
    subst ht
    unfold areOperators
    split
    · exact ⟨all, hall⟩
    · exact ⟨false, rfl⟩

theorem holds_eq_error {condition : Value} (hjson : condition.IsJson)
    (h : holds v condition = .error fault) :
    (∃ operator, fault = .documentStore (.unknownOperator operator)) ∨
      ∃ entries argument cause, condition = .map entries ∧ (Value.text "$in", argument) ∈ entries ∧
        (∀ items, argument ≠ .list items) ∧ fault = .value cause ∧ cause.kind = "TypeError" := by
  cases hjson with
  | @map entries htexts hdistinct hvalues =>
    have hholds : operatorsHold v entries = .error fault := by
      obtain ⟨all, hall⟩ := areOperators_texts htexts
      cases entries with
      | nil => cases h
      | cons e rest =>
        unfold holds at h
        dsimp only at h
        rw [hall, liftValue_ok, Outcome.ok_bind] at h
        cases all with
        | false => cases h
        | true => exact h
    obtain ⟨e, he, h⟩ := operatorsHold_eq_error hholds
    obtain ⟨t, ht⟩ := htexts e he
    rw [ht, Value.display_text] at h
    rcases operatorHolds_eq_error (hvalues e he) h with hunknown | ⟨rfl, hlist, cause, hfault⟩
    · exact .inl ⟨t, hunknown⟩
    · exact .inr ⟨entries, e.2, cause, rfl, ht ▸ he, hlist, hfault⟩
  | _ => cases h

end Condition

variable {query document : Entries} {documents : List Entries} {fault : Fault}

theorem documentSatisfies_eq_error (htexts : query.TextKeys)
    (h : documentSatisfies document query = .error fault) :
    ∃ e ∈ query, ∃ v, Condition.holds v e.2 = .error fault := by
  induction query with
  | nil => cases h
  | cons e rest ih =>
    obtain ⟨path, condition⟩ := e
    obtain ⟨⟨t, ht⟩, hrest⟩ := List.forall_mem_cons.mp htexts
    dsimp only at ht
    subst ht
    rcases Outcome.bind_eq_error.mp h with h | ⟨holds, -, h⟩
    · exact ⟨_, List.mem_cons_self, _, h⟩
    · cases holds with
      | false => cases h
      | true =>
        obtain ⟨e, he, h⟩ := ih hrest h
        exact ⟨e, List.mem_cons_of_mem _ he, h⟩

theorem exists_of_findDocuments_eq_error (h : findDocuments query documents = .error fault) :
    ∃ d ∈ documents, documentSatisfies d query = .error fault := by
  induction documents with
  | nil => cases h
  | cons d rest ih =>
    rcases Outcome.bind_eq_error.mp h with h | ⟨satisfied, -, h⟩
    · exact ⟨d, List.mem_cons_self, h⟩
    · have hrest : findDocuments query rest = .error fault := by
        cases satisfied with
        | false => exact h
        | true =>
          rcases Outcome.bind_eq_error.mp h with h | ⟨found, -, h⟩
          · exact h
          · cases h
      obtain ⟨d, hd, h⟩ := ih hrest
      exact ⟨d, List.mem_cons_of_mem _ hd, h⟩

/-- Documents cannot be searched for an operator that is not known, or for one that needs a list
and has none. -/
theorem findDocuments_eq_error (htexts : query.TextKeys) (hjson : ∀ e ∈ query, e.2.IsJson)
    (h : findDocuments query documents = .error fault) :
    fault.isReported = true ∨
      query.AsksIn ∧ ∃ cause : ValueFault, fault = .value cause ∧ cause.kind = "TypeError" := by
  obtain ⟨d, -, h⟩ := exists_of_findDocuments_eq_error h
  obtain ⟨⟨path, condition⟩, he, v, h⟩ := documentSatisfies_eq_error htexts h
  rcases Condition.holds_eq_error (hjson _ he) h with
    ⟨operator, rfl⟩ | ⟨entries, argument, cause, rfl, hargument, hlist, hfault⟩
  · exact .inl rfl
  · exact .inr ⟨⟨path, entries, argument, he, hargument, hlist⟩, cause, hfault⟩

/-! ### Documents that cannot be put in -/

/-- A document is refused for its sid only, if that can be a member of a set. -/
theorem insertDocuments_eq_error {stored : List Entries}
    (hstored : ∀ d ∈ stored, (Entries.get d sidKey).isHashable = true)
    (hhashable : (document.get sidKey).isHashable = true)
    (h : insertDocuments stored [document] = .error fault) :
    fault = .documentStore (.duplicateSid (document.get sidKey)) := by
  have hrequire : requireHashable (document.get sidKey) = .ok () := if_pos hhashable
  unfold insertDocuments at h
  dsimp only at h
  rw [forM_requireHashable hstored, Outcome.ok_bind] at h
  rcases Outcome.bind_eq_error.mp h with h | ⟨_, -, h⟩
  swap
  · cases h
  change (checkNewSid _ document >>= fun _ => Except.ok ()) = _ at h
  rcases Outcome.bind_eq_error.mp h with h | ⟨_, -, h⟩
  swap
  · cases h
  unfold checkNewSid at h
  dsimp only at h
  rw [hrequire, Outcome.ok_bind] at h
  split at h
  · exact (Except.error.inj h).symm
  · cases h

theorem Collections.insert_eq_error {name : Text} {state state' : Collections}
    (hstored : ∀ d ∈ state.documents name, (Entries.get d sidKey).isHashable = true)
    (hhashable : (document.get sidKey).isHashable = true)
    (hrun : (store.insert name [document]).run state = (.error fault, state')) :
    fault = .documentStore (.duplicateSid (document.get sidKey)) := by
  refine insertDocuments_eq_error hstored hhashable ?_
  rcases Action.run_bind_cases hrun with ⟨cause, hchange, heq⟩ | ⟨_, _, -, hrun⟩
  · cases heq
    unfold change Action.run at hchange
    dsimp only at hchange
    split at hchange
    · cases hchange
    · next hinsert =>
      cases hchange
      exact hinsert
  · cases hrun

end ScanCatalog
