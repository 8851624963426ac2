import ScanCatalog.Proofs.Action.Outcome
import ScanCatalog.Record.Schema

/-!
# Descriptions of keys

A schema is made of descriptions, which should be objects. Other values are not refused as such:
an empty text, or a list of pairs, is taken for an object without a key, which is reported. At
the rest the reader breaks down.

## Main definitions

* `Value.IsDescription`: the objects that describe a key;
* `Value.IsMisread`: what is neither an object nor taken for one.

## Main statements

* `SchemaEntry.exists_ofValue_iff`, `SchemaEntry.failsAs_reported_iff`: what a description is read
  to;
* `Schema.failsAs_reported_iff`: the first item that is no description counts.
-/

namespace ScanCatalog

namespace Value

/-- An object with a key, and a type that is known if it has one. -/
def IsDescription : Value → Prop
  | .map entries => Entries.has entries "key" = true ∧
    (FieldType.ofAlias? ((Entries.get? entries "type").getD "any").display.lower).isSome = true
  | _ => False

/-- A value with two items, the first of which can be a key. -/
def IsPair (v : Value) : Prop := ∃ key value, v.items = .ok [key, value] ∧ key.isHashable = true

/-- What is neither an object nor taken for one: a list that holds the word `key` or something
else than pairs, a text that is not empty, and all that is neither list nor text. -/
def IsMisread : Value → Prop
  | .map _ => False
  | .list items => (Value.text "key").isIn items = true ∨ ∃ item ∈ items, ¬ item.IsPair
  | .text t => t.isEmpty = false
  | _ => True

theorem exists_pairOf_iff (index : Nat) {item : Value} :
    (∃ pair, pairOf index item = .ok pair) ↔ item.IsPair := by
  unfold pairOf IsPair
  cases item.items with
  | error fault => simp
  | ok items =>
    match items with
    | [] | [_] | _ :: _ :: _ :: _ => simp
    | [key, value] => cases hkey : key.isHashable <;> simp [hkey]

end Value

namespace Entries

theorem mergePairs_eq_none_iff {index : Nat} {entries : Entries} {items : List Value} :
    (mergePairs index entries items).2 = none ↔ ∀ item ∈ items, item.IsPair := by
  induction items generalizing index entries with
  | nil => simp [mergePairs]
  | cons item rest ih =>
    rw [List.forall_mem_cons, ← Value.exists_pairOf_iff index]
    cases hpair : Value.pairOf index item <;> simp [mergePairs, hpair, ih]

/-- Entries are made of pairs and of nothing else. -/
theorem exists_ofValue_iff {v : Value} {items : List Value} (hitems : v.items = .ok items)
    (hv : ∀ entries, v ≠ .map entries) :
    (∃ entries, ofValue v = .ok entries) ↔ ∀ item ∈ items, item.IsPair := by
  have hmerge : merge [] v = mergePairs 0 [] items := by
    cases v with
    | map entries => exact absurd rfl (hv entries)
    | _ => simp only [merge, hitems]
  rw [← mergePairs_eq_none_iff, ofValue, hmerge]
  rcases mergePairs 0 [] items with ⟨entries, _ | fault⟩ <;> simp

end Entries

/-- A single code point makes no pair. -/
theorem Value.not_isPair_single (c : Nat) : ¬ (Value.text (Text.single c)).IsPair := by
  rintro ⟨key, value, hitems, -⟩
  cases hitems

namespace SchemaEntry

variable {description : Value} {entries : Entries} {entry : SchemaEntry} {items : List Value}

theorem ofEntries_isOk_iff : (∃ entry, ofEntries entries = .ok entry) ↔
    (FieldType.ofAlias? ((entries.get? "type").getD "any").display.lower).isSome = true := by
  simp only [ofEntries]
  cases FieldType.ofAlias? ((entries.get? "type").getD "any").display.lower <;> simp

theorem exists_map_of_ofValue (h : ofValue description = .ok entry) :
    ∃ entries, description = .map entries := by
  obtain ⟨found, -, h⟩ := Outcome.bind_eq_ok.mp h
  cases found with
  | true =>
    cases description with
    | map entries => exact ⟨entries, rfl⟩
    | _ => cases h
  | false =>
    obtain ⟨_, -, h⟩ := Outcome.bind_eq_ok.mp h
    cases h

/-- Just the descriptions of keys are read to what they say. -/
theorem exists_ofValue_iff :
    (∃ entry, ofValue description = .ok entry) ↔ description.IsDescription := by
  cases description with
  | map entries =>
    have hmember : Value.isMember "key" (.map entries) = .ok (Entries.has entries "key") := rfl
    simp only [Value.IsDescription, ← ofEntries_isOk_iff, ofValue, hmember]
    cases Entries.has entries "key" with
    | true => cases ofEntries entries <;> simp
    | false => simp [liftValue, Entries.ofValue, Entries.merge]
  | _ =>
    refine iff_of_false ?_ id
    rintro ⟨entry, h⟩
    obtain ⟨entries, hmap⟩ := exists_map_of_ofValue h
    cases hmap

/-- What has items and is no object may be a sequence of pairs, without the word `key`. -/
theorem failsAs_reported_of_items {found : Bool} (hitems : description.items = .ok items)
    (hmember : Value.isMember "key" description = .ok found)
    (hv : ∀ entries, description ≠ .map entries) :
    Outcome.FailsAs (fun fault => fault.isReported = true) (ofValue description) ↔
      found = false ∧ ∀ item ∈ items, item.IsPair := by
  rw [← Entries.exists_ofValue_iff hitems hv]
  simp only [ofValue, hmember]
  cases found with
  | true =>
    cases description with
    | map entries => exact absurd rfl (hv entries)
    | _ => simp [Fault.isReported, Fault.family?]
  | false =>
    cases Entries.ofValue description <;> simp [Fault.isReported, Fault.family?]

/-- The faults of a value that is not misread are reported. -/
theorem failsAs_reported_iff :
    Outcome.FailsAs (fun fault => fault.isReported = true) (ofValue description) ↔
      ¬ description.IsMisread := by
  cases description with
  | map entries =>
    have hmember : Value.isMember "key" (.map entries) = .ok (Entries.has entries "key") := rfl
    refine iff_of_true ?_ id
    simp only [ofValue, hmember]
    cases Entries.has entries "key" with
    | true => cases ofEntries entries <;> simp [Fault.isReported, Fault.family?]
    | false => simp [liftValue, Entries.ofValue, Entries.merge, Fault.isReported, Fault.family?]
  | list items =>
    have hmember : Value.isMember "key" (.list items) = .ok ((Value.text "key").isIn items) := rfl
    rw [failsAs_reported_of_items rfl hmember (by simp)]
    simp [Value.IsMisread]
  | text t =>
    have hmember : Value.isMember "key" (.text t) = .ok (t.contains "key") := rfl
    rw [failsAs_reported_of_items rfl hmember (by simp)]
    rcases t with ⟨_ | ⟨c, rest⟩⟩
    · exact iff_of_true ⟨rfl, List.forall_mem_nil _⟩ Bool.true_eq_false.mp
    · refine iff_of_false ?_ (not_not_intro rfl)
      rintro ⟨-, hpairs⟩
      exact Value.not_isPair_single c (hpairs _ List.mem_cons_self)
  | _ =>
    refine iff_of_false (fun h => ?_) (not_not_intro trivial)
    have hreported := h (.value _) rfl
    cases hreported

end SchemaEntry

/-- Of the items of a schema, the first that is no description counts. -/
theorem Schema.failsAs_reported_iff {items : List Value} :
    Outcome.FailsAs (fun fault => fault.isReported = true) (ofItems items) ↔
      ∀ before item after, items = before ++ item :: after →
        (∀ description ∈ before, description.IsDescription) → ¬ item.IsMisread := by
  simp only [ofItems, Outcome.failsAs_bind_iff, Outcome.failsAs_mapM_iff,
    SchemaEntry.exists_ofValue_iff, SchemaEntry.failsAs_reported_iff]
  simp

end ScanCatalog
