import ScanCatalog.Proofs.Filter.Grammar
import ScanCatalog.Proofs.Routing.Owners

/-!
# Divided filters

A router divides a filter expression between the backends. Every key goes to the backend that
owns it, or is left out if none does. Put together, the parts are the entries of the expression
again, each with the very value that it had there, and no part changes their order.

## Main definitions

* `Routed.query`, `Routed.dropped`: what a backend is asked, and what no backend is;
* `Routed.Divides`: the parts make up an expression.

## Main statements

* `Routed.divides_split`: a table divides each expression that is read;
* `Router.route_divides`: and a router does, or refuses the keys without an owner.
-/

namespace ScanCatalog

/-- The entries of a filter expression; null has none. -/
def Value.filterEntries (expression : Value) : Entries := expression.entries?.getD []

/-- The keys of an expression that have no owner, in its order. -/
def RoutingTable.unownedKeys (table : RoutingTable) (service : Text) (entries : Entries) :
    List Text :=
  (entries.keys.map Value.display).filter fun key => (table.owner? service key).isNone

namespace Routed

/-- What a backend is asked, in the form that the documents are asked in. -/
def query (routed : Routed) (backend : Backend) : Entries :=
  (routed.termsFor backend).toDocumentQuery

/-- The entries of an expression that no backend is asked for. -/
def dropped (routed : Routed) (entries : Entries) : Entries :=
  entries.filter fun e => decide (e.1 ∈ routed.unowned.map Value.text)

/-- A split filter has the entries of an expression in its parts, each of them once. -/
structure Divides (routed : Routed) (table : RoutingTable) (service : Text) (entries : Entries) :
    Prop where
  /-- a backend gets the keys that it owns -/
  owned : ∀ backend, ∀ key ∈ entries.keys, key ∈ (routed.query backend).keys ↔
    ∃ owner, table.owner? service key.display = some owner ∧ owner.backend = backend
  /-- the keys without an owner are listed in order -/
  unowned : routed.unowned = table.unownedKeys service entries
  /-- a key is asked of one backend only, or listed -/
  apart : ∀ key ∈ entries.keys,
    ((∃! backend, key ∈ (routed.query backend).keys) ∧ key ∉ routed.unowned.map Value.text) ∨
      ((∀ backend, key ∉ (routed.query backend).keys) ∧ key ∈ routed.unowned.map Value.text)
  inOrder : ∀ backend, (routed.query backend).Sublist entries
  droppedInOrder : (routed.dropped entries).Sublist entries
  whole : (routed.query .sql ++ routed.query .mongodb ++ routed.dropped entries).Perm entries

end Routed

/-! ### Parts of an expression -/

variable {table : RoutingTable} {service : Text} {entries : Entries} {terms : Terms}

/-- A backend is asked for the entries that it owns. -/
theorem RoutingTable.query_split (hterms : Terms.ofEntries entries = .ok terms)
    (backend : Backend) :
    (table.split service terms).query backend = entries.filter fun e =>
      (table.owner? service e.1.display).any fun owner => owner.backend == backend := by
  have htermsFor : (table.split service terms).termsFor backend =
      table.termsOf service backend terms := by
    cases backend <;> rfl
  rw [Routed.query, htermsFor, ← Terms.toDocumentQuery_of_ofEntries hterms]
  simp only [RoutingTable.termsOf, Terms.toDocumentQuery, List.filter_map]
  rfl

theorem RoutingTable.unowned_split (hterms : Terms.ofEntries entries = .ok terms) :
    (table.split service terms).unowned = table.unownedKeys service entries := by
  rw [← Terms.toDocumentQuery_of_ofEntries hterms]
  simp only [RoutingTable.split, RoutingTable.unownedKeys, Terms.toDocumentQuery, Entries.keys,
    List.map_map, List.filter_map]
  rfl

/-- The keys of an expression that is read are texts. -/
theorem Terms.textKeys_of_ofEntries (hterms : ofEntries entries = .ok terms) :
    entries.TextKeys := by
  rw [← toDocumentQuery_of_ofEntries hterms]
  intro e he
  obtain ⟨term, -, rfl⟩ := List.mem_map.mp he
  exact ⟨term.1, rfl⟩

/-- A key is listed just if it has no owner. -/
theorem RoutingTable.mem_unownedKeys (htexts : entries.TextKeys) {key : Value}
    (hkey : key ∈ entries.keys) :
    key ∈ (table.unownedKeys service entries).map Value.text ↔
      table.owner? service key.display = none := by
  have htext : ∃ t, key = .text t := by
    obtain ⟨e, he, rfl⟩ := List.mem_map.mp hkey
    exact htexts e he
  obtain ⟨t, rfl⟩ := htext
  simp only [RoutingTable.unownedKeys, List.mem_map, List.mem_filter, Option.isNone_iff_eq_none,
    Value.text.injEq, Value.display_text]
  constructor
  · rintro ⟨s, ⟨-, hnone⟩, rfl⟩
    exact hnone
  · intro hnone
    exact ⟨t, ⟨⟨.text t, hkey, rfl⟩, hnone⟩, rfl⟩

theorem RoutingTable.dropped_split (hterms : Terms.ofEntries entries = .ok terms) :
    (table.split service terms).dropped entries =
      entries.filter fun e => (table.owner? service e.1.display).isNone := by
  refine List.filter_congr fun e he => ?_
  have hkey : e.1 ∈ entries.keys := List.mem_map_of_mem he
  rw [RoutingTable.unowned_split hterms, Bool.eq_iff_iff, decide_eq_true_eq,
    RoutingTable.mem_unownedKeys (Terms.textKeys_of_ofEntries hterms) hkey,
    Option.isNone_iff_eq_none]

/-- The entries for both backends and those without an owner are all entries. -/
theorem RoutingTable.filter_owners_perm (owner? : Value × Value → Option RoutingEntry) :
    (entries.filter (fun e => (owner? e).any fun owner => owner.backend == .sql) ++
        entries.filter (fun e => (owner? e).any fun owner => owner.backend == .mongodb) ++
        entries.filter fun e => (owner? e).isNone).Perm entries := by
  have hsql : entries.filter (fun e => (owner? e).any fun owner => owner.backend == .sql) =
      (entries.filter fun e => (owner? e).isSome).filter fun e =>
        (owner? e).any fun owner => owner.backend == .sql := by
    rw [List.filter_filter]
    refine List.filter_congr fun e _ => ?_
    cases owner? e <;> simp
  have hmongodb : entries.filter (fun e => (owner? e).any fun owner => owner.backend == .mongodb) =
      (entries.filter fun e => (owner? e).isSome).filter fun e =>
        !(owner? e).any fun owner => owner.backend == .sql := by
    rw [List.filter_filter]
    refine List.filter_congr fun e _ => ?_
    cases owner? e with
    | none => rfl
    | some owner => cases hbackend : owner.backend <;> simp [hbackend]
  have hnone : (entries.filter fun e => (owner? e).isNone) =
      entries.filter fun e => !(owner? e).isSome := by simp
  rw [hsql, hmongodb, hnone]
  exact ((List.filter_append_perm _ _).append_right _).trans (List.filter_append_perm _ _)

/-- A table divides every expression that is read. -/
theorem Routed.divides_split (hterms : Terms.ofEntries entries = .ok terms) :
    (table.split service terms).Divides table service entries := by
  have htexts := Terms.textKeys_of_ofEntries hterms
  have howned : ∀ backend, ∀ key ∈ entries.keys,
      key ∈ ((table.split service terms).query backend).keys ↔
        ∃ owner, table.owner? service key.display = some owner ∧ owner.backend = backend := by
    intro backend key hkey
    obtain ⟨e, he, rfl⟩ := List.mem_map.mp hkey
    simp only [RoutingTable.query_split hterms, Entries.keys, List.mem_map, List.mem_filter,
      Option.any_eq_true, beq_iff_eq]
    constructor
    · rintro ⟨other, ⟨-, howner⟩, hsame⟩
      rwa [hsame] at howner
    · intro howner
      exact ⟨e, ⟨he, howner⟩, rfl⟩
  refine ⟨howned, RoutingTable.unowned_split hterms, ?_, ?_, ?_, ?_⟩
  · intro key hkey
    rw [RoutingTable.unowned_split hterms, RoutingTable.mem_unownedKeys htexts hkey]
    cases howner : table.owner? service key.display with
    | none =>
      refine .inr ⟨fun backend hmem => ?_, rfl⟩
      obtain ⟨owner, hsome, -⟩ := (howned backend key hkey).mp hmem
      simp [howner] at hsome
    | some owner =>
      refine .inl ⟨⟨owner.backend, (howned _ key hkey).mpr ⟨owner, howner, rfl⟩, ?_⟩, by simp⟩
      intro backend hmem
      obtain ⟨other, hsome, rfl⟩ := (howned backend key hkey).mp hmem
      rw [howner] at hsome
      cases hsome
      rfl
  · intro backend
    rw [RoutingTable.query_split hterms]
    exact List.filter_sublist
  · rw [RoutingTable.dropped_split hterms]
    exact List.filter_sublist
  · rw [RoutingTable.query_split hterms, RoutingTable.query_split hterms,
      RoutingTable.dropped_split hterms]
    exact RoutingTable.filter_owners_perm fun e => table.owner? service e.1.display

/-! ### Routes -/

namespace Router

variable {router : Router} {expression : Value}

/-- An expression that is read has the terms of its entries. -/
theorem ofEntries_of_ofValue (h : Terms.ofValue expression = .ok terms) :
    Terms.ofEntries expression.filterEntries = .ok terms := by
  cases expression with
  | map entries => exact h
  | null => exact h
  | _ => cases h

theorem route_of_ofValue (hterms : Terms.ofValue expression = .ok terms) :
    router.route service expression =
      if router.strict && !(router.table.split service terms).unowned.isEmpty then
        .error (.unroutable service (router.table.split service terms).unowned)
      else .ok (router.table.split service terms) := by
  rw [route, hterms]
  rfl

/-- An expression that is read is divided: nothing is lost, nothing comes twice, and every value
is the one that was given. Only a strict router refuses it, if and only if a key has no owner;
it names the keys without an owner, in their order. -/
theorem route_divides (hterms : Terms.ofValue expression = .ok terms) :
    (∀ routed, router.route service expression = .ok routed →
      routed.Divides router.table service expression.filterEntries) ∧
    (router.strict = false → ∃ routed, router.route service expression = .ok routed) ∧
    (router.strict = true → ∀ fault, router.route service expression = .error fault ↔
      (∃ key ∈ expression.filterEntries.keys, router.table.owner? service key.display = none) ∧
        fault = .unroutable service
          (router.table.unownedKeys service expression.filterEntries)) := by
  have hread := ofEntries_of_ofValue hterms
  have hunowned : (router.table.split service terms).unowned.isEmpty = false ↔
      ∃ key ∈ expression.filterEntries.keys,
        router.table.owner? service key.display = none := by
    rw [RoutingTable.unowned_split hread, ← Bool.not_eq_true, List.isEmpty_iff]
    simp [RoutingTable.unownedKeys, List.filter_eq_nil_iff]
  rw [route_of_ofValue hterms]
  refine ⟨?_, ?_, ?_⟩
  · intro routed hrouted
    split at hrouted
    · cases hrouted
    · cases hrouted
      exact Routed.divides_split hread
  · intro hstrict
    simp [hstrict]
  · intro hstrict fault
    rw [hstrict, Bool.true_and, ← hunowned, ← RoutingTable.unowned_split hread]
    cases hempty : (router.table.split service terms).unowned.isEmpty with
    | true => simp
    | false => simp [eq_comm]

/-! ### A key that nobody owns -/

/-- Conditions on a motor, on a field without an owner, and on one of the documents. -/
def untitled : Value :=
  .map [("motors.samx", .map [("$gt", .int 1), ("$lt", .int 3)]), ("title", .list ["t"]),
    ("did", .map [("part", .null)])]

theorem route_divides_untitled :
    (∃ terms, Terms.ofValue untitled = .ok terms) ∧
    (∃ routed, (Router.mk (.builtIn "SpecScans") false).route "SpecScans" untitled = .ok routed ∧
      routed.Divides (.builtIn "SpecScans") "SpecScans" untitled.filterEntries) ∧
    (Router.mk (.builtIn "SpecScans") true).route "SpecScans" untitled =
      .error (.unroutable "SpecScans" ["title"]) := by
  obtain ⟨terms, hterms⟩ : ∃ terms, Terms.ofValue untitled = .ok terms := ⟨_, rfl⟩
  refine ⟨⟨terms, hterms⟩, ?_, ?_⟩
  · obtain ⟨routed, hrouted⟩ : ∃ routed,
        (Router.mk (.builtIn "SpecScans") false).route "SpecScans" untitled = .ok routed :=
      (route_divides hterms).2.1 rfl
    exact ⟨routed, hrouted, (route_divides hterms).1 routed hrouted⟩
  · have htitle : Value.text "title" ∈ untitled.filterEntries.keys := by decide
    have hnone : (RoutingTable.builtIn "SpecScans").owner? "SpecScans" "title" = none := by decide
    exact ((route_divides hterms).2.2 rfl _).mpr ⟨⟨_, htitle, hnone⟩, by decide⟩

end Router

end ScanCatalog
