import ScanCatalog.Proofs.Record.Body

/-!
# Records that are equal to themselves

Mappings are equal if they have equal values under the same keys, in whatever order. What is
not a number is not equal to itself, and so nothing is that holds it. No numeral of JSON stands
for it, and a body that gives its name is refused: what a text sends is equal to itself.

## Main definitions

* `Value.IsPlainBody`: bodies whose records are equal to themselves.

## Main statements

* `Entries.map_same_iff`: equality of mappings, key by key;
* `Json.same_self_of_read`: what is read from a text is equal to itself;
* `same_self_of_decodeRecords`: and so are the records of a body.
-/

namespace ScanCatalog

/-! ### Equality of lists and mappings -/

namespace Value

/-- A list is equal to itself just if its items are. -/
theorem list_same_self_iff {items : List Value} :
    (Value.list items).same (.list items) = true ↔ ∀ v ∈ items, v.same v = true := by
  change sameList items items = true ↔ _
  induction items with
  | nil => exact iff_of_true rfl (List.forall_mem_nil _)
  | cons v rest ih =>
    rw [List.forall_mem_cons, ← ih]
    exact Bool.and_eq_true_iff

/-- Each entry has an equal one just if an equal value is found under its key. -/
theorem sameEntries_iff {entries others : Entries} :
    sameEntries entries others = true ↔
      ∀ e ∈ entries, ∃ w, others.get? e.1 = some w ∧ e.2.same w = true := by
  induction entries with
  | nil => exact ⟨fun _ => nofun, fun _ => rfl⟩
  | cons e rest ih =>
    obtain ⟨k, v⟩ := e
    unfold sameEntries
    rw [Bool.and_eq_true, ih, List.forall_mem_cons]
    refine and_congr_left' ?_
    unfold Entries.get?
    cases others.find? fun e => k.same e.1 with
    | none => exact ⟨nofun, nofun⟩
    | some e => simp

end Value

namespace Entries

variable {entries others : Entries} {t : Text}

theorem mem_keys_iff : .text t ∈ entries.keys ↔ (entries.get? (.text t)).isSome = true := by
  rw [← has_eq_isSome, ← not_iff_not, Bool.not_eq_true, has_text_eq_false_iff]
  unfold keys
  rw [List.mem_map, not_exists]
  exact forall_congr' fun e => not_and

theorem TextKeys.exists_of_mem_keys (h : entries.TextKeys) {k : Value} (hk : k ∈ entries.keys) :
    ∃ t, k = .text t := by
  obtain ⟨e, he, rfl⟩ := List.mem_map.mp hk
  exact h e he

/-- Mappings in which the same keys are found have the same keys, in whatever order. -/
theorem keys_perm_of_get? (htexts : entries.TextKeys) (hdistinct : entries.Distinct)
    (hothers : others.TextKeys) (hdistinct' : others.Distinct)
    (h : ∀ t, (entries.get? (.text t)).isSome = (others.get? (.text t)).isSome) :
    entries.keys.Perm others.keys := by
  refine (List.perm_ext_iff_of_nodup (htexts.distinct_iff.mp hdistinct)
    (hothers.distinct_iff.mp hdistinct')).mpr fun k => ?_
  constructor
  · intro hk
    obtain ⟨t, rfl⟩ := htexts.exists_of_mem_keys hk
    rwa [mem_keys_iff, ← h, ← mem_keys_iff]
  · intro hk
    obtain ⟨t, rfl⟩ := hothers.exists_of_mem_keys hk
    rwa [mem_keys_iff, h, ← mem_keys_iff]

/-- A mapping whose keys are found in another of its length has the keys of the other. -/
theorem keys_perm_of_length (htexts : entries.TextKeys) (hdistinct : entries.Distinct)
    (hlength : entries.length = others.length)
    (h : ∀ e ∈ entries, (others.get? e.1).isSome = true) : entries.keys.Perm others.keys := by
  have hsubset : entries.keys ⊆ others.keys := by
    intro k hk
    obtain ⟨t, rfl⟩ := htexts.exists_of_mem_keys hk
    obtain ⟨e, he, hkey⟩ := List.mem_map.mp hk
    rw [mem_keys_iff, ← hkey]
    exact h e he
  refine (List.subperm_of_subset (htexts.distinct_iff.mp hdistinct) hsubset).perm_of_length_le ?_
  rw [keys, keys, List.length_map, List.length_map]
  exact Nat.le_of_eq hlength.symm

/-- Mappings are equal if they have equal values under each key, or none. -/
theorem map_same_iff (htexts : entries.TextKeys) (hdistinct : entries.Distinct)
    (hothers : others.TextKeys) (hdistinct' : others.Distinct) :
    (Value.map entries).same (.map others) = true ↔
      ∀ t, Option.Rel (fun v w => v.same w = true) (entries.get? (.text t))
        (others.get? (.text t)) := by
  change (entries.length == others.length && Value.sameEntries entries others) = true ↔ _
  rw [Bool.and_eq_true, beq_iff_eq, Value.sameEntries_iff]
  constructor
  · rintro ⟨hlength, hsame⟩ t
    have hperm : entries.keys.Perm others.keys := by
      refine keys_perm_of_length htexts hdistinct hlength fun e he => ?_
      obtain ⟨w, hw, -⟩ := hsame e he
      exact Option.isSome_iff_exists.mpr ⟨w, hw⟩
    cases hget : entries.get? (.text t) with
    | some v =>
      obtain ⟨w, hw, hvw⟩ := hsame _ (get?_eq_some_mem hget)
      rw [hw]
      exact .some hvw
    | none =>
      have hnone : others.get? (.text t) = none := by
        rw [← Option.not_isSome_iff_eq_none, ← mem_keys_iff, ← hperm.mem_iff, mem_keys_iff, hget]
        exact Bool.false_ne_true
      rw [hnone]
      exact .none
  · intro h
    have hperm : entries.keys.Perm others.keys := by
      refine keys_perm_of_get? htexts hdistinct hothers hdistinct' fun t => ?_
      have hrel := h t
      generalize entries.get? (.text t) = v, others.get? (.text t) = w at hrel
      cases hrel <;> rfl
    refine ⟨?_, fun e he => ?_⟩
    · have hlength := hperm.length_eq
      rwa [keys, keys, List.length_map, List.length_map] at hlength
    · obtain ⟨t, ht⟩ := htexts e he
      have hget : entries.get? (.text t) = some e.2 := hdistinct.get?_eq_some_iff.mpr (ht ▸ he)
      have hrel := h t
      rw [hget] at hrel
      rw [ht]
      generalize others.get? (.text t) = found at hrel
      cases hrel with
      | some hsame => exact ⟨_, rfl, hsame⟩

/-- A mapping is equal to one with other values just if those are equal to its own. -/
theorem map_same_mapValues_iff (htexts : entries.TextKeys) (hdistinct : entries.Distinct)
    (f : Value → Value) :
    (Value.map entries).same (.map (mapValues f entries)) = true ↔
      ∀ e ∈ entries, e.2.same (f e.2) = true := by
  have htexts' : (mapValues f entries).TextKeys := List.forall_mem_map.mpr htexts
  rw [map_same_iff htexts hdistinct htexts' (hdistinct.mapValues f)]
  constructor
  · intro h e he
    obtain ⟨t, ht⟩ := htexts e he
    have hget : entries.get? (.text t) = some e.2 := hdistinct.get?_eq_some_iff.mpr (ht ▸ he)
    have hrel := h t
    rw [get?_mapValues, hget] at hrel
    cases hrel with
    | some hsame => exact hsame
  · intro h t
    rw [get?_mapValues]
    cases hget : entries.get? (.text t) with
    | none => exact .none
    | some v => exact .some (h _ (get?_eq_some_mem hget))

/-- A mapping is equal to itself just if its values are. -/
theorem map_same_self_iff (htexts : entries.TextKeys) (hdistinct : entries.Distinct) :
    (Value.map entries).same (.map entries) = true ↔ ∀ e ∈ entries, e.2.same e.2 = true := by
  have hsame := map_same_mapValues_iff htexts hdistinct id
  have hid : mapValues id entries = entries := List.map_id' entries
  rwa [hid] at hsame

end Entries

/-! ### What a text sends -/

/-- The number nearest to a decimal is equal to itself. -/
theorem Binary64.same_self_ofDecimal (negative : Bool) (coefficient : Nat) (exponent : Int) :
    (ofDecimal negative coefficient exponent).same (ofDecimal negative coefficient exponent) =
      true := by
  unfold ofDecimal
  dsimp only
  split
  · exact same_self_ofRank _ _
  split
  · cases negative <;> rfl
  split
  · exact same_self_ofRank _ _
  split <;> exact same_self_ofRank _ _

namespace Json

/-- Without the names of numbers that are not finite, atoms are equal to themselves. -/
theorem IsAtom.same_self {codes : List Nat} {v : Value} (h : IsAtom false codes v) :
    v.same v = true := by
  cases h with
  | null => rfl
  | bool b => exact beq_self_eq_true _
  | int => exact beq_self_eq_true _
  | constant hallowed => cases hallowed
  | decimal => exact Binary64.same_self_ofDecimal _ _ _

theorem hereditary_same_self (whole : List Nat) :
    Hereditary false whole fun _ v => v.same v = true where
  text _ := Value.same_text_self
  atom _ _ _ _ h := h.same_self
  list _ _ h := Value.list_same_self_iff.mpr h
  map _ _ htexts hdistinct h := (Entries.map_same_self_iff htexts hdistinct).mpr h

/-- What is read from a text is equal to itself. -/
theorem same_self_of_read {t : Text} {v : Value} (h : read false t = .ok v) :
    v.same v = true := (hereditary_same_self t.codes).read h

end Json

/-- What a request carries, if it holds nothing that is not equal to itself: bytes or a text to
be read, or a value of JSON. -/
def Value.IsPlainBody : Value → Prop
  | .bytes _ | .text _ => True
  | v => v.IsJson ∧ v.same v = true

variable {sort : DecodeFault → Fault} {body v : Value} {t : Text} {records : List Entries}

theorem Value.IsPlainBody.isBody (h : body.IsPlainBody) : body.IsBody := by
  cases body with
  | bytes octets => trivial
  | text t => trivial
  | _ => exact h.1

theorem same_self_of_decodeText (h : decodeText sort t = .ok v) : v.same v = true := by
  unfold decodeText at h
  split at h <;> cases h
  next hread => exact Json.same_self_of_read hread

theorem same_self_of_decodeJson (hbody : body.IsPlainBody) (h : decodeJson sort body = .ok v) :
    v.same v = true := by
  cases body with
  | bytes octets =>
    obtain ⟨t, -, h⟩ := Outcome.bind_eq_ok.mp h
    exact same_self_of_decodeText h
  | text t => exact same_self_of_decodeText h
  | _ =>
    cases h
    exact hbody.2

/-- The records of a body are equal to themselves. -/
theorem same_self_of_decodeRecords (hbody : body.IsPlainBody)
    (h : decodeRecords body = .ok records) :
    ∀ r ∈ records, (Value.map r).same (.map r) = true := by
  obtain ⟨v, hv, h⟩ := Outcome.bind_eq_ok.mp h
  have hself := same_self_of_decodeJson hbody hv
  rcases eq_of_recordsOf h with ⟨r, rfl, rfl⟩ | rfl
  · exact List.forall_mem_singleton.mpr hself
  · exact List.forall_mem_map.mp (Value.list_same_self_iff.mp hself)

end ScanCatalog
