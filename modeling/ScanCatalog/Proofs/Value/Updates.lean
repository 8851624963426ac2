import Mathlib.Data.List.Perm.Subperm
import ScanCatalog.Proofs.Value.Entries

/-!
# Updated entries

How putting several entries in works together with taking one out, with changing the values,
and with putting the same entries in again.

## Main definitions

* `Entries.TextKeys`: mappings whose keys are texts;
* `Entries.mapValues`: the entries with other values.

## Main statements

* `Entries.erase_update`, `Entries.erase_set_self`: an entry that is taken out;
* `Entries.update_update`: entries that are put in twice;
* `Entries.get?_update`, `Entries.mem_update_value`, `Entries.mem_update_of_mem`: the values after
  changes;
* `Entries.mapValues_update`: values that are changed before or after;
* `Entries.get?_perm`: entries in any order.
-/

namespace ScanCatalog

theorem Value.same_text_self (t : Text) : (Value.text t).same (.text t) = true :=
  Value.text_same_iff.mpr rfl

namespace Entries

/-- All keys are texts, as in every mapping that comes from JSON. -/
def TextKeys (entries : Entries) : Prop := ∀ e ∈ entries, ∃ t, e.1 = .text t

variable {entries changes : Entries} {key value : Value} {t other : Text}

theorem TextKeys.filter (h : entries.TextKeys) (condition : Value × Value → Bool) :
    TextKeys (entries.filter condition) := fun e he => h e (List.mem_filter.mp he).1

theorem TextKeys.set (h : entries.TextKeys) (t : Text) (value : Value) :
    (entries.set (.text t) value).TextKeys := by
  intro e he
  have hkey : e.1 ∈ (entries.set (.text t) value).keys := List.mem_map_of_mem he
  rw [keys_set] at hkey
  split at hkey
  · obtain ⟨e', he', hkey⟩ := List.mem_map.mp hkey
    obtain ⟨s, hs⟩ := h e' he'
    exact ⟨s, hkey.symm.trans hs⟩
  · rcases List.mem_append.mp hkey with hkey | hkey
    · obtain ⟨e', he', hkey⟩ := List.mem_map.mp hkey
      obtain ⟨s, hs⟩ := h e' he'
      exact ⟨s, hkey.symm.trans hs⟩
    · exact ⟨t, List.mem_singleton.mp hkey⟩

theorem TextKeys.update (h : entries.TextKeys) (hchanges : changes.TextKeys) :
    (entries.update changes).TextKeys := by
  induction changes generalizing entries with
  | nil => exact h
  | cons e rest ih =>
    obtain ⟨⟨t, ht⟩, hrest⟩ := List.forall_mem_cons.mp hchanges
    have hset : (entries.set e.1 e.2).TextKeys := by
      rw [ht]
      exact h.set t e.2
    exact ih hset hrest

/-! ### Taking an entry out -/

theorem erase_of_not_has (h : entries.has key = false) : entries.erase key = entries :=
  List.filter_eq_self.mpr fun e he => by rw [has_eq_false_iff.mp h e he]; rfl

@[simp] theorem has_erase_self (entries : Entries) (t : Text) :
    (entries.erase (.text t)).has (.text t) = false := by
  rw [has_eq_isSome, get?_erase_self]
  rfl

theorem has_of_get?_eq (h : entries.get? key = changes.get? key) :
    entries.has key = changes.has key := by
  rw [has_eq_isSome, has_eq_isSome, h]

theorem erase_cons (k v key : Value) (rest : Entries) :
    erase ((k, v) :: rest) key =
      if key.same k then rest.erase key else (k, v) :: rest.erase key := by
  unfold erase
  rw [List.filter_cons]
  cases key.same k <;> rfl

/-- An entry that is put in and taken out leaves the others. -/
theorem erase_set_self (entries : Entries) (t : Text) (value : Value) :
    (entries.set (.text t) value).erase (.text t) = entries.erase (.text t) := by
  induction entries with
  | nil => rw [set, erase_cons, if_pos (Value.same_text_self t)]
  | cons e rest ih =>
    obtain ⟨k, v⟩ := e
    by_cases hkey : (Value.text t).same k = true
    · rw [set, if_pos hkey, erase_cons, if_pos hkey, erase_cons, if_pos hkey]
    · rw [set, if_neg hkey, erase_cons, if_neg hkey, erase_cons, if_neg hkey, ih]

theorem erase_set_of_ne (entries : Entries) (hne : t ≠ other) (value : Value) :
    (entries.set (.text t) value).erase (.text other) =
      (entries.erase (.text other)).set (.text t) value := by
  have hkept : ¬ (Value.text other).same (.text t) = true := fun hsame =>
    hne (Value.text.inj (Value.text_same_iff.mp hsame))
  induction entries with
  | nil =>
    rw [set, erase_cons, if_neg hkept]
    rfl
  | cons e rest ih =>
    obtain ⟨k, v⟩ := e
    by_cases hkey : (Value.text t).same k = true
    · obtain rfl := Value.text_same_iff.mp hkey
      rw [set, if_pos hkey, erase_cons, if_neg hkept, erase_cons, if_neg hkept, set, if_pos hkey]
    · rw [set, if_neg hkey, erase_cons, erase_cons, ih]
      split
      · rfl
      · rw [set, if_neg hkey]

/-- Entries that do not have a key can be put in before it is taken out or after. -/
theorem erase_update (entries : Entries) (hchanges : changes.TextKeys)
    (hother : changes.has (.text other) = false) :
    (entries.update changes).erase (.text other) =
      (entries.erase (.text other)).update changes := by
  induction changes generalizing entries with
  | nil => rfl
  | cons e rest ih =>
    obtain ⟨⟨t, ht⟩, hrest⟩ := List.forall_mem_cons.mp hchanges
    have hnone := has_text_eq_false_iff.mp hother
    obtain ⟨hne, hnoneRest⟩ := List.forall_mem_cons.mp hnone
    have hne : t ≠ other := fun heq => hne (ht.trans (congrArg Value.text heq))
    have hset : (entries.set e.1 e.2).erase (.text other) =
        (entries.erase (.text other)).set e.1 e.2 := by
      rw [ht]
      exact erase_set_of_ne entries hne e.2
    exact (ih (entries.set e.1 e.2) hrest (has_text_eq_false_iff.mpr hnoneRest)).trans
      (congrArg (fun acc : Entries => acc.update rest) hset)

/-! ### Putting entries in twice -/

/-- The last value that is put in under a key counts. -/
theorem set_set_of_same (hkey : key.same key = true) (entries : Entries) (value last : Value) :
    (entries.set key value).set key last = entries.set key last := by
  induction entries with
  | nil => rw [set, set, set, if_pos hkey]
  | cons e rest ih =>
    obtain ⟨k, v⟩ := e
    by_cases hsame : key.same k = true
    · rw [set, if_pos hsame, set, if_pos hsame, set, if_pos hsame]
    · rw [set, if_neg hsame, set, if_neg hsame, set, if_neg hsame, ih]

theorem set_set (entries : Entries) (t : Text) (value last : Value) :
    (entries.set (.text t) value).set (.text t) last = entries.set (.text t) last :=
  set_set_of_same (Value.same_text_self t) entries value last

/-- Of several values that are put in under a key the last counts. -/
theorem update_values (hkey : key.same key = true) (entries : Entries) (values : List Value) :
    entries.update (values.map fun v => (key, v)) =
      values.getLast?.elim entries (entries.set key) := by
  induction values generalizing entries with
  | nil => rfl
  | cons v rest ih =>
    change (entries.set key v).update (rest.map fun v => (key, v)) = _
    rw [ih (entries.set key v), List.getLast?_cons]
    cases rest.getLast? with
    | none => rfl
    | some last => exact set_set_of_same hkey entries v last

/-- Of the values that are put in under new keys the last of each key is put in at the end. -/
theorem update_flatMap {α : Type} {keyOf : α → Value} (valuesOf : α → List Value)
    {items : List α} (hself : ∀ a ∈ items, (keyOf a).same (keyOf a) = true)
    (hdistinct : items.Pairwise fun a b => (keyOf b).same (keyOf a) = false)
    (hnew : ∀ a ∈ items, entries.has (keyOf a) = false) :
    entries.update (items.flatMap fun a => (valuesOf a).map fun v => (keyOf a, v)) =
      entries ++ items.filterMap fun a => (valuesOf a).getLast?.map fun v => (keyOf a, v) := by
  induction items generalizing entries with
  | nil => exact (List.append_nil entries).symm
  | cons a rest ih =>
    obtain ⟨ha, hself⟩ := List.forall_mem_cons.mp hself
    obtain ⟨harest, hdistinct⟩ := List.pairwise_cons.mp hdistinct
    obtain ⟨hanew, hnew⟩ := List.forall_mem_cons.mp hnew
    rw [List.flatMap_cons, List.filterMap_cons]
    refine (List.foldl_append ..).trans ?_
    change (entries.update _).update _ = _
    rw [update_values ha]
    cases (valuesOf a).getLast? with
    | none => exact ih hself hdistinct hnew
    | some last =>
      have hlast : ∀ b ∈ rest, has (entries ++ [(keyOf a, last)]) (keyOf b) = false := by
        intro b hb
        rw [has_eq_false_iff]
        intro e he
        rcases List.mem_append.mp he with he | he
        · exact has_eq_false_iff.mp (hnew b hb) e he
        · rw [List.mem_singleton.mp he]
          exact harest b hb
      rw [Option.elim_some, set_of_not_has hanew, ih hself hdistinct hlast, List.append_assoc]
      rfl

/-- Entries with new keys are put in at the end. -/
theorem update_eq_append (h : Entries.Distinct (entries ++ changes)) :
    entries.update changes = entries ++ changes := by
  induction changes generalizing entries with
  | nil => exact (List.append_nil entries).symm
  | cons e rest ih =>
    have hnew : entries.has e.1 = false := has_eq_false_iff.mpr fun e' he' =>
      (List.pairwise_append.mp h).2.2 e' he' e List.mem_cons_self
    have hset : entries.set e.1 e.2 = entries ++ [e] := set_of_not_has hnew
    rw [List.append_cons] at h ⊢
    change (entries.set e.1 e.2).update rest = _
    rw [hset]
    exact ih h

/-- An entry whose key does not come in the changes stays in front. -/
theorem update_cons {e : Value × Value} (h : ∀ c ∈ changes, c.1.same e.1 = false) :
    update (e :: entries) changes = e :: entries.update changes := by
  induction changes generalizing entries with
  | nil => rfl
  | cons c rest ih =>
    obtain ⟨hc, hrest⟩ := List.forall_mem_cons.mp h
    obtain ⟨k, v⟩ := e
    have hset : set ((k, v) :: entries) c.1 c.2 = (k, v) :: entries.set c.1 c.2 := by
      rw [set, if_neg (Bool.eq_false_iff.mp hc)]
    change (set ((k, v) :: entries) c.1 c.2).update rest = _
    rw [hset]
    exact ih hrest

/-- Changed entries keep their keys in front. -/
theorem keys_update (entries changes : Entries) :
    ∃ added, (entries.update changes).keys = entries.keys ++ added := by
  induction changes generalizing entries with
  | nil => exact ⟨[], (List.append_nil _).symm⟩
  | cons e rest ih =>
    obtain ⟨added, hadded⟩ := ih (entries.set e.1 e.2)
    change ∃ added, ((entries.set e.1 e.2).update rest).keys = _
    rw [hadded, keys_set]
    split
    · exact ⟨added, rfl⟩
    · exact ⟨e.1 :: added, by rw [List.append_assoc]; rfl⟩

theorem mem_keys_update (h : key ∈ (entries.update changes).keys) :
    key ∈ entries.keys ∨ key ∈ changes.keys := by
  induction changes generalizing entries with
  | nil => exact .inl h
  | cons e rest ih =>
    rcases ih h with hset | hrest
    · rw [keys_set] at hset
      split at hset
      · exact .inl hset
      · rcases List.mem_append.mp hset with hentries | hself
        · exact .inl hentries
        · exact .inr (List.mem_cons.mpr (.inl (List.mem_singleton.mp hself)))
    · exact .inr (List.mem_cons_of_mem _ hrest)

theorem mem_set_value {e : Value × Value} (h : e ∈ entries.set key value) :
    e ∈ entries ∨ e.2 = value := by
  induction entries with
  | nil =>
    rw [List.mem_singleton.mp h]
    exact .inr rfl
  | cons e' rest ih =>
    obtain ⟨k, v⟩ := e'
    unfold set at h
    split at h
    · rcases List.mem_cons.mp h with rfl | h
      · exact .inr rfl
      · exact .inl (List.mem_cons_of_mem _ h)
    · rcases List.mem_cons.mp h with rfl | h
      · exact .inl List.mem_cons_self
      · exact (ih h).imp (List.mem_cons_of_mem _) id

/-- An entry that was not there before has the value of a change. -/
theorem mem_update_value {e : Value × Value} (h : e ∈ entries.update changes) :
    e ∈ entries ∨ ∃ c ∈ changes, e.2 = c.2 := by
  induction changes generalizing entries with
  | nil => exact .inl h
  | cons c rest ih =>
    rcases ih h with hset | ⟨c', hc', hvalue⟩
    · rcases mem_set_value hset with hentries | hvalue
      · exact .inl hentries
      · exact .inr ⟨c, List.mem_cons_self, hvalue⟩
    · exact .inr ⟨c', List.mem_cons_of_mem _ hc', hvalue⟩

/-- The value under a key is that of a change, or else the old one. -/
theorem get?_update (entries : Entries) (hchanges : changes.Distinct) (t : Text) :
    (entries.update changes).get? (.text t) =
      (changes.get? (.text t)).or (entries.get? (.text t)) := by
  induction changes generalizing entries with
  | nil => rfl
  | cons c rest ih =>
    obtain ⟨k, v⟩ := c
    obtain ⟨hk, hrest⟩ := List.pairwise_cons.mp hchanges
    have hstep := ih (entries.set k v) hrest
    rw [get?_cons]
    by_cases hkey : (Value.text t).same k = true
    · obtain rfl := Value.text_same_iff.mp hkey
      have hnone : get? rest (.text t) = none := by
        rw [← Option.not_isSome_iff_eq_none, ← has_eq_isSome, Bool.not_eq_true]
        exact has_text_eq_false_iff.mpr fun e he heq =>
          absurd (Value.same_text_iff.mpr heq) (Bool.eq_false_iff.mp (hk e he))
      rw [if_pos hkey]
      rw [hnone, get?_set_self] at hstep
      exact hstep
    · have hne : k ≠ .text t := fun heq => hkey (Value.text_same_iff.mpr heq)
      rw [if_neg hkey]
      rw [get?_set_of_ne hne] at hstep
      exact hstep

/-- Every change makes one entry more at most. -/
theorem length_update_le (entries changes : Entries) :
    (entries.update changes).length ≤ entries.length + changes.length := by
  induction changes generalizing entries with
  | nil => exact Nat.le_refl _
  | cons e rest ih =>
    have hset : (entries.set e.1 e.2).length ≤ entries.length + 1 := by
      have hkeys := congrArg List.length (keys_set entries e.1 e.2)
      rw [apply_ite List.length, List.length_append, keys, keys, List.length_map,
        List.length_map] at hkeys
      rw [hkeys]
      split
      · exact Nat.le_succ _
      · exact Nat.le_refl _
    have hrest := ih (entries.set e.1 e.2)
    change ((entries.set e.1 e.2).update rest).length ≤ _
    rw [List.length_cons]
    omega

/-- A mapping that begins with the keys of another takes its place when it is put in. -/
theorem update_eq_of_keys (hentries : entries.TextKeys) (hdistinct : changes.Distinct)
    {added : List Value} (hkeys : changes.keys = entries.keys ++ added) :
    entries.update changes = changes := by
  induction entries generalizing changes with
  | nil => exact update_eq_append hdistinct
  | cons e rest ih =>
    obtain ⟨⟨t, ht⟩, hrest⟩ := List.forall_mem_cons.mp hentries
    cases changes with
    | nil => cases hkeys
    | cons c changes =>
      obtain ⟨k, v⟩ := e
      obtain ⟨k', v'⟩ := c
      obtain ⟨hk, hkeysRest⟩ := List.cons.inj hkeys
      obtain ⟨hc, hdistinctRest⟩ := List.pairwise_cons.mp hdistinct
      have hk : k' = k := hk
      have ht : k = .text t := ht
      subst hk ht
      have hset : set ((.text t, v) :: rest) (.text t) v' = (.text t, v') :: rest := by
        rw [set, if_pos (Value.same_text_self t)]
      change (set ((.text t, v) :: rest) (.text t) v').update changes = _
      rw [hset, update_cons hc, ih hrest hdistinctRest hkeysRest]

/-- Changes that are put in twice are put in once. -/
theorem update_update (hentries : entries.TextKeys) (hdistinct : entries.Distinct)
    (changes : Entries) : entries.update (entries.update changes) = entries.update changes := by
  obtain ⟨added, hkeys⟩ := keys_update entries changes
  exact update_eq_of_keys hentries (hdistinct.update changes) hkeys

/-! ### Changing the values -/

/-- The entries with other values. -/
def mapValues (f : Value → Value) (entries : Entries) : Entries := entries.map fun e => (e.1, f e.2)

theorem mapValues_set (f : Value → Value) (entries : Entries) (key value : Value) :
    mapValues f (entries.set key value) = (mapValues f entries).set key (f value) := by
  induction entries with
  | nil => rfl
  | cons e rest ih =>
    obtain ⟨k, v⟩ := e
    have hcons : mapValues f ((k, v) :: rest) = (k, f v) :: mapValues f rest := rfl
    rw [hcons]
    by_cases hkey : key.same k = true
    · rw [set, if_pos hkey, set, if_pos hkey]
      rfl
    · rw [set, if_neg hkey, set, if_neg hkey, ← ih]
      rfl

theorem mapValues_update (f : Value → Value) (entries changes : Entries) :
    mapValues f (entries.update changes) = (mapValues f entries).update (mapValues f changes) := by
  induction changes generalizing entries with
  | nil => rfl
  | cons e rest ih =>
    change mapValues f ((entries.set e.1 e.2).update rest) =
      ((mapValues f entries).set e.1 (f e.2)).update (mapValues f rest)
    rw [ih, mapValues_set]

theorem get?_mapValues (f : Value → Value) (entries : Entries) (key : Value) :
    (mapValues f entries).get? key = (entries.get? key).map f := by
  unfold get? mapValues
  rw [List.find?_map, Option.map_map, Option.map_map]
  rfl

theorem keys_mapValues (f : Value → Value) (entries : Entries) :
    (mapValues f entries).keys = entries.keys := List.map_map

theorem Distinct.mapValues (h : entries.Distinct) (f : Value → Value) :
    (mapValues f entries).Distinct := distinct_of_keys_eq (keys_mapValues f entries) h

/-! ### Entries in any order -/

/-- No text is the key of two entries. -/
theorem TextKeys.distinct_iff (h : entries.TextKeys) : entries.Distinct ↔ entries.keys.Nodup := by
  refine Iff.trans ?_ List.pairwise_map.symm
  have hkeys : ∀ a ∈ entries, ∀ b : Value × Value, b.1.same a.1 = false ↔ a.1 ≠ b.1 := by
    intro a ha b
    obtain ⟨t, ht⟩ := h a ha
    rw [ht, ← Bool.not_eq_true, Value.same_text_iff]
    exact not_congr eq_comm
  constructor
  · exact fun hdistinct => hdistinct.imp_of_mem fun {a b} ha _ hab => (hkeys a ha b).mp hab
  · exact fun hdistinct => hdistinct.imp_of_mem fun {a b} ha _ hab => (hkeys a ha b).mpr hab

theorem TextKeys.perm (h : entries.TextKeys) (hperm : entries.Perm changes) : changes.TextKeys :=
  fun e he => h e (hperm.mem_iff.mpr he)

theorem Distinct.perm (hdistinct : entries.Distinct) (h : entries.TextKeys)
    (hperm : entries.Perm changes) : changes.Distinct := by
  rw [(h.perm hperm).distinct_iff]
  rw [h.distinct_iff] at hdistinct
  exact (hperm.map _).nodup_iff.mp hdistinct

/-- An entry is found just if it is there. -/
theorem Distinct.get?_eq_some_iff (hdistinct : entries.Distinct) :
    entries.get? (.text t) = some value ↔ (.text t, value) ∈ entries := by
  refine ⟨get?_eq_some_mem, fun hmem => ?_⟩
  have hhas : entries.has (.text t) = true :=
    List.any_eq_true.mpr ⟨_, hmem, Value.same_text_self t⟩
  rw [has_eq_isSome] at hhas
  obtain ⟨found, hfound⟩ := Option.isSome_iff_exists.mp hhas
  exact hfound.trans (congrArg some (hdistinct.eq_of_mem hfound hmem rfl).symm)

/-- Changes are entries afterwards. -/
theorem mem_update_of_mem (entries : Entries) (htexts : changes.TextKeys)
    (hchanges : changes.Distinct) {e : Value × Value} (he : e ∈ changes) :
    e ∈ entries.update changes := by
  obtain ⟨t, ht⟩ := htexts e he
  have hget : changes.get? (.text t) = some e.2 := hchanges.get?_eq_some_iff.mpr (ht ▸ he)
  have hupdated : (entries.update changes).get? (.text t) = some e.2 := by
    rw [get?_update _ hchanges, hget]
    rfl
  have hmem := get?_eq_some_mem hupdated
  rwa [← ht] at hmem

/-- Entries are found in any order of them. -/
theorem get?_perm (hdistinct : entries.Distinct) (h : entries.TextKeys)
    (hperm : entries.Perm changes) (t : Text) : changes.get? (.text t) = entries.get? (.text t) := by
  refine Option.ext fun v => ?_
  rw [hdistinct.get?_eq_some_iff, (hdistinct.perm h hperm).get?_eq_some_iff, hperm.mem_iff]

/-- Entries under some names are no more than the names. -/
theorem length_filterMap_le {α : Type} (hdistinct : entries.Distinct) (h : entries.TextKeys)
    {f : Value × Value → Option α} {names : List Text}
    (hnames : ∀ e ∈ entries, (f e).isSome = true → ∃ name ∈ names, e.1 = .text name) :
    (entries.filterMap f).length ≤ names.length := by
  have hnodup : (keys (entries.filter fun e => (f e).isSome)).Nodup :=
    (TextKeys.distinct_iff (h.filter _)).mp (hdistinct.filter _)
  have hsub : keys (entries.filter fun e => (f e).isSome) ⊆ names.map Value.text := by
    intro k hk
    obtain ⟨e, he, rfl⟩ := List.mem_map.mp hk
    obtain ⟨he, hsome⟩ := List.mem_filter.mp he
    obtain ⟨name, hname, hkey⟩ := hnames e he hsome
    rw [hkey]
    exact List.mem_map_of_mem hname
  have hle := (List.subperm_of_subset hnodup hsub).length_le
  rw [keys, List.length_map, List.length_map, ← List.countP_eq_length_filter] at hle
  rwa [List.length_filterMap_eq_countP]

end Entries

end ScanCatalog
