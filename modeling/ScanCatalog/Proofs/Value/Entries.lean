import ScanCatalog.Value.Equality

/-!
# Entries by key

What setting, taking out and looking up entries does to mappings.

## Main definitions

* `Entries.Distinct`: no key comes again.

## Main statements

* `Entries.set_of_not_has`, `Entries.get?_set_self`, `Entries.get?_set_of_ne`: setting an
  entry;
* `Entries.Distinct.set`, `Entries.Distinct.update`: mappings stay mappings.
-/

namespace ScanCatalog

namespace Value

/-- Only a text is the same as a text. -/
theorem text_same_iff {t : Text} {v : Value} : (Value.text t).same v = true ↔ v = .text t := by
  cases v with
  | text s =>
    rw [same_text, beq_iff_eq, Value.text.injEq]
    exact eq_comm
  | _ => exact ⟨nofun, nofun⟩

theorem same_text_iff {t : Text} {v : Value} : v.same (.text t) = true ↔ v = .text t := by
  cases v with
  | text s => rw [same_text, beq_iff_eq, Value.text.injEq]
  | _ => exact ⟨nofun, nofun⟩

end Value

namespace Entries

/-- No key is the same as one before it, as in every mapping. -/
def Distinct (entries : Entries) : Prop := entries.Pairwise fun a b => b.1.same a.1 = false

variable {entries : Entries} {key value : Value}

theorem has_cons (k v key : Value) (rest : Entries) :
    has ((k, v) :: rest) key = (key.same k || has rest key) := rfl

theorem has_eq_false_iff : entries.has key = false ↔ ∀ e ∈ entries, key.same e.1 = false := by
  unfold has
  rw [List.any_eq_false]
  exact forall₂_congr fun e _ => by simp

/-- Whether keys come again is a matter of the keys. -/
theorem distinct_of_keys_eq {other : Entries} (hkeys : entries.keys = other.keys)
    (h : other.Distinct) : entries.Distinct := by
  have hpairwise : other.keys.Pairwise fun a b => b.same a = false := List.pairwise_map.mpr h
  rw [← hkeys] at hpairwise
  exact List.pairwise_map.mp hpairwise

/-- A new key comes last. -/
theorem set_of_not_has (h : entries.has key = false) :
    entries.set key value = entries ++ [(key, value)] := by
  induction entries with
  | nil => rfl
  | cons e rest ih =>
    obtain ⟨k, v⟩ := e
    rw [has_cons, Bool.or_eq_false_iff] at h
    unfold set
    rw [if_neg (Bool.eq_false_iff.mp h.1), ih h.2]
    rfl

theorem keys_set (entries : Entries) (key value : Value) :
    (entries.set key value).keys = if entries.has key then entries.keys else entries.keys ++ [key] := by
  induction entries with
  | nil => rfl
  | cons e rest ih =>
    obtain ⟨k, v⟩ := e
    unfold set
    rw [has_cons]
    by_cases hkey : key.same k = true
    · rw [if_pos hkey, hkey, Bool.true_or, if_pos rfl]
      rfl
    · rw [if_neg hkey, Bool.eq_false_iff.mpr hkey, Bool.false_or]
      change k :: (set rest key value).keys = _
      rw [ih]
      by_cases hrest : has rest key = true
      · rw [if_pos hrest, if_pos hrest]
        rfl
      · rw [if_neg hrest, if_neg hrest]
        rfl

namespace Distinct

theorem set (h : entries.Distinct) (key value : Value) : (entries.set key value).Distinct := by
  cases hkey : entries.has key with
  | true =>
    refine distinct_of_keys_eq ?_ h
    rw [keys_set, hkey, if_pos rfl]
  | false =>
    rw [set_of_not_has hkey]
    refine List.pairwise_append.mpr ⟨h, List.pairwise_singleton _ _, ?_⟩
    intro e he e' he'
    rw [List.mem_singleton.mp he']
    exact has_eq_false_iff.mp hkey e he

theorem update (h : entries.Distinct) (changes : Entries) : (entries.update changes).Distinct := by
  induction changes generalizing entries with
  | nil => exact h
  | cons e rest ih => exact ih (h.set e.1 e.2)

theorem filter (h : entries.Distinct) (condition : Value × Value → Bool) :
    Entries.Distinct (entries.filter condition) := List.Pairwise.filter condition h

end Distinct

/-! ### Keys that are texts -/

variable {t : Text}

theorem get?_eq_some_mem (h : entries.get? (.text t) = some value) :
    (.text t, value) ∈ entries := by
  obtain ⟨e, hfind, rfl⟩ := Option.map_eq_some_iff.mp h
  have hkey : e.1 = .text t := Value.text_same_iff.mp (by simpa using List.find?_some hfind)
  rw [← hkey]
  exact List.mem_of_find?_eq_some hfind

theorem has_text_eq_false_iff : entries.has (.text t) = false ↔ ∀ e ∈ entries, e.1 ≠ .text t := by
  rw [has_eq_false_iff]
  refine forall₂_congr fun e _ => ?_
  rw [← Bool.not_eq_true, Value.text_same_iff]

/-- An entry of a mapping is the one under its key. -/
theorem Distinct.eq_of_mem (h : entries.Distinct) (hget : entries.get? (.text t) = some value)
    {e : Value × Value} (he : e ∈ entries) (hkey : e.1 = .text t) : e.2 = value := by
  induction entries with
  | nil => cases he
  | cons e' rest ih =>
    obtain ⟨k, v⟩ := e'
    obtain ⟨hk, hrest⟩ := List.pairwise_cons.mp h
    rw [get?_cons] at hget
    rcases List.mem_cons.mp he with rfl | he
    · rw [if_pos (Value.text_same_iff.mpr hkey)] at hget
      exact Option.some.inj hget
    · have hne : ¬ (Value.text t).same k = true := by
        rw [← hkey]
        exact Bool.eq_false_iff.mp (hk e he)
      rw [if_neg hne] at hget
      exact ih hrest hget he

@[simp] theorem get?_set_self (entries : Entries) (t : Text) (value : Value) :
    (entries.set (.text t) value).get? (.text t) = some value := by
  have hself : (Value.text t).same (.text t) = true := Value.text_same_iff.mpr rfl
  induction entries with
  | nil => rw [set, get?_cons, if_pos hself]
  | cons e rest ih =>
    obtain ⟨k, v⟩ := e
    unfold set
    by_cases hkey : (Value.text t).same k = true
    · rw [if_pos hkey, get?_cons, if_pos hkey]
    · rw [if_neg hkey, get?_cons, if_neg hkey, ih]

theorem get?_set_of_ne (hne : key ≠ .text t) :
    (entries.set key value).get? (.text t) = entries.get? (.text t) := by
  induction entries with
  | nil =>
    have hkey : ¬ (Value.text t).same key = true := fun h => hne (Value.text_same_iff.mp h)
    rw [set, get?_cons, if_neg hkey]
  | cons e rest ih =>
    obtain ⟨k, v⟩ := e
    unfold set
    by_cases hkey : key.same k = true
    · -- the key of the entry is not the text either, as only a text is the same as one
      have hk : ¬ (Value.text t).same k = true := by
        intro h
        rw [Value.text_same_iff.mp h] at hkey
        exact hne (Value.same_text_iff.mp hkey)
      rw [if_pos hkey, get?_cons, if_neg hk, get?_cons, if_neg hk]
    · rw [if_neg hkey, get?_cons, get?_cons, ih]

theorem get?_update_of_ne {changes : Entries} (hne : ∀ e ∈ changes, e.1 ≠ .text t) :
    (entries.update changes).get? (.text t) = entries.get? (.text t) := by
  induction changes generalizing entries with
  | nil => rfl
  | cons e rest ih =>
    obtain ⟨he, hrest⟩ := List.forall_mem_cons.mp hne
    exact (ih hrest).trans (get?_set_of_ne he)

theorem get?_filter {condition : Value × Value → Bool}
    (h : ∀ e ∈ entries, e.1 = .text t → condition e = true) :
    Entries.get? (entries.filter condition) (.text t) = entries.get? (.text t) := by
  unfold get?
  rw [← List.head?_filter, ← List.head?_filter, List.filter_filter]
  refine congrArg _ (congrArg _ (List.filter_congr fun e he => ?_))
  cases hsame : (Value.text t).same e.1 with
  | false => rw [Bool.false_and]
  | true => rw [h e he (Value.text_same_iff.mp hsame), Bool.and_true]

@[simp] theorem get?_erase_self (entries : Entries) (t : Text) :
    (entries.erase (.text t)).get? (.text t) = none := by
  unfold get? erase
  rw [Option.map_eq_none_iff, List.find?_eq_none]
  intro e he
  simpa using (List.mem_filter.mp he).2

end Entries

end ScanCatalog
