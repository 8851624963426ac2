import ScanCatalog.Proofs.Filter.Drafts

/-!
# Operators in any order

The draft of a mapping of operators, in closed form: the sets that its operators name, its
bounds and its other parts, each in the order of the operators. Another order leaves the bounds
and the parts as they are, and which of two equal values stands in the set is all that it
changes of the set.

## Main definitions

* `Entries.AreOperators`: mappings of operators, whatever they are;
* `Entries.SetsAgree`: sets in which equal values are alike;
* `Filter.draftOf`: the draft of a mapping of operators.

## Main statements

* `Filter.addAll_operators`: the operators of a mapping make its draft, unless one has a fault;
* `Filter.range?_perm`, `Filter.exact_perm`, `Filter.parts_perm`: what another order changes.
-/

namespace ScanCatalog

/-- A mapping of operators, whatever they are: each key is that of an operator, and comes once. -/
structure Entries.AreOperators (operators : Entries) : Prop where
  nonempty : operators ≠ []
  keys : ∀ e ∈ operators, Filter.isOperatorKey e.1 = true
  distinct : operators.Distinct

/-- No two equal values are a number in the one set of the operators and none in the other. -/
def Entries.SetsAgree (operators : Entries) : Prop :=
  ∀ v, operators.get? "$eq" = some v → ∀ items, operators.get? "$in" = some (.list items) →
    ∀ w ∈ items, v.same w = true → v.isNumber = w.isNumber

namespace Entries.AreOperators

variable {operators permuted : Entries}

theorem texts (h : operators.AreOperators) : operators.TextKeys := by
  intro e he
  have hkey := h.keys e he
  cases hk : e.1 with
  | text t => exact ⟨t, rfl⟩
  | _ => rw [hk] at hkey; cases hkey

theorem text_display (h : operators.AreOperators) {e : Value × Value} (he : e ∈ operators) :
    Value.text e.1.display = e.1 := by
  obtain ⟨t, ht⟩ := h.texts e he
  rw [ht, Value.display_text]

theorem get?_of_mem (h : operators.AreOperators) {e : Value × Value} (he : e ∈ operators) :
    operators.get? (.text e.1.display) = some e.2 := by
  rw [h.distinct.get?_eq_some_iff, h.text_display he]
  exact he

theorem perm (h : operators.AreOperators) (hperm : operators.Perm permuted) :
    permuted.AreOperators where
  nonempty := fun hempty => h.nonempty (List.perm_nil.mp (hempty ▸ hperm))
  keys := fun e he => h.keys e (hperm.mem_iff.mpr he)
  distinct := h.distinct.perm h.texts hperm

theorem ofValue_eq (h : operators.AreOperators) (path : Text) :
    Filter.ofValue (.text path) (.map operators) = Filter.ofOperators path operators := by
  have hall : (operators.all fun e => Filter.isOperatorKey e.1) = true :=
    List.all_eq_true.mpr h.keys
  have hany : (operators.any fun e => Filter.isOperatorKey e.1) = true := by
    obtain ⟨e, he⟩ := List.exists_mem_of_ne_nil operators h.nonempty
    exact List.any_eq_true.mpr ⟨e, he, h.keys e he⟩
  unfold Filter.ofValue
  rw [if_pos hany, if_pos hall, Value.display_text]

end Entries.AreOperators

namespace Filter

/-- The set that an operator names, if it does. -/
def setOf? (e : Value × Value) : Option (List Value) :=
  if e.1.display = "$eq" then some [e.2]
  else if e.1.display = "$in" then some e.2.listItems
  else none

/-- Whether an operator names a bound. -/
def isBound (e : Value × Value) : Bool := (Value.text e.1.display).isIn boundOperators

/-- The part that an operator makes of its own: one that names no set and no bound does. -/
def partOf? (e : Value × Value) : Option Filter :=
  if (setOf? e).isSome || isBound e then none
  else if e.1.display = "$exists" then
    some (.exist (.map [(.text e.1.display, e.2)]) e.2.truth)
  else some (.operator (.map [(.text e.1.display, e.2)]) e.1.display e.2)

namespace Draft

/-- The draft with what an operator says, if its argument is one. -/
def withOperator (draft : Draft) (e : Value × Value) : Draft where
  exact := match setOf? e with
    | some values => some (intersect draft.exact values)
    | none => draft.exact
  bounds := if isBound e then draft.bounds.set (.text e.1.display) e.2 else draft.bounds
  parts := draft.parts ++ (partOf? e).toList

/-- The fault of an operator with its argument. It does not depend on the operators before. -/
def fault? (path : Text) (e : Value × Value) : Option FilterFault :=
  match Draft.add path {} e.1.display e.2 with
  | .ok _ => none
  | .error fault => some fault

theorem add_eq (path : Text) (draft : Draft) (e : Value × Value) :
    draft.add path e.1.display e.2 =
      match fault? path e with
      | none => .ok (draft.withOperator e)
      | some fault => .error fault := by
  obtain ⟨key, argument⟩ := e
  unfold fault? withOperator partOf? setOf? isBound Draft.add
  dsimp only
  generalize key.display = operator
  by_cases heq : operator = "$eq"
  · subst heq
    have hbound : (Value.text "$eq").isIn boundOperators = false := by decide
    simp only [if_pos, hbound]
    cases argument.isScalar <;> simp
  by_cases hin : operator = "$in"
  · subst hin
    have hbound : (Value.text "$in").isIn boundOperators = false := by decide
    simp only [if_neg heq, if_pos, hbound]
    cases argument with
    | list items =>
      dsimp only
      cases items.all Value.isScalar <;> simp [Value.listItems]
    | _ => rfl
  simp only [if_neg heq, if_neg hin]
  cases hbound : (Value.text operator).isIn boundOperators with
  | true => cases argument <;> simp
  | false =>
    by_cases hexists : operator = "$exists"
    · simp only [if_pos hexists]
      cases argument <;> simp
    · simp [if_neg hexists]

theorem addAll_eq (path : Text) (draft : Draft) (operators : Entries) :
    draft.addAll path operators =
      match operators.findSome? (fault? path) with
      | none => .ok (operators.foldl withOperator draft)
      | some fault => .error fault := by
  induction operators generalizing draft with
  | nil => rfl
  | cons e rest ih =>
    rw [addAll, add_eq, List.findSome?_cons]
    cases fault? path e with
    | some fault => rfl
    | none => exact ih (draft.withOperator e)

/-- A draft of operators: their sets narrow each other, their bounds are as they are, and so are
the other parts. -/
theorem foldl_withOperator (draft : Draft) {operators : Entries} (htexts : operators.TextKeys) :
    operators.foldl withOperator draft =
      { exact := (operators.filterMap setOf?).foldl
          (fun exact values => some (intersect exact values)) draft.exact
        bounds := draft.bounds.update (operators.filter isBound)
        parts := draft.parts ++ operators.filterMap partOf? } := by
  induction operators generalizing draft with
  | nil => simp [Entries.update]
  | cons e rest ih =>
    obtain ⟨⟨t, ht⟩, hrest⟩ := List.forall_mem_cons.mp htexts
    have hkey : Value.text e.1.display = e.1 := by rw [ht, Value.display_text]
    rw [List.foldl_cons, ih _ hrest]
    simp only [withOperator, hkey, List.filterMap_cons, List.filter_cons]
    congr 1
    · cases setOf? e <;> rfl
    · cases isBound e <;> rfl
    · cases partOf? e <;> simp

end Draft

/-- The draft of a mapping of operators, if their arguments are what they should be. -/
def draftOf (operators : Entries) : Draft where
  exact := (operators.filterMap setOf?).foldl (fun exact values => some (intersect exact values)) none
  bounds := operators.filter isBound
  parts := operators.filterMap partOf?

theorem addAll_operators {operators : Entries} (h : operators.AreOperators) (path : Text) :
    Draft.addAll path {} operators =
      match operators.findSome? (Draft.fault? path) with
      | none => .ok (draftOf operators)
      | some fault => .error fault := by
  have hbounds : Entries.update [] (operators.filter isBound) = operators.filter isBound :=
    Entries.update_eq_append (h.distinct.filter _)
  rw [Draft.addAll_eq, Draft.foldl_withOperator _ h.texts, hbounds]
  rfl

/-! ### What a draft holds -/

theorem mem_of_foldl_intersect {sets : List (List Value)} {current : Option (List Value)}
    {values : List Value} {v : Value}
    (h : sets.foldl (fun exact values => some (intersect exact values)) current = some values)
    (hv : v ∈ values) : (∃ first ∈ current, v ∈ first) ∨ ∃ values ∈ sets, v ∈ values := by
  induction sets generalizing current with
  | nil => exact .inl ⟨values, h, hv⟩
  | cons values rest ih =>
    rcases ih h with ⟨first, hfirst, hv⟩ | ⟨others, hothers, hv⟩
    · cases hfirst
      cases current with
      | none => exact .inr ⟨values, List.mem_cons_self, hv⟩
      | some current => exact .inl ⟨current, rfl, (List.mem_filter.mp hv).1⟩
    · exact .inr ⟨others, List.mem_cons_of_mem _ hothers, hv⟩

theorem setOf?_eq_some {e : Value × Value} {values : List Value} :
    setOf? e = some values ↔ e.1.display = "$eq" ∧ values = [e.2] ∨
      e.1.display = "$in" ∧ values = e.2.listItems := by
  unfold setOf?
  by_cases heq : e.1.display = "$eq"
  · have hne : ¬ ("$eq" : Text) = "$in" := by decide
    simp [heq, hne, eq_comm]
  · simp [heq, eq_comm]

section Held

variable {operators : Entries} {path : Text}

/-- The values of the set are arguments of operators, or items of one. -/
theorem mem_exact {values : List Value} {v : Value} (h : (draftOf operators).exact = some values)
    (hv : v ∈ values) : ∃ e ∈ operators, v ∈ e.2 :: e.2.listItems := by
  rcases mem_of_foldl_intersect h hv with ⟨_, hnone, -⟩ | ⟨others, hothers, hv⟩
  · cases hnone
  obtain ⟨e, he, hset⟩ := List.mem_filterMap.mp hothers
  refine ⟨e, he, ?_⟩
  rcases setOf?_eq_some.mp hset with ⟨-, rfl⟩ | ⟨-, rfl⟩
  · exact List.mem_cons.mpr (.inl (List.mem_singleton.mp hv))
  · exact List.mem_cons_of_mem _ hv

/-- A bound is the argument of an operator, if it is given. -/
theorem mem_bounds {strict inclusive : Text} {bound : Value} {isInclusive : Bool}
    (h : Draft.IsBound (draftOf operators).bounds strict inclusive bound isInclusive)
    (hnull : bound.isNull = false) : ∃ e ∈ operators, bound ∈ e.2 :: e.2.listItems := by
  obtain ⟨rfl, -, -⟩ := h
  unfold Entries.get at hnull ⊢
  cases hget : Entries.get? (draftOf operators).bounds
      (.text (if isInclusive then inclusive else strict)) with
  | none =>
    rw [hget] at hnull
    cases hnull
  | some argument =>
    exact ⟨_, (List.mem_filter.mp (Entries.get?_eq_some_mem hget)).1, List.mem_cons_self⟩

end Held

/-! ### Drafts of the same operators -/

section Permuted

variable {operators permuted : Entries}

/-- Operators have a fault in every order, or in none. -/
theorem findSome?_fault?_perm (hperm : operators.Perm permuted) (path : Text) :
    (permuted.findSome? (Draft.fault? path)).isSome =
      (operators.findSome? (Draft.fault? path)).isSome := by
  rw [Bool.eq_iff_iff, List.findSome?_isSome_iff, List.findSome?_isSome_iff]
  exact exists_congr fun e => and_congr_left fun _ => hperm.mem_iff.symm

/-- The range of the bounds is the same in any order of the operators. -/
theorem range?_perm (h : operators.AreOperators) (hperm : operators.Perm permuted) (path : Text) :
    (draftOf permuted).range? path permuted = (draftOf operators).range? path operators := by
  have hbounds : (operators.filter isBound).Perm (permuted.filter isBound) := hperm.filter _
  have hget : ∀ t : Text, Entries.get? (permuted.filter isBound) (.text t) =
      Entries.get? (operators.filter isBound) (.text t) :=
    Entries.get?_perm (h.distinct.filter _) (h.texts.filter _) hbounds
  have hhas : ∀ t : Text, Entries.has (permuted.filter isBound) (.text t) =
      Entries.has (operators.filter isBound) (.text t) := fun t => Entries.has_of_get?_eq (hget t)
  have hraw : entriesUnder boundOperators permuted = entriesUnder boundOperators operators := by
    refine List.filterMap_congr fun key hkey => ?_
    have htext : ∀ key ∈ boundOperators, ∃ t, key = .text t := by
      unfold boundOperators
      simp only [List.forall_mem_cons]
      exact ⟨⟨_, rfl⟩, ⟨_, rfl⟩, ⟨_, rfl⟩, ⟨_, rfl⟩, nofun⟩
    obtain ⟨t, rfl⟩ := htext key hkey
    rw [Entries.get?_perm h.distinct h.texts hperm]
  have hvalue : ∀ t : Text, Entries.get (permuted.filter isBound) (.text t) =
      Entries.get (operators.filter isBound) (.text t) := fun t => by
    rw [Entries.get, hget, Entries.get]
  unfold Draft.range? draftOf
  dsimp only
  rw [hbounds.isEmpty_eq, hraw, hhas, hhas, hhas, hhas]
  cases Entries.has (operators.filter isBound) (.text "$gte") <;>
    cases Entries.has (operators.filter isBound) (.text "$lte") <;> simp [hvalue]

/-! ### Sets -/

/-- At most two items come in one order or in the other. -/
theorem eq_or_swap_of_perm {α : Type} {items permuted : List α} (hperm : items.Perm permuted)
    (hlength : items.length ≤ 2) :
    permuted = items ∨ ∃ a b, items = [a, b] ∧ permuted = [b, a] := by
  match items, hlength with
  | [], _ => exact .inl hperm.symm.eq_nil
  | [a], _ => exact .inl (List.singleton_perm.mp hperm).symm
  | [a, b], _ =>
    obtain ⟨c, d, rfl⟩ := List.length_eq_two.mp hperm.length_eq.symm
    have hfirst : c = a ∨ c = b := by
      simpa using hperm.mem_iff.mpr (List.mem_cons_self (a := c))
    rcases hfirst with rfl | rfl
    · have hrest := List.singleton_perm.mp hperm.cons_inv
      exact .inl (congrArg _ hrest.symm)
    · have hrest := List.singleton_perm.mp ((List.Perm.swap a c []).trans hperm).cons_inv
      exact .inr ⟨a, c, rfl, congrArg _ hrest.symm⟩

theorem setOf?_isScalar {path : Text} {e : Value × Value} {values : List Value}
    (hfault : Draft.fault? path e = none) (h : setOf? e = some values) :
    ∀ v ∈ values, v.isScalar = true := by
  unfold Draft.fault? Draft.add at hfault
  rcases setOf?_eq_some.mp h with ⟨hkey, rfl⟩ | ⟨hkey, rfl⟩
  · rw [hkey, if_pos rfl] at hfault
    cases hscalar : e.2.isScalar with
    | true => exact List.forall_mem_singleton.mpr hscalar
    | false =>
      rw [hscalar] at hfault
      cases hfault
  · have hne : ¬ ("$in" : Text) = "$eq" := by decide
    rw [hkey, if_neg hne, if_pos rfl] at hfault
    cases hargument : e.2 with
    | list items =>
      rw [hargument] at hfault
      dsimp only at hfault
      cases hscalar : items.all Value.isScalar with
      | true => exact List.all_eq_true.mp hscalar
      | false =>
        rw [hscalar] at hfault
        cases hfault
    | _ => nofun

/-- Two sets are those of `$eq` and of `$in`. -/
theorem sets_eq_pair (h : operators.AreOperators) {first second : List Value}
    (hsets : operators.filterMap setOf? = [first, second]) :
    ∃ v argument, operators.get? "$eq" = some v ∧ operators.get? "$in" = some argument ∧
      (first = [v] ∧ second = argument.listItems ∨ first = argument.listItems ∧ second = [v]) := by
  obtain ⟨before, e, rest, hoperators, -, hfirst, hrest⟩ := List.filterMap_eq_cons_iff.mp hsets
  obtain ⟨between, e', after, rfl, -, hsecond, -⟩ := List.filterMap_eq_cons_iff.mp hrest
  have hmem : e ∈ operators := by
    rw [hoperators]
    simp
  have hmem' : e' ∈ operators := by
    rw [hoperators]
    simp
  have hget := h.get?_of_mem hmem
  have hget' := h.get?_of_mem hmem'
  have hne : e.1.display ≠ e'.1.display := by
    have hdistinct := h.distinct
    rw [hoperators] at hdistinct
    have hlater := (List.pairwise_cons.mp (List.pairwise_append.mp hdistinct).2.1).1 e' (by simp)
    intro hkeys
    rw [← h.text_display hmem, hkeys, ← h.text_display hmem', Value.display_text,
      Value.same_text_self] at hlater
    cases hlater
  rcases setOf?_eq_some.mp hfirst with ⟨hkey, rfl⟩ | ⟨hkey, rfl⟩ <;>
    rcases setOf?_eq_some.mp hsecond with ⟨hkey', rfl⟩ | ⟨hkey', rfl⟩
  · exact absurd (hkey.trans hkey'.symm) hne
  · exact ⟨e.2, e'.2, hkey ▸ hget, hkey' ▸ hget', .inl ⟨rfl, rfl⟩⟩
  · exact ⟨e'.2, e.2, hkey' ▸ hget', hkey ▸ hget, .inr ⟨rfl, rfl⟩⟩
  · exact absurd (hkey.trans hkey'.symm) hne

/-- Two sets that narrow each other leave values that are alike. -/
theorem covered_intersect {first second : List Value}
    (hscalar : ∀ v ∈ first, ∀ w ∈ second, v.same w = w.same v)
    (halike : ∀ v ∈ first, ∀ w ∈ second, v.same w = true → v.isNumber = w.isNumber) :
    Value.Covered (intersect (some first) second) (intersect (some second) first) := by
  intro v hv
  obtain ⟨hfirst, hin⟩ := List.mem_filter.mp hv
  obtain ⟨w, hsecond, hsame⟩ := List.any_eq_true.mp hin
  have hback : w.isIn first = true :=
    List.any_eq_true.mpr ⟨v, hfirst, (hscalar v hfirst w hsecond).symm.trans hsame⟩
  exact ⟨w, List.mem_filter.mpr ⟨hsecond, hback⟩, .inr ⟨hsame, halike v hfirst w hsecond hsame⟩⟩

/-- The values that two sets have in common are alike, if the arguments of `$eq` and of `$in`
are. -/
theorem sets_alike (h : operators.AreOperators) (hagree : operators.SetsAgree)
    {first second : List Value} (hsets : operators.filterMap setOf? = [first, second])
    (hscalars : ∀ v ∈ first, ∀ w ∈ second, v.same w = w.same v) :
    ∀ v ∈ first, ∀ w ∈ second, v.same w = true → v.isNumber = w.isNumber := by
  obtain ⟨v, argument, heq, hin, hpair⟩ := sets_eq_pair h hsets
  cases argument with
  | list items =>
    rcases hpair with ⟨rfl, rfl⟩ | ⟨rfl, rfl⟩
    · exact List.forall_mem_singleton.mpr (hagree v heq _ hin)
    · intro w hw v' hv' hsame
      obtain rfl := List.mem_singleton.mp hv'
      exact (hagree v' heq _ hin w hw ((hscalars w hw v' hv').symm.trans hsame)).symm
  | _ =>
    rcases hpair with ⟨rfl, rfl⟩ | ⟨rfl, rfl⟩
    · exact fun _ _ _ hw => nomatch hw
    · exact fun _ hw => nomatch hw

/-- The set of the operators in another order has values that are alike. -/
theorem exact_perm (h : operators.AreOperators) (hperm : operators.Perm permuted)
    (hsets : operators.SetsAgree) {path : Text}
    (hfault : operators.findSome? (Draft.fault? path) = none) :
    (draftOf operators).exact = none ∧ (draftOf permuted).exact = none ∨
      ∃ values others, (draftOf operators).exact = some values ∧
        (draftOf permuted).exact = some others ∧ Value.Covered values others ∧
        Value.Covered others values := by
  have hnames : ∀ e ∈ operators, (setOf? e).isSome = true →
      ∃ name ∈ (["$eq", "$in"] : List Text), e.1 = .text name := by
    intro e he hsome
    obtain ⟨values, hvalues⟩ := Option.isSome_iff_exists.mp hsome
    refine ⟨e.1.display, ?_, (h.text_display he).symm⟩
    rcases setOf?_eq_some.mp hvalues with ⟨hname, -⟩ | ⟨hname, -⟩ <;> simp [hname]
  have hlength := Entries.length_filterMap_le h.distinct h.texts hnames
  rcases eq_or_swap_of_perm (hperm.filterMap setOf?) hlength with hsame |
    ⟨first, second, hfirst, hsecond⟩
  · have hexact : (draftOf permuted).exact = (draftOf operators).exact := by
      unfold draftOf
      rw [hsame]
    rw [hexact]
    cases (draftOf operators).exact with
    | none => exact .inl ⟨rfl, rfl⟩
    | some values => exact .inr ⟨values, values, rfl, rfl, .refl values, .refl values⟩
  unfold draftOf
  dsimp only
  rw [hfirst, hsecond]
  have hscalar : ∀ values ∈ operators.filterMap setOf?, ∀ v ∈ values, v.isScalar = true := by
    intro values hvalues
    obtain ⟨e, he, hset⟩ := List.mem_filterMap.mp hvalues
    exact setOf?_isScalar (List.findSome?_eq_none_iff.mp hfault e he) hset
  rw [hfirst] at hscalar
  have hscalars : ∀ v ∈ first, ∀ w ∈ second, v.same w = w.same v := fun v hv w hw =>
    Value.same_comm_of_isScalar (hscalar first (by simp) v hv) (hscalar second (by simp) w hw)
  have halike := sets_alike h hsets hfirst hscalars
  refine .inr ⟨_, _, rfl, rfl, covered_intersect hscalars halike, covered_intersect ?_ ?_⟩
  · exact fun w hw v hv => (hscalars v hv w hw).symm
  · exact fun w hw v hv hsame => (halike v hv w hw ((hscalars v hv w hw).trans hsame)).symm

/-! ### Parts -/

/-- A part of its own asks whether there is a value, or is an operator that is not known. -/
theorem partOf?_eq_some {e : Value × Value} {part : Filter} (h : partOf? e = some part) :
    e.1.display = "$exists" ∧ (∃ raw present, part = .exist raw present) ∨
      ∃ raw name argument, part = .operator raw name argument := by
  unfold partOf? at h
  split at h
  · cases h
  split at h
  · next hname =>
    cases h
    exact .inl ⟨hname, _, _, rfl⟩
  · cases h
    exact .inr ⟨_, _, _, rfl⟩

/-- The parts are the same in another order of the operators, or one is an operator that is not
known. -/
theorem parts_perm (h : operators.AreOperators) (hperm : operators.Perm permuted) :
    (draftOf permuted).parts = (draftOf operators).parts ∨
      ∃ raw name argument, Filter.operator raw name argument ∈ (draftOf operators).parts ∧
        Filter.operator raw name argument ∈ (draftOf permuted).parts := by
  have hparts : (draftOf operators).parts.Perm (draftOf permuted).parts := hperm.filterMap partOf?
  by_cases hunknown : ∃ raw name argument,
      Filter.operator raw name argument ∈ (draftOf operators).parts
  · obtain ⟨raw, name, argument, hmem⟩ := hunknown
    exact .inr ⟨raw, name, argument, hmem, hparts.mem_iff.mp hmem⟩
  have hnames : ∀ e ∈ operators, (partOf? e).isSome = true →
      ∃ name ∈ (["$exists"] : List Text), e.1 = .text name := by
    intro e he hsome
    obtain ⟨part, hpart⟩ := Option.isSome_iff_exists.mp hsome
    rcases partOf?_eq_some hpart with ⟨hname, -⟩ | ⟨raw, name, argument, rfl⟩
    · exact ⟨e.1.display, by simp [hname], (h.text_display he).symm⟩
    · exact absurd ⟨raw, name, argument, List.mem_filterMap.mpr ⟨e, he, hpart⟩⟩ hunknown
  have hlength : (draftOf operators).parts.length ≤ 1 :=
    Entries.length_filterMap_le h.distinct h.texts hnames
  rcases eq_or_swap_of_perm hparts (Nat.le_succ_of_le hlength) with hsame | ⟨a, b, htwo, -⟩
  · exact .inl hsame
  · rw [htwo] at hlength
    cases Nat.not_succ_le_self 1 hlength

end Permuted

end Filter

end ScanCatalog
