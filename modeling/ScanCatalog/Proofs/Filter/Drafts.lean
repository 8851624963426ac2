import ScanCatalog.Proofs.Document.Find
import ScanCatalog.Proofs.Value.Numbers
import ScanCatalog.Proofs.Value.Updates

/-!
# Drafts of filters

Operators are read into a draft one after the other: sets narrow each other, bounds are
collected, and so is whether the field has to be there. A draft admits a number, or that
there is none, just if all operators hold of it.

## Main definitions

* `Filter.operatorNames`: the operators that a motor can be asked by;
* `Filter.Draft.Admits`: what a draft asks of a value, or of a missing one.

## Main statements

* `Filter.Draft.add_eq_ok`: what one operator says;
* `Filter.Draft.add_admits`, `Filter.Draft.addAll_admits`: one operator, and all of them;
* `Filter.Draft.Sound.presence`: whether there has to be a value.
-/

namespace ScanCatalog

open Condition

namespace Condition

variable {operator : Text} {argument : Value}

theorem operatorHolds_eq (v : Option Value) (argument : Value) :
    operatorHolds v "$eq" argument = .ok (v.any fun w => w.same argument) := by
  unfold operatorHolds
  rw [if_neg (by decide), if_pos rfl]

theorem operatorHolds_exists (v : Option Value) (argument : Value) :
    operatorHolds v "$exists" argument = .ok (v.isSome == argument.truth) := by
  unfold operatorHolds
  rw [if_pos rfl]

theorem operatorHolds_bound {c : Comparison} (h : comparison? operator = some c)
    (v : Option Value) (argument : Value) :
    operatorHolds v operator argument = .ok (v.any fun w => comparesTo c w argument) := by
  have hne : ∀ name : Text, comparison? name = none → operator ≠ name := by
    rintro name hname rfl
    rw [h] at hname
    cases hname
  unfold operatorHolds
  rw [if_neg (hne _ (by decide)), if_neg (hne _ (by decide)), if_neg (hne _ (by decide)),
    if_neg (hne _ (by decide)), h]

end Condition

namespace Value

/-- The items of a list; other values have none. -/
def listItems : Value → List Value
  | .list items => items
  | _ => []

end Value

namespace Filter

/-- The operators that a motor can be asked by. -/
def operatorNames : List Text := ["$eq", "$in", "$gt", "$gte", "$lt", "$lte", "$exists"]

/-- The operators that name a bound. -/
def boundNames : List Text := ["$gt", "$gte", "$lt", "$lte"]

theorem comparison_of_mem {operator : Text} (h : operator ∈ boundNames) :
    ∃ c, comparison? operator = some c := by
  have hall : ∀ name ∈ boundNames, (comparison? name).isSome = true := by decide
  exact Option.isSome_iff_exists.mp (hall operator h)

namespace Draft

variable {path operator other : Text} {argument : Value} {draft draft' : Draft} {v : Option Value}

/-- What one operator says: a set, a bound, or whether there is a value at all. -/
theorem add_eq_ok (hoperator : operator ∈ operatorNames)
    (h : draft.add path operator argument = .ok draft') :
    (operator = "$eq" ∧ draft' = { draft with exact := some (intersect draft.exact [argument]) }) ∨
    (∃ items, operator = "$in" ∧ argument = .list items ∧
      draft' = { draft with exact := some (intersect draft.exact items) }) ∨
    (operator ∈ boundNames ∧ argument.isNull = false ∧
      draft' = { draft with bounds := draft.bounds.set (.text operator) argument }) ∨
    (operator = "$exists" ∧ ∃ raw,
      draft' = { draft with parts := draft.parts ++ [.exist raw argument.truth] }) := by
  unfold Draft.add at h
  by_cases heq : operator = "$eq"
  · rw [if_pos heq] at h
    split at h
    · exact .inl ⟨heq, (Except.ok.inj h).symm⟩
    · cases h
  by_cases hin : operator = "$in"
  · rw [if_neg heq, if_pos hin] at h
    split at h
    · next items =>
      split at h
      · exact .inr (.inl ⟨items, hin, rfl, (Except.ok.inj h).symm⟩)
      · cases h
    · cases h
  by_cases hexists : operator = "$exists"
  · subst hexists
    rw [if_neg (by decide), if_neg (by decide), if_neg (by decide), if_pos rfl] at h
    split at h
    · exact .inr (.inr (.inr ⟨rfl, _, (Except.ok.inj h).symm⟩))
    · exact .inr (.inr (.inr ⟨rfl, _, (Except.ok.inj h).symm⟩))
    · cases h
  · have hbound : operator ∈ boundNames := by
      unfold operatorNames at hoperator
      simp_all [boundNames]
    have hisIn : (Value.text operator).isIn boundOperators = true := by
      refine List.any_eq_true.mpr ⟨.text operator, ?_, Value.same_text_self operator⟩
      exact List.mem_map_of_mem (f := Value.text) hbound
    rw [if_neg heq, if_neg hin, if_pos hisIn] at h
    split at h
    · exact .inr (.inr (.inl ⟨hbound, rfl, (Except.ok.inj h).symm⟩))
    · exact .inr (.inr (.inl ⟨hbound, rfl, (Except.ok.inj h).symm⟩))
    · exact .inr (.inr (.inl ⟨hbound, rfl, (Except.ok.inj h).symm⟩))
    · cases h

/-! ### What a draft asks -/

/-- What a draft asks of a value, or of a missing one. -/
structure Admits (draft : Draft) (v : Option Value) : Prop where
  exact : ∀ values ∈ draft.exact, (v.any fun w => w.isIn values) = true
  bounds : ∀ e ∈ draft.bounds, operatorHolds v e.1.display e.2 = .ok true
  parts : ∀ raw present, Filter.exist raw present ∈ draft.parts → v.isSome = present

/-- Two sets that are narrowed ask what both ask. -/
theorem any_isIn_intersect (hv : ∀ w ∈ v, w.IsReal) (exact : Option (List Value))
    (values : List Value) :
    (v.any fun w => w.isIn (intersect exact values)) = true ↔
      (∀ current ∈ exact, (v.any fun w => w.isIn current) = true) ∧
        (v.any fun w => w.isIn values) = true := by
  cases exact with
  | none => exact (and_iff_right nofun).symm
  | some current =>
    cases v with
    | none => simp
    | some w =>
      obtain ⟨x, rfl⟩ := hv w rfl
      simp [Value.isIn_intersect]

/-- The draft has said nothing about an operator. -/
structure Free (draft : Draft) (operator : Text) : Prop where
  bounds : draft.bounds.has (.text operator) = false
  parts : operator = "$exists" → draft.parts = []

theorem admits_narrowed (hv : ∀ w ∈ v, w.IsReal) (draft : Draft) (values : List Value) :
    Admits { draft with exact := some (intersect draft.exact values) } v ↔
      draft.Admits v ∧ (v.any fun w => w.isIn values) = true := by
  constructor
  · intro h
    obtain ⟨hexact, hvalues⟩ := (any_isIn_intersect hv _ _).mp (h.exact _ rfl)
    exact ⟨⟨hexact, h.bounds, h.parts⟩, hvalues⟩
  · rintro ⟨h, hvalues⟩
    refine ⟨fun narrowed hnarrowed => ?_, h.bounds, h.parts⟩
    cases hnarrowed
    exact (any_isIn_intersect hv _ _).mpr ⟨h.exact, hvalues⟩

/-- What an operator says is asked from then on. -/
theorem add_admits (hoperator : operator ∈ operatorNames) (hv : ∀ w ∈ v, w.IsReal)
    (hfree : draft.Free operator) (h : draft.add path operator argument = .ok draft') :
    ∃ holds, operatorHolds v operator argument = .ok holds ∧
      (draft'.Admits v ↔ draft.Admits v ∧ holds = true) := by
  rcases add_eq_ok hoperator h with ⟨rfl, rfl⟩ | ⟨items, rfl, rfl, rfl⟩ | ⟨hbound, -, rfl⟩ |
    ⟨rfl, raw, rfl⟩
  · refine ⟨_, operatorHolds_eq v argument, (admits_narrowed hv draft [argument]).trans ?_⟩
    simp [Value.isIn]
  · exact ⟨_, operatorHolds_in v items, admits_narrowed hv draft items⟩
  · obtain ⟨c, hc⟩ := comparison_of_mem hbound
    have hholds := operatorHolds_bound hc v argument
    refine ⟨_, hholds, ?_⟩
    -- the bound comes last, as nothing was said under its name before
    rw [Entries.set_of_not_has hfree.bounds]
    constructor
    · intro h
      obtain ⟨hbounds, hlast⟩ := List.forall_mem_append.mp h.bounds
      have hlast := List.forall_mem_singleton.mp hlast
      exact ⟨⟨h.exact, hbounds, h.parts⟩, Except.ok.inj (hholds.symm.trans hlast)⟩
    · rintro ⟨h, hlast⟩
      refine ⟨h.exact, List.forall_mem_append.mpr ⟨h.bounds, ?_⟩, h.parts⟩
      exact List.forall_mem_singleton.mpr (hholds.trans (congrArg _ hlast))
  · refine ⟨_, operatorHolds_exists v argument, ?_⟩
    rw [beq_iff_eq]
    constructor
    · intro h
      refine ⟨⟨h.exact, h.bounds, fun raw present hmem => ?_⟩, ?_⟩
      · exact h.parts raw present (List.mem_append_left _ hmem)
      · exact h.parts raw _ (List.mem_append_right _ List.mem_cons_self)
    · rintro ⟨h, hlast⟩
      refine ⟨h.exact, h.bounds, fun raw' present hmem => ?_⟩
      rcases List.mem_append.mp hmem with hmem | hmem
      · exact h.parts raw' present hmem
      · cases List.mem_singleton.mp hmem
        exact hlast

/-! ### What a draft holds -/

/-- Sets and bounds of exact values, each bound under a name of its own, and at most one part,
which asks whether there is a value. -/
structure Sound (draft : Draft) : Prop where
  exact : ∀ values ∈ draft.exact, ∀ w ∈ values, w.IsExact
  distinct : draft.bounds.Distinct
  names : ∀ e ∈ draft.bounds, ∃ name ∈ boundNames, e.1 = .text name
  bounds : ∀ e ∈ draft.bounds, e.2.isNull = false ∧ e.2.IsExact
  parts : draft.parts = [] ∨ ∃ raw present, draft.parts = [.exist raw present]

/-- A draft that asks nothing. -/
def IsBlank (draft : Draft) : Prop := draft.exact = none ∧ draft.bounds = [] ∧ draft.parts = []

theorem add_free (hoperator : operator ∈ operatorNames) (hne : other ≠ operator)
    (hfree : draft.Free other) (h : draft.add path operator argument = .ok draft') :
    draft'.Free other := by
  rcases add_eq_ok hoperator h with ⟨rfl, rfl⟩ | ⟨items, rfl, rfl, rfl⟩ | ⟨-, -, rfl⟩ |
    ⟨rfl, raw, rfl⟩
  · exact ⟨hfree.bounds, hfree.parts⟩
  · exact ⟨hfree.bounds, hfree.parts⟩
  · refine ⟨?_, hfree.parts⟩
    have hget : (draft.bounds.set (.text operator) argument).get? (.text other) =
        draft.bounds.get? (.text other) :=
      Entries.get?_set_of_ne fun heq => hne (Value.text.inj heq).symm
    rw [Entries.has_of_get?_eq hget]
    exact hfree.bounds
  · exact ⟨hfree.bounds, fun hexists => absurd hexists hne⟩

theorem add_sound (hoperator : operator ∈ operatorNames) (hs : draft.Sound)
    (hfree : draft.Free operator)
    (hargument : ∀ w ∈ argument :: argument.listItems, w.IsExact)
    (h : draft.add path operator argument = .ok draft') : draft'.Sound ∧ ¬ draft'.IsBlank := by
  have hnarrowed : ∀ values : List Value, (∀ w ∈ values, w.IsExact) →
      ∀ narrowed ∈ some (intersect draft.exact values), ∀ w ∈ narrowed, w.IsExact := by
    rintro values hvalues _ ⟨⟩ w hw
    cases hexact : draft.exact with
    | none =>
      rw [hexact] at hw
      exact hvalues w hw
    | some current =>
      rw [hexact] at hw
      exact hs.exact current hexact w (List.mem_filter.mp hw).1
  rcases add_eq_ok hoperator h with ⟨rfl, rfl⟩ | ⟨items, rfl, rfl, rfl⟩ | ⟨hbound, hnull, rfl⟩ |
    ⟨rfl, raw, rfl⟩
  · refine ⟨⟨hnarrowed _ ?_, hs.distinct, hs.names, hs.bounds, hs.parts⟩, fun hblank => ?_⟩
    · exact List.forall_mem_singleton.mpr (hargument _ List.mem_cons_self)
    · cases hblank.1
  · refine ⟨⟨hnarrowed _ ?_, hs.distinct, hs.names, hs.bounds, hs.parts⟩, fun hblank => ?_⟩
    · exact fun w hw => hargument w (List.mem_cons_of_mem _ hw)
    · cases hblank.1
  · refine ⟨⟨hs.exact, hs.distinct.set _ _, ?_, ?_, hs.parts⟩, fun hblank => ?_⟩
    · rw [Entries.set_of_not_has hfree.bounds]
      exact List.forall_mem_append.mpr
        ⟨hs.names, List.forall_mem_singleton.mpr ⟨operator, hbound, rfl⟩⟩
    · rw [Entries.set_of_not_has hfree.bounds]
      exact List.forall_mem_append.mpr ⟨hs.bounds, List.forall_mem_singleton.mpr
        ⟨hnull, hargument _ List.mem_cons_self⟩⟩
    · have hempty := hblank.2.1
      rw [Entries.set_of_not_has hfree.bounds] at hempty
      exact absurd (List.append_eq_nil_iff.mp hempty).2 (List.cons_ne_nil _ _)
  · refine ⟨⟨hs.exact, hs.distinct, hs.names, hs.bounds, .inr ⟨raw, argument.truth, ?_⟩⟩,
      fun hblank => ?_⟩
    · rw [hfree.parts rfl]
      rfl
    · exact absurd (List.append_eq_nil_iff.mp hblank.2.2).2 (List.cons_ne_nil _ _)

end Draft

end Filter

/-- A mapping of operators that a motor can be asked by. Every number in it is exact. -/
structure Entries.AreMotorOperators (entries : Entries) : Prop where
  names : ∀ e ∈ entries, ∃ name ∈ Filter.operatorNames, e.1 = .text name
  distinct : entries.Distinct
  exact : ∀ e ∈ entries, ∀ w ∈ e.2 :: e.2.listItems, w.IsExact

namespace Filter.Draft

variable {path : Text} {draft draft' : Draft} {entries : Entries}

theorem sound_blank : ({} : Draft).Sound where
  exact := nofun
  distinct := List.Pairwise.nil
  names := nofun
  bounds := nofun
  parts := .inl rfl

/-- What all operators say is asked in the end. -/
theorem addAll_admits (hentries : entries.AreMotorOperators) (hs : draft.Sound)
    (hfree : ∀ e ∈ entries, ∀ name, e.1 = .text name → draft.Free name)
    (h : addAll path draft entries = .ok draft') :
    draft'.Sound ∧ (entries ≠ [] ∨ ¬ draft.IsBlank → ¬ draft'.IsBlank) ∧
      ∀ v : Option Value, (∀ w ∈ v, w.IsReal) →
        ∃ holds, operatorsHold v entries = .ok holds ∧
          (draft'.Admits v ↔ draft.Admits v ∧ holds = true) := by
  induction entries generalizing draft with
  | nil =>
    cases h
    refine ⟨hs, fun hor => hor.resolve_left (absurd rfl), fun v _ => ⟨true, rfl, ?_⟩⟩
    exact (and_iff_left rfl).symm
  | cons e rest ih =>
    obtain ⟨key, argument⟩ := e
    obtain ⟨⟨name, hname, hkey⟩, hnames⟩ := List.forall_mem_cons.mp hentries.names
    obtain ⟨hfirst, hdistinct⟩ := List.pairwise_cons.mp hentries.distinct
    obtain ⟨hargument, hexact⟩ := List.forall_mem_cons.mp hentries.exact
    obtain ⟨hfreeFirst, hfreeRest⟩ := List.forall_mem_cons.mp hfree
    cases hkey
    have hfreeFirst := hfreeFirst name rfl
    obtain ⟨next, hadd, h⟩ := Outcome.bind_eq_ok.mp h
    rw [Value.display_text] at hadd
    obtain ⟨hsound, hasks⟩ := add_sound hname hs hfreeFirst hargument hadd
    -- the names of a mapping are distinct, so this operator says nothing about later ones
    have hfreeNext : ∀ e ∈ rest, ∀ other, e.1 = .text other → next.Free other := by
      intro e he other hother
      refine add_free hname ?_ (hfreeRest e he other hother) hadd
      rintro rfl
      have hne := hfirst e he
      rw [hother, Value.same_text_self] at hne
      cases hne
    obtain ⟨hsound', hasks', hall⟩ := ih ⟨hnames, hdistinct, hexact⟩ hsound hfreeNext h
    refine ⟨hsound', fun _ => hasks' (.inr hasks), fun v hv => ?_⟩
    obtain ⟨first, hholds, hfirstAdmits⟩ := add_admits hname hv hfreeFirst hadd
    obtain ⟨others, hothers, hadmits⟩ := hall v hv
    refine ⟨first && others, ?_, ?_⟩
    · unfold operatorsHold
      rw [Value.display_text, hholds, Outcome.ok_bind, hothers]
      cases first <;> rfl
    · rw [hadmits, hfirstAdmits, Bool.and_eq_true, and_assoc]

/-! ### Bounds -/

/-- A bound is what one of two operators says, if any does: the one with the bound itself, or
the one without. -/
structure IsBound (bounds : Entries) (strict inclusive : Text) (bound : Value)
    (isInclusive : Bool) : Prop where
  bound : bound = bounds.get (.text (if isInclusive then inclusive else strict))
  isInclusive : isInclusive = bounds.has (.text inclusive)
  one : (bounds.has (.text strict) && bounds.has (.text inclusive)) = false

theorem get?_eq_none_of_not_has {bounds : Entries} {name : Text}
    (h : bounds.has (.text name) = false) : bounds.get? (.text name) = none := by
  rw [Entries.has_eq_isSome] at h
  exact Option.not_isSome_iff_eq_none.mp (Bool.eq_false_iff.mp h)

/-- What the two operators say is what the bound says. -/
theorem IsBound.forall_iff {bounds : Entries} {strict inclusive : Text} {bound : Value}
    {isInclusive : Bool} (h : IsBound bounds strict inclusive bound isInclusive)
    (hnull : ∀ e ∈ bounds, e.2.isNull = false) (property : Bool → Value → Prop) :
    ((∀ a, bounds.get? (.text strict) = some a → property false a) ∧
        ∀ a, bounds.get? (.text inclusive) = some a → property true a) ↔
      (bound.isNull = false → property isInclusive bound) := by
  obtain ⟨rfl, hinclusive, hone⟩ := h
  have hgets : ∀ name a, bounds.get? (.text name) = some a →
      bounds.get (.text name) = a ∧ a.isNull = false := by
    intro name a ha
    exact ⟨by rw [Entries.get, ha]; rfl, hnull _ (Entries.get?_eq_some_mem ha)⟩
  have hnone : ∀ name, bounds.get? (.text name) = none →
      (bounds.get (.text name)).isNull = true := by
    intro name hname
    rw [Entries.get, hname]
    rfl
  cases hhas : bounds.has (.text inclusive) with
  | true =>
    rw [hhas, Bool.and_true] at hone
    have hstrict := get?_eq_none_of_not_has hone
    rw [hhas] at hinclusive
    rw [hinclusive, if_pos rfl, hstrict]
    cases hget : bounds.get? (.text inclusive) with
    | none =>
      rw [Entries.has_eq_isSome, hget] at hhas
      cases hhas
    | some a =>
      obtain ⟨ha, hnull⟩ := hgets _ _ hget
      rw [ha]
      exact ⟨fun h _ => h.2 a rfl, fun h => ⟨nofun, fun b hb => Option.some.inj hb ▸ h hnull⟩⟩
  | false =>
    have hinclusiveNone := get?_eq_none_of_not_has hhas
    rw [hhas] at hinclusive
    rw [hinclusive, if_neg Bool.false_ne_true, hinclusiveNone]
    cases hget : bounds.get? (.text strict) with
    | none =>
      exact ⟨fun _ hb => absurd (hnone _ hget) (Bool.eq_false_iff.mp hb), fun _ => ⟨nofun, nofun⟩⟩
    | some a =>
      obtain ⟨ha, hnull⟩ := hgets _ _ hget
      rw [ha]
      exact ⟨fun h _ => h.1 a rfl, fun h => ⟨fun b hb => Option.some.inj hb ▸ h hnull, nofun⟩⟩

/-- The bounds of a draft make one range, if there are any. -/
theorem range?_eq_ok {raw : Entries} {range : Option Filter}
    (h : draft.range? path raw = .ok range) :
    (draft.bounds = [] ∧ range = none) ∨
      ∃ asked lower upper lowerInclusive upperInclusive,
        range = some (.range asked lower upper lowerInclusive upperInclusive) ∧
        IsBound draft.bounds "$gt" "$gte" lower lowerInclusive ∧
        IsBound draft.bounds "$lt" "$lte" upper upperInclusive := by
  unfold range? at h
  dsimp only at h
  split at h
  · next hempty =>
    cases h
    exact .inl ⟨List.isEmpty_iff.mp hempty, rfl⟩
  split at h
  · cases h
  next hlower =>
  split at h
  · cases h
  next hupper =>
  cases h
  refine .inr ⟨_, _, _, _, _, rfl, ⟨?_, rfl, Bool.eq_false_iff.mpr hlower⟩, ?_, rfl,
    Bool.eq_false_iff.mpr hupper⟩
  · rw [apply_ite Value.text]
  · rw [apply_ite Value.text]

/-- A comparison that is made of a number holds of it. -/
theorem comparesTo_iff {c : Comparison} {w argument : Value} :
    comparesTo c w argument = true ↔ w.compare c argument = .ok true := by
  unfold comparesTo
  cases w.compare c argument <;> simp

/-- The entries under some names are those that the names have. -/
theorem forall_entries_iff {bounds : Entries} {names : List Text} (hdistinct : bounds.Distinct)
    (hnames : ∀ e ∈ bounds, ∃ name ∈ names, e.1 = .text name) (property : Text → Value → Prop) :
    (∀ e ∈ bounds, property e.1.display e.2) ↔
      ∀ name ∈ names, ∀ a, bounds.get? (.text name) = some a → property name a := by
  constructor
  · exact fun h name _ a ha => h _ (Entries.get?_eq_some_mem ha)
  · intro h e he
    obtain ⟨name, hname, hkey⟩ := hnames e he
    have hhas : bounds.has (.text name) = true :=
      List.any_eq_true.mpr ⟨e, he, Value.text_same_iff.mpr hkey⟩
    rw [Entries.has_eq_isSome] at hhas
    obtain ⟨a, ha⟩ := Option.isSome_iff_exists.mp hhas
    rw [hkey, Value.display_text, hdistinct.eq_of_mem ha he hkey]
    exact h name hname a ha

/-- All bounds hold of a number that keeps to both sides. -/
theorem bounds_hold_iff (hs : draft.Sound) {lower upper : Value}
    {lowerInclusive upperInclusive : Bool}
    (hlower : IsBound draft.bounds "$gt" "$gte" lower lowerInclusive)
    (hupper : IsBound draft.bounds "$lt" "$lte" upper upperInclusive) (w : Value) :
    (∀ e ∈ draft.bounds, operatorHolds (some w) e.1.display e.2 = .ok true) ↔
      (lower.isNull = false →
        w.compare (if lowerInclusive then .atLeast else .greater) lower = .ok true) ∧
      (upper.isNull = false →
        w.compare (if upperInclusive then .atMost else .less) upper = .ok true) := by
  have hnull : ∀ e ∈ draft.bounds, e.2.isNull = false := fun e he => (hs.bounds e he).1
  rw [← hlower.forall_iff hnull fun inclusive a =>
      w.compare (if inclusive then .atLeast else .greater) a = .ok true,
    ← hupper.forall_iff hnull fun inclusive a =>
      w.compare (if inclusive then .atMost else .less) a = .ok true]
  have hholds : ∀ name c, comparison? name = some c → ∀ a,
      (operatorHolds (some w) name a = .ok true ↔ w.compare c a = .ok true) := by
    intro name c hc a
    rw [operatorHolds_bound hc, Except.ok.injEq]
    exact comparesTo_iff
  rw [forall_entries_iff hs.distinct hs.names fun name a =>
    operatorHolds (some w) name a = .ok true]
  unfold boundNames
  rw [List.forall_mem_cons, List.forall_mem_cons, List.forall_mem_cons, List.forall_mem_singleton,
    and_assoc]
  simp only [hholds "$gt" .greater (by decide), hholds "$gte" .atLeast (by decide),
    hholds "$lt" .less (by decide), hholds "$lte" .atMost (by decide), if_true,
    Bool.false_eq_true, if_false]

/-- A range without bounds is none. -/
theorem bounds_eq_nil (hs : draft.Sound) {lower upper : Value}
    {lowerInclusive upperInclusive : Bool}
    (hlower : IsBound draft.bounds "$gt" "$gte" lower lowerInclusive)
    (hupper : IsBound draft.bounds "$lt" "$lte" upper upperInclusive)
    (hnoLower : lower.isNull = true) (hnoUpper : upper.isNull = true) : draft.bounds = [] := by
  have hnull : ∀ e ∈ draft.bounds, e.2.isNull = false := fun e he => (hs.bounds e he).1
  obtain ⟨hgt, hgte⟩ := (hlower.forall_iff hnull fun _ _ => False).mpr fun h => by
    rw [hnoLower] at h
    cases h
  obtain ⟨hlt, hlte⟩ := (hupper.forall_iff hnull fun _ _ => False).mpr fun h => by
    rw [hnoUpper] at h
    cases h
  refine List.eq_nil_iff_forall_not_mem.mpr ?_
  refine (forall_entries_iff hs.distinct hs.names fun _ _ => False).mpr ?_
  unfold boundNames
  rw [List.forall_mem_cons, List.forall_mem_cons, List.forall_mem_cons, List.forall_mem_singleton]
  exact ⟨hgt, hgte, hlt, hlte⟩

/-- A bound of a draft is exact. -/
theorem IsBound.isExact (hs : draft.Sound) {strict inclusive : Text} {bound : Value}
    {isInclusive : Bool} (h : IsBound draft.bounds strict inclusive bound isInclusive)
    (hbound : bound.isNull = false) : bound.IsExact := by
  have hexact : ∀ name a, draft.bounds.get? (.text name) = some a → a.IsExact :=
    fun name a ha => (hs.bounds _ (Entries.get?_eq_some_mem ha)).2
  exact (h.forall_iff (fun e he => (hs.bounds e he).1) fun _ a => a.IsExact).mp
    ⟨hexact strict, hexact inclusive⟩ hbound

/-- A draft that admits that there is no value asks nothing of one. -/
theorem Admits.absent (h : draft.Admits none) (hs : draft.Sound) :
    draft.exact = none ∧ draft.bounds = [] := by
  constructor
  · cases hexact : draft.exact with
    | none => rfl
    | some values => cases h.exact values hexact
  · refine List.eq_nil_iff_forall_not_mem.mpr fun e he => ?_
    obtain ⟨name, hname, hkey⟩ := hs.names e he
    obtain ⟨c, hc⟩ := comparison_of_mem hname
    have hholds := h.bounds e he
    rw [hkey, Value.display_text, operatorHolds_bound hc] at hholds
    cases hholds

/-- Whether a value has to be there is said by the one part of a draft, or else by its set and
its bounds. -/
theorem Sound.presence (hs : draft.Sound) (hasks : ¬ draft.IsBlank) : ∃ present,
    (draft.parts = [] ∧ present = true ∨ ∃ raw, draft.parts = [.exist raw present]) ∧
    (draft.Admits none ↔ present = false ∧ draft.exact = none ∧ draft.bounds = []) ∧
    ∀ w : Value, draft.Admits (some w) ↔ present = true ∧
      (∀ values ∈ draft.exact, w.isIn values = true) ∧
      ∀ e ∈ draft.bounds, operatorHolds (some w) e.1.display e.2 = .ok true := by
  rcases hs.parts with hempty | ⟨raw, present, hpart⟩
  · refine ⟨true, .inl ⟨hempty, rfl⟩, ⟨fun h => ?_, nofun⟩, fun w => ⟨fun h => ?_, fun h => ?_⟩⟩
    · obtain ⟨hexact, hbounds⟩ := h.absent hs
      exact absurd ⟨hexact, hbounds, hempty⟩ hasks
    · exact ⟨rfl, h.exact, h.bounds⟩
    · exact ⟨h.2.1, h.2.2, by rw [hempty]; exact nofun⟩
  · have hparts : ∀ v : Option Value, v.isSome = present →
        ∀ raw present, Filter.exist raw present ∈ draft.parts → v.isSome = present := by
      intro v hv raw' other hmem
      rw [hpart] at hmem
      cases List.mem_singleton.mp hmem
      exact hv
    have hmem : Filter.exist raw present ∈ draft.parts := by
      rw [hpart]
      exact List.mem_cons_self
    refine ⟨present, .inr ⟨raw, hpart⟩, ⟨fun h => ?_, ?_⟩, fun w => ⟨fun h => ?_, fun h => ?_⟩⟩
    · exact ⟨(h.parts raw present hmem).symm, h.absent hs⟩
    · rintro ⟨hpresent, hexact, hbounds⟩
      exact ⟨by simp [hexact], by simp [hbounds], hparts none hpresent.symm⟩
    · exact ⟨(h.parts raw present hmem).symm, h.exact, h.bounds⟩
    · exact ⟨h.2.1, h.2.2, hparts (some w) h.1.symm⟩

end Filter.Draft

end ScanCatalog
