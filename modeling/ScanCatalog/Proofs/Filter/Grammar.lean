import ScanCatalog.Proofs.Filter.Parts

/-!
# The grammar of filters

Which values are filters, and which are whole filter expressions, said without reading them. The
reader accepts just these, and what it refuses is reported as a fault of the query.

## Main definitions

* `Filter.Takes`: the arguments that an operator takes;
* `Value.IsFilter`: the values that are filters of a field;
* `Value.IsExpression`: the values that are filter expressions.

## Main statements

* `Filter.ofValue_isOk_iff`: the reader of a filter accepts the filters;
* `Terms.ofValue_accepts`: the reader of an expression accepts the expressions, and reports what
  is none.
-/

namespace ScanCatalog

/-! ### Filters and expressions -/

/-- The arguments that an operator takes: `$eq` a scalar, `$in` a list of scalars, a bound a
number or a text, and `$exists` a boolean or an integer. Other operators take any. -/
inductive Filter.Takes : Text → Value → Prop
  | equal {argument : Value} (h : argument.isScalar = true) : Takes "$eq" argument
  | among {items : List Value} (h : ∀ v ∈ items, v.isScalar = true) : Takes "$in" (.list items)
  | number {operator : Text} {argument : Value} (hbound : operator ∈ boundNames)
    (h : argument.isNumber = true) : Takes operator argument
  | text {operator : Text} (hbound : operator ∈ boundNames) (t : Text) : Takes operator (.text t)
  | existBool (b : Bool) : Takes "$exists" (.bool b)
  | existInt (i : Int) : Takes "$exists" (.int i)
  | other {operator : Text} (h : operator ∉ operatorNames) (argument : Value) :
    Takes operator argument

/-- A name of a field: a text that is not empty and that is not the name of an operator. -/
def Value.IsFieldName (key : Value) : Prop :=
  ∃ t : Text, key = .text t ∧ t.isEmpty = false ∧ t.startsWith "$" = false

/-- A mapping of operators to what they take, with one bound on each side at most. -/
structure Entries.AreFilterOperators (operators : Entries) : Prop where
  nonempty : operators ≠ []
  names : ∀ e ∈ operators, ∃ t : Text, e.1 = .text t ∧ t.startsWith "$" = true ∧ Filter.Takes t e.2
  lower : ¬ (.text "$gt" ∈ operators.keys ∧ .text "$gte" ∈ operators.keys)
  upper : ¬ (.text "$lt" ∈ operators.keys ∧ .text "$lte" ∈ operators.keys)

/-- The values that are filters: scalars, lists, mappings of fields to filters, and mappings of
operators. -/
inductive Value.IsFilter : Value → Prop
  | scalar {v : Value} (h : v.isScalar = true) : IsFilter v
  | list (items : List Value) : IsFilter (.list items)
  | fields {entries : Entries} (hnames : ∀ e ∈ entries, e.1.IsFieldName)
    (hvalues : ∀ e ∈ entries, IsFilter e.2) : IsFilter (.map entries)
  | operators {entries : Entries} (h : entries.AreFilterOperators) : IsFilter (.map entries)

/-- The values that are filter expressions: null, and mappings of fields to filters. -/
inductive Value.IsExpression : Value → Prop
  | null : IsExpression .null
  | fields {entries : Entries} (hnames : ∀ e ∈ entries, e.1.IsFieldName)
    (hvalues : ∀ e ∈ entries, e.2.IsFilter) : IsExpression (.map entries)

/-- What holds of atoms and lists, and of a mapping if it holds of its values, holds of all. -/
theorem Value.map_induction {motive : Value → Prop}
    (other : ∀ v : Value, v.entries? = none → motive v)
    (map : ∀ entries : Entries, (∀ e ∈ entries, motive e.2) → motive (.map entries)) :
    ∀ v, motive v
  | .map entries => map entries fun e _ => map_induction other map e.2
  | .null => other _ rfl
  | .bool _ => other _ rfl
  | .int _ => other _ rfl
  | .float _ => other _ rfl
  | .text _ => other _ rfl
  | .bytes _ => other _ rfl
  | .list _ => other _ rfl
termination_by v => sizeOf v
decreasing_by
  have hentries := List.sizeOf_lt_of_mem ‹e ∈ entries›
  have hpair : sizeOf e = 1 + sizeOf e.1 + sizeOf e.2 := rfl
  simp only [Value.map.sizeOf_spec]
  omega

namespace Entries

variable {entries changes : Entries} {t : Text}

theorem has_text_iff : entries.has (.text t) = true ↔ .text t ∈ entries.keys := by
  unfold has keys
  rw [List.any_eq_true, List.mem_map]
  exact exists_congr fun e => and_congr_right fun _ => Value.text_same_iff

theorem has_set (entries : Entries) (key value : Value) (t : Text) :
    (entries.set key value).has (.text t) =
      (entries.has (.text t) || (Value.text t).same key) := by
  induction entries with
  | nil => exact Bool.or_comm _ _
  | cons e rest ih =>
    obtain ⟨k, v⟩ := e
    unfold set
    split
    · next hsame =>
      rw [has_cons, has_cons]
      by_cases hkey : (Value.text t).same key = true
      · rw [Value.text_same_iff.mp hkey] at hsame
        rw [hsame, Bool.true_or, Bool.true_or]
      · rw [Bool.eq_false_iff.mpr hkey, Bool.or_false]
    · rw [has_cons, ih, has_cons, Bool.or_assoc]

theorem has_update (entries changes : Entries) (t : Text) :
    (entries.update changes).has (.text t) = (entries.has (.text t) || changes.has (.text t)) := by
  induction changes generalizing entries with
  | nil => exact (Bool.or_false _).symm
  | cons e rest ih =>
    change ((entries.set e.1 e.2).update rest).has (.text t) = _
    rw [ih, has_set, Bool.or_assoc]
    rfl

end Entries

namespace Filter

variable {path : Text} {operators entries : Entries}

theorem isOperatorKey_iff {key : Value} :
    isOperatorKey key = true ↔ ∃ t : Text, key = .text t ∧ t.startsWith "$" = true := by
  cases key <;> simp [isOperatorKey]

/-! ### Operators -/

theorem mem_boundNames_of_isIn {operator : Text}
    (h : (Value.text operator).isIn boundOperators = true) : operator ∈ boundNames := by
  obtain ⟨key, hkey, hsame⟩ := List.any_eq_true.mp h
  obtain ⟨name, hname, rfl⟩ := List.mem_map.mp (show key ∈ boundNames.map Value.text from hkey)
  cases Value.text_same_iff.mp hsame
  exact hname

theorem isIn_boundOperators {operator : Text} (h : operator ∈ boundNames) :
    (Value.text operator).isIn boundOperators = true :=
  List.any_eq_true.mpr ⟨.text operator, List.mem_map_of_mem (f := Value.text) h,
    Value.same_text_self operator⟩

namespace Draft

variable {operator : Text} {argument : Value} {draft draft' : Draft}

theorem takes_of_add (h : draft.add path operator argument = .ok draft') :
    Takes operator argument := by
  unfold Draft.add at h
  split at h
  · next heq =>
    subst heq
    split at h
    · next hscalar => exact .equal hscalar
    · cases h
  next heq =>
  split at h
  · next hin =>
    subst hin
    split at h
    · split at h
      · next hitems => exact .among (List.all_eq_true.mp hitems)
      · cases h
    · cases h
  next hin =>
  split at h
  · next hbound =>
    have hbound := mem_boundNames_of_isIn hbound
    split at h
    · exact .number hbound rfl
    · exact .number hbound rfl
    · exact .text hbound _
    · cases h
  next hbound =>
  split at h
  · next hexists =>
    subst hexists
    split at h
    · exact .existBool _
    · exact .existInt _
    · cases h
  · next hexists =>
    -- a name of an operator is one of those that were asked for before
    refine .other (fun hname => ?_) argument
    have hnotBound := mt isIn_boundOperators hbound
    simp_all [operatorNames, boundNames]

theorem add_of_takes (h : Takes operator argument) (path : Text) (draft : Draft) :
    ∃ draft', draft.add path operator argument = .ok draft' := by
  have hbounds : ∀ operator ∈ boundNames, operator ≠ "$eq" ∧ operator ≠ "$in" := by decide
  unfold Draft.add
  cases h with
  | equal hscalar =>
    rw [if_pos rfl, if_pos hscalar]
    exact ⟨_, rfl⟩
  | among hitems =>
    rw [if_neg (by decide), if_pos rfl]
    dsimp only
    rw [if_pos (List.all_eq_true.mpr hitems)]
    exact ⟨_, rfl⟩
  | number hbound hnumber =>
    rw [if_neg (hbounds _ hbound).1, if_neg (hbounds _ hbound).2,
      if_pos (isIn_boundOperators hbound)]
    cases argument <;> first | exact ⟨_, rfl⟩ | cases hnumber
  | text hbound t =>
    rw [if_neg (hbounds _ hbound).1, if_neg (hbounds _ hbound).2,
      if_pos (isIn_boundOperators hbound)]
    exact ⟨_, rfl⟩
  | existBool b => exact ⟨_, rfl⟩
  | existInt i => exact ⟨_, rfl⟩
  | other hother =>
    have hname : ∀ name ∈ operatorNames, operator ≠ name := fun name hname heq =>
      hother (heq ▸ hname)
    have hbound : ¬ (Value.text operator).isIn boundOperators = true := fun hbound => by
      have hmem := mem_boundNames_of_isIn hbound
      exact hother (by simp_all [operatorNames, boundNames])
    rw [if_neg (hname "$eq" (by decide)), if_neg (hname "$in" (by decide)), if_neg hbound,
      if_neg (hname "$exists" (by decide))]
    exact ⟨_, rfl⟩

/-- All operators are read just if each takes its argument. -/
theorem addAll_isOk_iff {operators : Entries} :
    (∃ draft', draft.addAll path operators = .ok draft') ↔
      ∀ e ∈ operators, Takes e.1.display e.2 := by
  induction operators generalizing draft with
  | nil => exact iff_of_true ⟨draft, rfl⟩ nofun
  | cons e rest ih =>
    rw [List.forall_mem_cons]
    constructor
    · rintro ⟨last, hlast⟩
      obtain ⟨next, hnext, hlast⟩ := Outcome.bind_eq_ok.mp hlast
      exact ⟨takes_of_add hnext, ih.mp ⟨last, hlast⟩⟩
    · rintro ⟨hfirst, hrest⟩
      obtain ⟨next, hnext⟩ := add_of_takes hfirst path draft
      obtain ⟨last, hlast⟩ : ∃ last, addAll path next rest = .ok last := ih.mpr hrest
      exact ⟨last, Outcome.bind_eq_ok.mpr ⟨next, hnext, hlast⟩⟩

/-- The bounds of a draft are named as the operators are. -/
theorem has_bounds_addAll {operators : Entries} (htexts : operators.TextKeys)
    (h : Draft.addAll path {} operators = .ok draft) {name : Text} (hname : name ∈ boundNames) :
    draft.bounds.has (.text name) = true ↔ .text name ∈ operators.keys := by
  -- the bounds of the draft are the operators that are bounds, put in one after the other
  rw [addAll_eq, foldl_withOperator _ htexts] at h
  split at h
  · cases h
    rw [Entries.has_update, Entries.has_nil, Bool.false_or, Entries.has_text_iff]
    constructor
    · intro hmem
      obtain ⟨e, he, hkey⟩ := List.mem_map.mp hmem
      exact List.mem_map.mpr ⟨e, (List.mem_filter.mp he).1, hkey⟩
    · intro hmem
      obtain ⟨e, he, hkey⟩ := List.mem_map.mp hmem
      refine List.mem_map.mpr ⟨e, List.mem_filter.mpr ⟨he, ?_⟩, hkey⟩
      unfold isBound
      rw [hkey, Value.display_text]
      exact isIn_boundOperators hname
  · cases h

/-- A draft makes a range, or none, just if no side has two bounds. -/
theorem range?_isOk_iff {raw : Entries} :
    (∃ range, draft.range? path raw = .ok range) ↔
      (draft.bounds.has "$gt" && draft.bounds.has "$gte") = false ∧
        (draft.bounds.has "$lt" && draft.bounds.has "$lte") = false := by
  unfold range?
  dsimp only
  split
  · next hempty =>
    rw [List.isEmpty_iff.mp hempty]
    exact iff_of_true ⟨none, rfl⟩ ⟨rfl, rfl⟩
  split
  · next htwo => simp [htwo]
  next hlower =>
  split
  · next htwo => simp [htwo]
  next hupper =>
  exact iff_of_true ⟨_, rfl⟩ ⟨Bool.eq_false_iff.mpr hlower, Bool.eq_false_iff.mpr hupper⟩

end Draft

theorem ofOperators_isOk_iff_draft {raw : Entries} :
    (∃ filter, ofOperators path raw = .ok filter) ↔
      ∃ draft, Draft.addAll path {} raw = .ok draft ∧
        ∃ range, draft.range? path raw = .ok range := by
  constructor
  · rintro ⟨filter, hfilter⟩
    obtain ⟨draft, range, hdraft, hrange, -⟩ := ofOperators_eq_ok hfilter
    exact ⟨draft, hdraft, range, hrange⟩
  · rintro ⟨draft, hdraft, range, hrange⟩
    unfold ofOperators
    rw [hdraft, Outcome.ok_bind, hrange, Outcome.ok_bind]
    split <;> exact ⟨_, rfl⟩

/-- A mapping of operators is read just if it is one of the grammar. -/
theorem ofOperators_isOk_iff (hne : operators ≠ [])
    (hkeys : ∀ e ∈ operators, isOperatorKey e.1 = true) :
    (∃ filter, ofOperators path operators = .ok filter) ↔ operators.AreFilterOperators := by
  have htexts : operators.TextKeys := fun e he => by
    obtain ⟨t, ht, -⟩ := isOperatorKey_iff.mp (hkeys e he)
    exact ⟨t, ht⟩
  have hsides : ∀ {draft : Draft}, Draft.addAll path {} operators = .ok draft →
      ∀ strict ∈ boundNames, ∀ inclusive ∈ boundNames,
        ((draft.bounds.has (.text strict) && draft.bounds.has (.text inclusive)) = false ↔
          ¬ (.text strict ∈ operators.keys ∧ .text inclusive ∈ operators.keys)) := by
    intro draft hdraft strict hstrict inclusive hinclusive
    rw [← Bool.not_eq_true, Bool.and_eq_true, Draft.has_bounds_addAll htexts hdraft hstrict,
      Draft.has_bounds_addAll htexts hdraft hinclusive]
  rw [ofOperators_isOk_iff_draft]
  constructor
  · rintro ⟨draft, hdraft, hrange⟩
    obtain ⟨hlower, hupper⟩ := Draft.range?_isOk_iff.mp hrange
    refine ⟨hne, fun e he => ?_, (hsides hdraft _ (by decide) _ (by decide)).mp hlower,
      (hsides hdraft _ (by decide) _ (by decide)).mp hupper⟩
    obtain ⟨t, ht, hstarts⟩ := isOperatorKey_iff.mp (hkeys e he)
    have htakes := Draft.addAll_isOk_iff.mp ⟨draft, hdraft⟩ e he
    rw [ht, Value.display_text] at htakes
    exact ⟨t, ht, hstarts, htakes⟩
  · intro h
    obtain ⟨draft, hdraft⟩ : ∃ draft, Draft.addAll path {} operators = .ok draft := by
      refine Draft.addAll_isOk_iff.mpr fun e he => ?_
      obtain ⟨t, ht, -, htakes⟩ := h.names e he
      rw [ht, Value.display_text]
      exact htakes
    exact ⟨draft, hdraft, Draft.range?_isOk_iff.mpr
      ⟨(hsides hdraft _ (by decide) _ (by decide)).mpr h.lower,
        (hsides hdraft _ (by decide) _ (by decide)).mpr h.upper⟩⟩

/-! ### Values -/

/-- The field that an entry is read as. -/
def fieldOf (path : Value) (e : Value × Value) : Except FilterFault (Text × Filter) :=
  match e.1 with
  | .text t =>
    if t.isEmpty then .error (.badKeyUnder path.display e.1)
    else do return (t, ← ofValue (pathUnder path t) e.2)
  | key => .error (.badKeyUnder path.display key)

theorem fieldsOf_eq_mapM (path : Value) (entries : Entries) :
    fieldsOf path entries = entries.mapM (fieldOf path) := by
  induction entries with
  | nil => rw [fieldsOf]; rfl
  | cons e rest ih =>
    obtain ⟨key, v⟩ := e
    rw [List.mapM_cons, ← ih]
    cases key with
    | text t =>
      unfold fieldOf
      dsimp only
      rw [fieldsOf]
      split
      · rfl
      · cases ofValue (pathUnder path t) v with
        | error fault => rfl
        | ok filter => cases fieldsOf path rest <;> rfl
    | _ => rfl

theorem fieldOf_isOk_iff {path : Value} {e : Value × Value} :
    (∃ field, fieldOf path e = .ok field) ↔
      ∃ t : Text, e.1 = .text t ∧ t.isEmpty = false ∧
        ∃ filter, ofValue (pathUnder path t) e.2 = .ok filter := by
  obtain ⟨key, v⟩ := e
  unfold fieldOf
  constructor
  · rintro ⟨field, h⟩
    cases key with
    | text t =>
      dsimp only at h
      split at h
      · cases h
      next hempty =>
      obtain ⟨filter, hfilter, -⟩ := Outcome.bind_eq_ok.mp h
      exact ⟨t, rfl, Bool.eq_false_iff.mpr hempty, filter, hfilter⟩
    | _ => cases h
  · rintro ⟨t, ht, hempty, filter, hfilter⟩
    cases ht
    dsimp only
    rw [if_neg (Bool.eq_false_iff.mp hempty), hfilter]
    exact ⟨_, rfl⟩

/-- The fields of a mapping are read just if each has a name and a value that is read. -/
theorem fieldsOf_isOk_iff {path : Value} :
    (∃ fields, fieldsOf path entries = .ok fields) ↔
      ∀ e ∈ entries, ∃ t : Text, e.1 = .text t ∧ t.isEmpty = false ∧
        ∃ filter, ofValue (pathUnder path t) e.2 = .ok filter := by
  rw [fieldsOf_eq_mapM, Outcome.mapM_isOk_iff]
  exact forall₂_congr fun e _ => fieldOf_isOk_iff

/-- A mapping without operators is read just if its fields are. -/
theorem ofValue_fields {path : Value} (h : ∀ e ∈ entries, isOperatorKey e.1 = false) :
    ofValue path (.map entries) =
      (do return .nested (.map entries) (← fieldsOf path entries)) := by
  have hnone : ¬ (entries.any fun e => isOperatorKey e.1) = true := by
    rw [List.any_eq_true]
    rintro ⟨e, he, hkey⟩
    rw [h e he] at hkey
    cases hkey
  rw [ofValue, if_neg hnone]
  cases fieldsOf path entries <;> rfl

theorem isOperatorKey_of_isFieldName {key : Value} (h : key.IsFieldName) :
    isOperatorKey key = false := by
  obtain ⟨t, rfl, -, hstarts⟩ := h
  exact hstarts

/-- The reader of a filter accepts the filters of the grammar, under every path. -/
theorem ofValue_isOk_iff {v : Value} :
    ∀ path, (∃ filter, ofValue path v = .ok filter) ↔ v.IsFilter := by
  -- the path is part of the statement, since each field is read under its own
  induction v using Value.map_induction with
  | other v hv =>
    intro path
    cases v with
    | map => cases hv
    | list items =>
      refine iff_of_true ?_ (.list items)
      rw [ofValue]
      split <;> exact ⟨_, rfl⟩
    | bytes octets =>
      refine iff_of_false ?_ ?_
      · rintro ⟨filter, h⟩
        rw [ofValue] at h
        cases h
      · rintro ⟨⟩
        contradiction
    | _ =>
      refine iff_of_true ?_ (.scalar rfl)
      rw [ofValue]
      exact ⟨_, rfl⟩
  | map entries ih =>
    intro path
    constructor
    · rintro ⟨filter, h⟩
      rcases ofValue_map_eq_ok h with ⟨hne, hkeys, h⟩ | ⟨hkeys, fields, hfields, -⟩
      · exact .operators ((ofOperators_isOk_iff hne hkeys).mp ⟨filter, h⟩)
      · have hread := fieldsOf_isOk_iff.mp ⟨fields, hfields⟩
        refine .fields (fun e he => ?_) fun e he => ?_
        · obtain ⟨t, ht, hempty, -⟩ := hread e he
          have hkey := hkeys e he
          rw [ht] at hkey
          exact ⟨t, ht, hempty, hkey⟩
        · obtain ⟨t, -, -, hvalue⟩ := hread e he
          exact (ih e he _).mp hvalue
    · intro h
      cases h with
      | scalar h => cases h
      | fields hnames hvalues =>
        rw [ofValue_fields fun e he => isOperatorKey_of_isFieldName (hnames e he)]
        obtain ⟨fields, hfields⟩ : ∃ fields, fieldsOf path entries = .ok fields := by
          refine fieldsOf_isOk_iff.mpr fun e he => ?_
          obtain ⟨t, ht, hempty, -⟩ := hnames e he
          exact ⟨t, ht, hempty, (ih e he _).mpr (hvalues e he)⟩
        rw [hfields]
        exact ⟨_, rfl⟩
      | operators h =>
        have hkeys : ∀ e ∈ entries, isOperatorKey e.1 = true := fun e he => by
          obtain ⟨t, ht, hstarts, -⟩ := h.names e he
          exact isOperatorKey_iff.mpr ⟨t, ht, hstarts⟩
        -- the reader looks for one key of an operator first, and then for others
        have hany : (entries.any fun e => isOperatorKey e.1) = true := by
          obtain ⟨e, he⟩ := List.exists_mem_of_ne_nil entries h.nonempty
          exact List.any_eq_true.mpr ⟨e, he, hkeys e he⟩
        rw [ofValue, if_pos hany, if_pos (List.all_eq_true.mpr hkeys)]
        exact (ofOperators_isOk_iff h.nonempty hkeys).mpr h

end Filter

/-! ### Expressions -/

namespace Terms

/-- The term that an entry is read as. -/
def termOf (e : Value × Value) : Except FilterFault (Text × Filter) :=
  match e.1 with
  | .text t =>
    if t.isEmpty then .error (.badKey e.1)
    else if t.startsWith "$" then .error (.operatorAtTop t)
    else do return (t, ← Filter.ofValue e.1 e.2)
  | key => .error (.badKey key)

/-- A term gives its entry back. -/
theorem entry_of_termOf {e : Value × Value} {term : Text × Filter} (h : termOf e = .ok term) :
    (.text term.1, term.2.raw) = e := by
  obtain ⟨key, v⟩ := e
  cases key with
  | text t =>
    simp only [termOf] at h
    split at h
    · cases h
    split at h
    · cases h
    obtain ⟨filter, hfilter, h⟩ := Outcome.bind_eq_ok.mp h
    cases h
    rw [Filter.raw_of_ofValue hfilter]
  | _ => cases h

theorem ofEntries_eq_mapM (entries : Entries) : ofEntries entries = entries.mapM termOf := by
  induction entries with
  | nil => rfl
  | cons e rest ih =>
    obtain ⟨key, v⟩ := e
    rw [List.mapM_cons, ← ih]
    cases key with
    | text t =>
      unfold termOf
      rw [ofEntries]
      dsimp only
      split
      · rfl
      split
      · rfl
      · cases Filter.ofValue (.text t) v with
        | error fault => rfl
        | ok filter => cases ofEntries rest <;> rfl
    | _ => rfl

/-- Terms are given to the documents as the entries that they were read from. -/
theorem toDocumentQuery_of_ofEntries {entries : Entries} {terms : Terms}
    (h : ofEntries entries = .ok terms) : terms.toDocumentQuery = entries := by
  rw [ofEntries_eq_mapM] at h
  exact Outcome.map_of_mapM_eq_ok (fun _ _ => entry_of_termOf) h

theorem termOf_isOk_iff {e : Value × Value} :
    (∃ term, termOf e = .ok term) ↔ e.1.IsFieldName ∧ e.2.IsFilter := by
  obtain ⟨key, v⟩ := e
  rw [← Filter.ofValue_isOk_iff key]
  unfold termOf Value.IsFieldName
  constructor
  · rintro ⟨term, h⟩
    cases key with
    | text t =>
      dsimp only at h
      split at h
      · cases h
      next hempty =>
      split at h
      · cases h
      next hstarts =>
      obtain ⟨filter, hfilter, -⟩ := Outcome.bind_eq_ok.mp h
      exact ⟨⟨t, rfl, Bool.eq_false_iff.mpr hempty, Bool.eq_false_iff.mpr hstarts⟩, filter, hfilter⟩
    | _ => cases h
  · rintro ⟨⟨t, ht, hempty, hstarts⟩, filter, hfilter⟩
    cases ht
    dsimp only at hfilter ⊢
    rw [if_neg (Bool.eq_false_iff.mp hempty), if_neg (Bool.eq_false_iff.mp hstarts), hfilter]
    exact ⟨_, rfl⟩

theorem ofValue_isOk_iff {v : Value} : (∃ terms, ofValue v = .ok terms) ↔ v.IsExpression := by
  cases v with
  | null => exact iff_of_true ⟨[], rfl⟩ .null
  | map entries =>
    unfold ofValue
    dsimp only
    rw [ofEntries_eq_mapM, Outcome.mapM_isOk_iff]
    constructor
    · intro h
      exact .fields (fun e he => (termOf_isOk_iff.mp (h e he)).1)
        fun e he => (termOf_isOk_iff.mp (h e he)).2
    · rintro ⟨⟩
      next hnames hvalues => exact fun e he => termOf_isOk_iff.mpr ⟨hnames e he, hvalues e he⟩
  | _ => exact iff_of_false nofun nofun

/-- The reader of an expression accepts the expressions of the grammar, and reports all that is
none as a fault of the query. -/
theorem ofValue_accepts (v : Value) :
    (v.IsExpression → ∃ terms, liftFilter (ofValue v) = .ok terms) ∧
      (¬ v.IsExpression →
        ∃ fault, liftFilter (ofValue v) = .error fault ∧ fault.kind = "QueryParseError") := by
  rw [← ofValue_isOk_iff]
  constructor
  · rintro ⟨terms, hterms⟩
    exact ⟨terms, liftFilter_eq_ok.mpr hterms⟩
  · intro hnone
    cases hread : ofValue v with
    | ok terms => exact absurd ⟨terms, hread⟩ hnone
    | error fault => exact ⟨.filter fault, rfl, rfl⟩

end Terms

end ScanCatalog
