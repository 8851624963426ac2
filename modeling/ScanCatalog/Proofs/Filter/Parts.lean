import ScanCatalog.Proofs.Json.Read
import ScanCatalog.Proofs.Motor.AnyOrder

/-!
# What filters are read from

A filter keeps the value that it was read from. The values in it are parts of that value, and so
are the names of its fields: reading a filter makes up nothing.

## Main definitions

* `Value.HasPart`: the parts of a value;
* `Filter.Mentions`: the values in a filter, and the names of its fields;
* `Terms.ReadFrom`: terms that are read from entries of an expression.

## Main statements

* `Filter.raw_of_ofValue`: a filter is read from the value that it keeps;
* `Filter.hasPart_of_ofValue`: it mentions parts of that value only;
* `Filter.listed_of_ofValue`: the argument of a set operator is a list.
-/

namespace ScanCatalog

/-- The parts of a value: the value itself, and the parts of its items, of its keys and of the
values under them. -/
inductive Value.HasPart : Value → Value → Prop
  | refl (v : Value) : HasPart v v
  | item {items : List Value} {v w : Value} (hv : v ∈ items) (h : HasPart v w) :
    HasPart (.list items) w
  | key {entries : Entries} {e : Value × Value} {w : Value} (he : e ∈ entries)
    (h : HasPart e.1 w) : HasPart (.map entries) w
  | value {entries : Entries} {e : Value × Value} {w : Value} (he : e ∈ entries)
    (h : HasPart e.2 w) : HasPart (.map entries) w

/-- The values in a filter that are compared with others, and the names of its fields. Operators
that only documents know are passed on as they are. -/
inductive Filter.Mentions : Filter → Value → Prop
  | literal (v : Value) : Mentions (.literal v) v
  | member {raw v : Value} {values : List Value} (hv : v ∈ values) :
    Mentions (.valueSet raw values) v
  | bound {raw lower upper v : Value} {lowerInclusive upperInclusive : Bool}
    (hv : v ∈ [lower, upper]) (hnull : v.isNull = false) :
    Mentions (.range raw lower upper lowerInclusive upperInclusive) v
  | part {raw v : Value} {parts : List Filter} {part : Filter} (hpart : part ∈ parts)
    (h : Mentions part v) : Mentions (.compound raw parts) v
  | name {raw : Value} {fields : List (Text × Filter)} {field : Text × Filter}
    (hfield : field ∈ fields) : Mentions (.nested raw fields) (.text field.1)
  | field {raw v : Value} {fields : List (Text × Filter)} {field : Text × Filter}
    (hfield : field ∈ fields) (h : Mentions field.2 v) : Mentions (.nested raw fields) v

/-- The argument of an operator is a part of the mapping, and so are its items. -/
theorem Value.HasPart.argument {operators : Entries} {e : Value × Value} {w : Value}
    (he : e ∈ operators) (hw : w ∈ e.2 :: e.2.listItems) : (Value.map operators).HasPart w := by
  refine .value he ?_
  rcases List.mem_cons.mp hw with rfl | hw
  · exact .refl _
  · cases hv : e.2 with
    | list items =>
      rw [hv] at hw
      exact .item hw (.refl _)
    | _ =>
      rw [hv] at hw
      cases hw

namespace Filter

variable {path v w : Value} {entries operators : Entries} {filter part : Filter}

/-! ### Operators -/

theorem raw_withRaw (hpart : part.IsOfOperator) (raw : Value) : (part.withRaw raw).raw = raw := by
  cases part <;> first | rfl | cases hpart

/-- Which value a filter is read from does not matter for what it mentions. -/
theorem Mentions.of_withRaw {raw : Value} (h : (part.withRaw raw).Mentions w) :
    part.Mentions w := by
  cases part <;> cases h
  case literal => exact .literal _
  case valueSet hv => exact .member hv
  case range hnull hv => exact .bound hv hnull
  case compound hpart h => exact .part hpart h
  case nested.name hfield => exact .name hfield
  case nested.field hfield h => exact .field hfield h

/-- What a mapping of operators is read as. No operator has a fault then. -/
theorem ofOperators_draftOf {path : Text} (h : operators.AreOperators)
    (hfilter : ofOperators path operators = .ok filter) :
    operators.findSome? (Draft.fault? path) = none ∧
      ∃ range, (draftOf operators).range? path operators = .ok range ∧
        (filter = .compound (.map operators) (PositionQuery.partsOfDraft operators range) ∨
          ∃ part, PositionQuery.partsOfDraft operators range = [part] ∧
            filter = part.withRaw (.map operators)) := by
  obtain ⟨draft, range, hdraft, hrange, hparts⟩ := ofOperators_eq_ok hfilter
  rw [addAll_operators h] at hdraft
  cases hfault : operators.findSome? (Draft.fault? path) with
  | some fault =>
    rw [hfault] at hdraft
    cases hdraft
  | none =>
    rw [hfault] at hdraft
    cases hdraft
    exact ⟨rfl, range, hrange, hparts⟩

/-- What the parts of a draft mention are arguments of operators, or items of one. -/
theorem Mentions.of_partsOfDraft {path : Text} {range : Option Filter}
    (hrange : (draftOf operators).range? path operators = .ok range)
    (hpart : part ∈ PositionQuery.partsOfDraft operators range) (h : part.Mentions w) :
    ∃ e ∈ operators, w ∈ e.2 :: e.2.listItems := by
  rcases List.mem_append.mp hpart with hpart | hown
  · rcases List.mem_append.mp hpart with hset | hbounds
    · obtain ⟨values, hexact, rfl⟩ := Option.map_eq_some_iff.mp (Option.mem_toList.mp hset)
      cases h with
      | member hv => exact mem_exact hexact hv
    · rcases Draft.range?_eq_ok hrange with ⟨-, rfl⟩ | ⟨_, lower, upper, _, _, rfl, hlower, hupper⟩
      · cases hbounds
      rw [Option.toList_some, List.mem_singleton] at hbounds
      subst hbounds
      cases h with
      | bound hv hnull =>
        rcases List.mem_pair.mp hv with rfl | rfl
        · exact mem_bounds hlower hnull
        · exact mem_bounds hupper hnull
  · rcases PositionQuery.draftOf_parts_own part hown with
      ⟨_, _, rfl⟩ | ⟨_, _, _, rfl⟩ <;> cases h

/-- An operator adds parts of operators only. -/
theorem Draft.isOfOperator_of_add {path operator : Text} {argument : Value} {draft draft' : Draft}
    (h : draft.add path operator argument = .ok draft')
    (hparts : ∀ part ∈ draft.parts, part.IsOfOperator) :
    ∀ part ∈ draft'.parts, part.IsOfOperator := by
  have hadded : ∀ part : Filter, part.IsOfOperator →
      ∀ other ∈ draft.parts ++ [part], other.IsOfOperator := by
    intro part hpart other hother
    rcases List.mem_append.mp hother with hother | hother
    · exact hparts other hother
    · rwa [List.mem_singleton.mp hother]
  simp only [Draft.add] at h
  repeat' split at h
  all_goals cases h
  all_goals first | exact hparts | exact hadded _ trivial

theorem Draft.isOfOperator_of_addAll {path : Text} {draft draft' : Draft}
    (h : draft.addAll path operators = .ok draft')
    (hparts : ∀ part ∈ draft.parts, part.IsOfOperator) :
    ∀ part ∈ draft'.parts, part.IsOfOperator := by
  induction operators generalizing draft with
  | nil =>
    cases h
    exact hparts
  | cons e rest ih =>
    obtain ⟨next, hnext, h⟩ := Outcome.bind_eq_ok.mp h
    exact ih h (isOfOperator_of_add hnext hparts)

/-- The filter of operators keeps them, whether it has one part or several. -/
theorem raw_of_ofOperators {path : Text} (h : ofOperators path operators = .ok filter) :
    filter.raw = .map operators := by
  obtain ⟨draft, range, hdraft, hrange, hwhole⟩ := ofOperators_eq_ok h
  rcases hwhole with rfl | ⟨part, hone, rfl⟩
  · rfl
  · have hparts := Draft.isOfOperator_of_addAll hdraft (List.forall_mem_nil _)
    refine raw_withRaw (Draft.isOfOperator hparts hrange part ?_) _
    rw [hone]
    exact List.mem_singleton_self part

/-- The filter of operators mentions their arguments only. -/
theorem ofOperators_parts {path : Text} (h : operators.AreOperators)
    (hfilter : ofOperators path operators = .ok filter) (hw : filter.Mentions w) :
    (Value.map operators).HasPart w := by
  obtain ⟨-, range, hrange, hwhole⟩ := ofOperators_draftOf h hfilter
  have hparts : ∀ part ∈ PositionQuery.partsOfDraft operators range, ∀ w, part.Mentions w →
      (Value.map operators).HasPart w := by
    intro part hpart w hw
    obtain ⟨e, he, hw⟩ := hw.of_partsOfDraft hrange hpart
    exact .argument he hw
  rcases hwhole with rfl | ⟨part, hone, rfl⟩
  · cases hw with
    | part hpart hw => exact hparts _ hpart w hw
  · have hpart : part ∈ PositionQuery.partsOfDraft operators range := by
      rw [hone]
      exact List.mem_singleton_self part
    exact hparts part hpart w hw.of_withRaw

/-! ### Filters of values -/

/-- A mapping has operators only, or fields only. -/
theorem ofValue_map_eq_ok (h : ofValue path (.map entries) = .ok filter) :
    (entries ≠ [] ∧ (∀ e ∈ entries, isOperatorKey e.1 = true) ∧
        ofOperators path.display entries = .ok filter) ∨
      (∀ e ∈ entries, isOperatorKey e.1 = false) ∧
        ∃ fields, fieldsOf path entries = .ok fields ∧ filter = .nested (.map entries) fields := by
  unfold ofValue at h
  split at h
  · next hany =>
    split at h
    · next hall =>
      refine .inl ⟨?_, List.all_eq_true.mp hall, h⟩
      rintro rfl
      cases hany
    · cases h
  · next hnone =>
    refine .inr ⟨fun e he => ?_, ?_⟩
    · exact Bool.eq_false_iff.mpr fun hkey => hnone (List.any_eq_true.mpr ⟨e, he, hkey⟩)
    · split at h
      · next fields hfields => exact ⟨fields, hfields, (Except.ok.inj h).symm⟩
      · cases h

/-- Each field is read from an entry. -/
theorem mem_fieldsOf {fields : List (Text × Filter)} (h : fieldsOf path entries = .ok fields) :
    ∀ field ∈ fields, ∃ e ∈ entries, e.1 = .text field.1 ∧
      ∃ path, ofValue path e.2 = .ok field.2 := by
  induction entries generalizing fields with
  | nil =>
    cases h
    exact nofun
  | cons e rest ih =>
    obtain ⟨key, v⟩ := e
    unfold fieldsOf at h
    split at h
    · next t =>
      split at h
      · cases h
      split at h
      · cases h
      next filter hfilter =>
      split at h
      · cases h
      next tail htail =>
      cases h
      refine List.forall_mem_cons.mpr ⟨⟨_, List.mem_cons_self, rfl, _, hfilter⟩, ?_⟩
      intro field hfield
      obtain ⟨e, he, hread⟩ := ih htail field hfield
      exact ⟨e, List.mem_cons_of_mem _ he, hread⟩
    · cases h

theorem areOperators_of_isJson (hjson : (Value.map entries).IsJson) (hne : entries ≠ [])
    (hkeys : ∀ e ∈ entries, isOperatorKey e.1 = true) : entries.AreOperators := by
  cases hjson with
  | map _ hdistinct _ => exact ⟨hne, hkeys, hdistinct⟩

/-- A filter is read from the value that it keeps. -/
theorem raw_of_ofValue (h : ofValue path v = .ok filter) : filter.raw = v := by
  cases v with
  | map entries =>
    rcases ofValue_map_eq_ok h with ⟨-, -, h⟩ | ⟨-, fields, -, rfl⟩
    · exact raw_of_ofOperators h
    · rfl
  | list items =>
    unfold ofValue at h
    split at h <;> cases h <;> rfl
  | bytes => cases h
  | _ =>
    cases h
    rfl

/-- A filter mentions parts of the value that it is read from, and nothing else. -/
theorem hasPart_of_ofValue (hjson : v.IsJson) (h : ofValue path v = .ok filter)
    (hw : filter.Mentions w) : v.HasPart w := by
  induction hjson generalizing path filter w with
  | @map entries htexts hdistinct hvalues ih =>
    rcases ofValue_map_eq_ok h with ⟨hne, hkeys, h⟩ | ⟨-, fields, hfields, rfl⟩
    · exact ofOperators_parts ⟨hne, hkeys, hdistinct⟩ h hw
    · cases hw with
      | name hfield =>
        obtain ⟨e, he, hkey, -⟩ := mem_fieldsOf hfields _ hfield
        exact .key he (hkey ▸ .refl _)
      | field hfield hw =>
        obtain ⟨e, he, -, path, hread⟩ := mem_fieldsOf hfields _ hfield
        exact .value he (ih e he hread hw)
  | list =>
    unfold ofValue at h
    split at h <;> cases h <;> cases hw
    · next hv => exact .item hv (.refl _)
    · exact .refl _
  | _ =>
    cases h
    cases hw
    exact .refl _

/-- An operator that names a set names a list. -/
theorem listed_of_ofValue {argument : Value} (hjson : (Value.map entries).IsJson)
    (h : ofValue path (.map entries) = .ok filter) (hmem : (.text "$in", argument) ∈ entries) :
    ∃ items, argument = .list items := by
  rcases ofValue_map_eq_ok h with ⟨hne, hkeys, h⟩ | ⟨hkeys, -⟩
  · obtain ⟨hfaults, -⟩ := ofOperators_draftOf (areOperators_of_isJson hjson hne hkeys) h
    have hfault := List.findSome?_eq_none_iff.mp hfaults _ hmem
    cases argument with
    | list items => exact ⟨items, rfl⟩
    | _ => cases hfault
  · cases hkeys _ hmem

end Filter

/-! ### Terms -/

/-- Each of the terms is read from an entry of an expression. -/
def Terms.ReadFrom (terms : Terms) (expression : Entries) : Prop :=
  ∀ term ∈ terms, ∃ v, (Value.text term.1, v) ∈ expression ∧
    Filter.ofValue (.text term.1) v = .ok term.2

namespace Terms

variable {terms : Terms} {expression : Entries}

theorem readFrom_of_ofEntries (h : ofEntries expression = .ok terms) :
    terms.ReadFrom expression := by
  induction expression generalizing terms with
  | nil =>
    cases h
    exact List.forall_mem_nil _
  | cons e rest ih =>
    obtain ⟨key, v⟩ := e
    unfold ofEntries at h
    split at h
    · next t =>
      split at h
      · cases h
      split at h
      · cases h
      obtain ⟨filter, hfilter, h⟩ := Outcome.bind_eq_ok.mp h
      obtain ⟨tail, htail, h⟩ := Outcome.bind_eq_ok.mp h
      cases h
      refine List.forall_mem_cons.mpr ⟨⟨v, List.mem_cons_self, hfilter⟩, fun term hterm => ?_⟩
      obtain ⟨w, hw, hread⟩ := ih htail term hterm
      exact ⟨w, List.mem_cons_of_mem _ hw, hread⟩
    · cases h

theorem ReadFrom.filter (h : terms.ReadFrom expression) (condition : Text × Filter → Bool) :
    ReadFrom (terms.filter condition) expression :=
  fun term hterm => h term (List.mem_filter.mp hterm).1

/-- Terms are given to documents as the entries that they are read from. -/
theorem ReadFrom.mem_toDocumentQuery (h : terms.ReadFrom expression)
    (hjson : (Value.map expression).IsJson) {e : Value × Value} (he : e ∈ terms.toDocumentQuery) :
    ∃ term ∈ terms, e.1 = .text term.1 ∧ e.2.IsJson ∧
      Filter.ofValue (.text term.1) e.2 = .ok term.2 := by
  obtain ⟨term, hterm, rfl⟩ := List.mem_map.mp he
  obtain ⟨v, hv, hread⟩ := h term hterm
  have hv : v.IsJson := by
    cases hjson with
    | map _ _ hvalues => exact hvalues _ hv
  have hraw := Filter.raw_of_ofValue hread
  exact ⟨term, hterm, rfl, hraw ▸ hv, hraw ▸ hread⟩

end Terms

end ScanCatalog
