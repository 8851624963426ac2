import ScanCatalog.Proofs.Filter.AnyOrder
import ScanCatalog.Proofs.Motor.Operators

/-!
# Operators of a motor in any order

A mapping of operators for a motor compiles to a query. Another order of the operators may leave
another of two equal numbers in its set, and no more than that changes, as long as none of them
is a boolean.

## Main definitions

* `PositionQuery.Alike`: queries that ask the same;
* `PositionQuery.Agree`: outcomes that agree;
* `Entries.HasTooLarge`: operators with a number that is too large for a position.

## Main statements

* `compileEntries_draftOf`: what a mapping of operators compiles to;
* `compileEntries_perm`: the order of the operators does not matter for sets without booleans;
* `compileEntries_order_matters`: it matters for a boolean that is equal to a number.
-/

namespace ScanCatalog

/-- Some number among the arguments of operators, or in a list of them, is too large for a
position. -/
def Entries.HasTooLarge (operators : Entries) : Prop :=
  ∃ e ∈ operators, ∃ v ∈ e.2 :: e.2.listItems, v.toReal = .error .intTooLarge

namespace PositionQuery

open Value

/-- Numbers are positions, unless an integer among them is too large. -/
theorem positionsOf_cases {values : List Value} (hnumbers : values.all isNumber = true) :
    ((∃ v ∈ values, v.toReal = .error .intTooLarge) ∧
        positionsOf values = .error .intTooLarge) ∨
      (¬ ∃ v ∈ values, v.toReal = .error .intTooLarge) ∧
        ∃ positions, positionsOf values = .ok positions ∧ ∀ p : Value, p.isIn positions = true ↔
          ∃ v ∈ values, ∃ x, v.toReal = .ok x ∧ p.same (.float x) = true := by
  induction values with
  | nil => exact .inr ⟨nofun, [], rfl, fun p => by simp [isIn]⟩
  | cons v rest ih =>
    obtain ⟨hnumber, hrest⟩ := Bool.and_eq_true_iff.mp hnumbers
    unfold positionsOf at ih ⊢
    rw [List.mapM_cons]
    rcases toReal_cases hnumber with ⟨x, hx⟩ | hlarge
    · rcases ih hrest with ⟨⟨w, hw, hlarge⟩, herror⟩ | ⟨hsmall, positions, hpositions, hin⟩
      · refine .inl ⟨⟨w, List.mem_cons_of_mem _ hw, hlarge⟩, ?_⟩
        rw [hx, herror]
        rfl
      · refine .inr ⟨?_, .float x :: positions, ?_, fun p => ?_⟩
        · rw [List.exists_mem_cons_iff, hx]
          exact not_or.mpr ⟨fun hlarge => (by cases hlarge), hsmall⟩
        · rw [hx, hpositions]
          rfl
        · rw [List.exists_mem_cons_iff, ← hin, hx]
          simp [isIn]
    · refine .inl ⟨⟨v, List.mem_cons_self, hlarge⟩, ?_⟩
      rw [hlarge]
      rfl

/-- Sets of numbers that cover each other are the same positions, or each has an integer that is
too large. -/
theorem positionsOf_covered {values others : List Value} (hcovered : Covered values others)
    (hcovers : Covered others values) (hnumbers : values.all isNumber = true) :
    ((∃ v ∈ values, v.toReal = .error .intTooLarge) ∧
        positionsOf values = .error .intTooLarge ∧ positionsOf others = .error .intTooLarge) ∨
      ∃ positions positions', positionsOf values = .ok positions ∧
        positionsOf others = .ok positions' ∧ ∀ p : Value, p.isIn positions' = p.isIn positions := by
  have hnumbers' := hcovers.all_isNumber hnumbers
  rcases positionsOf_cases hnumbers with ⟨hlarge, herror⟩ | ⟨hsmall, positions, hok, hin⟩ <;>
    rcases positionsOf_cases hnumbers' with ⟨hlarge', herror'⟩ | ⟨hsmall', positions', hok', hin'⟩
  · exact .inl ⟨hlarge, herror, herror'⟩
  · exact absurd (hcovered.exists_tooLarge hnumbers hlarge) hsmall'
  · exact absurd (hcovers.exists_tooLarge hnumbers' hlarge') hsmall
  · refine .inr ⟨positions, positions', hok, hok', fun p => ?_⟩
    rw [Bool.eq_iff_iff, hin, hin']
    exact ⟨hcovers.exists_position hnumbers', hcovered.exists_position hnumbers⟩

/-! ### Queries that ask the same -/

/-- Queries that differ in their sets at most, and those have the same values. -/
structure Alike (query other : PositionQuery) : Prop where
  rest : other = { query with exact := other.exact }
  given : other.exact.isSome = query.exact.isSome
  asks : ∀ p : Value, (other.exact.all fun values => p.isIn values) =
    query.exact.all fun values => p.isIn values

variable {large : Prop} {m : Text} {query other : PositionQuery} {parts : List Filter}

theorem Alike.refl (query : PositionQuery) : query.Alike query := ⟨rfl, rfl, fun _ => rfl⟩

theorem Alike.isSatisfiedBy (h : query.Alike other) (motors : Entries) :
    other.isSatisfiedBy motors = query.isSatisfiedBy motors := by
  obtain ⟨hrest, -, hasks⟩ := h
  rw [hrest]
  unfold PositionQuery.isSatisfiedBy accepts
  dsimp only
  simp only [hasks]

theorem Alike.contradicts (h : query.Alike other) :
    (!other.present && other.constrainsPosition) = (!query.present && query.constrainsPosition) := by
  obtain ⟨hrest, hgiven, -⟩ := h
  rw [hrest]
  unfold constrainsPosition
  dsimp only
  rw [hgiven]

/-- Outcomes that agree: both reject the filter, for whatever reason, or both accept it with
queries that ask the same. If an integer is too large for a position, both may fail at one. -/
inductive Agree (large : Prop) : Except Fault PositionQuery → Except Fault PositionQuery → Prop
  | rejected (fault fault' : FilterFault) :
    Agree large (.error (.filter fault)) (.error (.filter fault'))
  | tooLarge (h : large) :
    Agree large (.error (.value .intTooLarge)) (.error (.value .intTooLarge))
  | accepted {query other : PositionQuery} (h : query.Alike other) :
    Agree large (.ok query) (.ok other)

theorem Agree.bind {x y : Except Fault PositionQuery}
    {f g : PositionQuery → Except Fault PositionQuery} (h : Agree large x y)
    (hnext : ∀ query other, query.Alike other → Agree large (f query) (g other)) :
    Agree large (x >>= f) (y >>= g) := by
  cases h with
  | rejected fault fault' => exact .rejected fault fault'
  | tooLarge h => exact .tooLarge h
  | accepted h => exact hnext _ _ h

/-- Parts agree one after the other. -/
theorem Agree.withParts_cons {part part' : Filter} {rest rest' : List Filter}
    (hpart : Agree large (withPart m query part) (withPart m other part'))
    (hrest : ∀ query other, query.Alike other →
      Agree large (withParts m query rest) (withParts m other rest')) :
    Agree large (withParts m query (part :: rest)) (withParts m other (part' :: rest')) := by
  unfold withParts
  refine hpart.bind fun query other halike => ?_
  rw [halike.contradicts]
  split
  · exact .rejected _ _
  · exact hrest query other halike

/-! ### The parts of operators -/

theorem withPart_sets (hexact : query.exact = none) {values others : List Value}
    (hcovered : Covered values others) (hcovers : Covered others values)
    (hlarge : (∃ v ∈ values, v.toReal = .error .intTooLarge) → large) (raw raw' : Value) :
    Agree large (withPart m query (.valueSet raw values))
      (withPart m query (.valueSet raw' others)) := by
  unfold withPart
  dsimp only
  by_cases hnumbers : values.all isNumber = true
  · rw [if_pos hnumbers, if_pos (hcovers.all_isNumber hnumbers)]
    rcases positionsOf_covered hcovered hcovers hnumbers with ⟨htoo, herror, herror'⟩ |
      ⟨positions, positions', hok, hok', hin⟩
    · rw [herror, herror']
      exact .tooLarge (hlarge htoo)
    · rw [hok, hok']
      refine .accepted ⟨rfl, rfl, fun p => ?_⟩
      unfold narrow
      rw [hexact]
      exact hin p
  · rw [if_neg hnumbers, if_neg fun h => hnumbers (hcovered.all_isNumber h)]
    exact .rejected _ _

theorem Alike.atEnd (halike : query.Alike other) (bound : Option Value) (inclusive : Bool)
    (rangeEnd : RangeEnd) :
    (query.atEnd bound inclusive rangeEnd).Alike (other.atEnd bound inclusive rangeEnd) := by
  obtain ⟨hrest, hgiven, hasks⟩ := halike
  cases rangeEnd with
  | lower | upper => exact ⟨by rw [hrest]; rfl, hgiven, hasks⟩

theorem withBound_agrees (halike : query.Alike other) (rangeEnd : RangeEnd) {bound : Value}
    {inclusive : Bool} (hbound : bound.isNull = false → bound.isNumber = true ∧
      (bound.toReal = .error .intTooLarge → large)) :
    Agree large (liftValue (query.withBound rangeEnd bound inclusive))
      (liftValue (other.withBound rangeEnd bound inclusive)) := by
  unfold withBound
  cases hnull : bound.isNull with
  | true => exact .accepted halike
  | false =>
    obtain ⟨hnumber, hlarge⟩ := hbound hnull
    rcases toReal_cases hnumber with ⟨x, hx⟩ | htoo
    · rw [hx]
      exact .accepted (halike.atEnd _ inclusive rangeEnd)
    · rw [htoo]
      exact .tooLarge (hlarge htoo)

theorem withPart_range (halike : query.Alike other) {raw lower upper : Value}
    {lowerInclusive upperInclusive : Bool}
    (hlarge : ∀ bound ∈ [lower, upper], bound.isNull = false →
      bound.toReal = .error .intTooLarge → large) :
    Agree large (withPart m query (.range raw lower upper lowerInclusive upperInclusive))
      (withPart m other (.range raw lower upper lowerInclusive upperInclusive)) := by
  unfold withPart
  dsimp only
  cases hfault : boundFault? m [lower, upper] with
  | some fault => exact .rejected fault fault
  | none =>
    have hbound : ∀ bound ∈ [lower, upper], bound.isNull = false → bound.isNumber = true ∧
        (bound.toReal = .error .intTooLarge → large) := fun bound hmem hnull =>
      ⟨isNumber_of_boundFault?_eq_none hfault hmem hnull, hlarge bound hmem hnull⟩
    dsimp only
    rw [liftValue_bind, liftValue_bind]
    refine (withBound_agrees halike .lower (hbound lower (by simp))).bind
      fun query other halike => ?_
    exact withBound_agrees halike .upper (hbound upper (by simp))

theorem withPart_exist (halike : query.Alike other) (raw : Value) (present : Bool) :
    Agree large (withPart m query (.exist raw present)) (withPart m other (.exist raw present)) := by
  obtain ⟨hrest, hgiven, hasks⟩ := halike
  refine .accepted ⟨?_, hgiven, hasks⟩
  rw [hrest]

/-- Parts of their own: whether there has to be a motor, and operators that are not known. -/
def IsOwn (part : Filter) : Prop :=
  (∃ raw present, part = .exist raw present) ∨ ∃ raw name argument, part = .operator raw name argument

theorem IsOwn.isOfOperator {part : Filter} (h : IsOwn part) : part.IsOfOperator := by
  rcases h with ⟨raw, present, rfl⟩ | ⟨raw, name, argument, rfl⟩ <;> trivial

theorem withParts_own (halike : query.Alike other) (hparts : ∀ part ∈ parts, IsOwn part) :
    Agree large (withParts m query parts) (withParts m other parts) := by
  induction parts generalizing query other with
  | nil => exact .accepted halike
  | cons part rest ih =>
    obtain ⟨hpart, hrest⟩ := List.forall_mem_cons.mp hparts
    refine Agree.withParts_cons ?_ fun query other halike => ih halike hrest
    rcases hpart with ⟨raw, present, rfl⟩ | ⟨raw, name, argument, rfl⟩
    · exact withPart_exist halike raw present
    · exact .rejected _ _

/-- An operator that is not known is rejected, wherever it stands. -/
theorem withParts_operator (query : PositionQuery) (hparts : ∀ part ∈ parts, IsOwn part)
    {raw : Value} {name : Text} {argument : Value} (hmem : .operator raw name argument ∈ parts) :
    ∃ fault, withParts m query parts = .error (.filter fault) := by
  induction parts generalizing query with
  | nil => cases hmem
  | cons part rest ih =>
    obtain ⟨hpart, hrest⟩ := List.forall_mem_cons.mp hparts
    unfold withParts
    rcases hpart with ⟨raw, present, rfl⟩ | ⟨raw, name, argument, rfl⟩
    · have hmem := (List.mem_cons.mp hmem).resolve_left (fun hpart => by cases hpart)
      rw [withPart, Outcome.ok_bind]
      split
      · exact ⟨_, rfl⟩
      · exact ih _ hrest hmem
    · exact ⟨_, rfl⟩

/-! ### The query of operators -/

/-- The parts of the draft of some operators, with the range of its bounds. -/
def partsOfDraft (operators : Entries) (range : Option Filter) : List Filter :=
  ((Filter.draftOf operators).set? operators).toList ++ range.toList ++
    (Filter.draftOf operators).parts

theorem draftOf_parts_own {operators : Entries} :
    ∀ part ∈ (Filter.draftOf operators).parts, IsOwn part := by
  intro part hpart
  obtain ⟨e, -, he⟩ := List.mem_filterMap.mp hpart
  exact (Filter.partOf?_eq_some he).imp And.right id

end PositionQuery

open PositionQuery

section Operators

variable {operators permuted : Entries} {m : Text}

/-- What a mapping of operators for a motor compiles to. -/
theorem compileEntries_draftOf (h : operators.AreOperators) (m : Text) :
    compileEntries [(.text (MotorTerm.motorsStart ++ m), .map operators)] =
      match operators.findSome? (Filter.Draft.fault? (MotorTerm.motorsStart ++ m)) with
      | some fault => .error (.filter fault)
      | none =>
        match (Filter.draftOf operators).range? (MotorTerm.motorsStart ++ m) operators with
        | .error fault => .error (.filter fault)
        | .ok range =>
          if m.isEmpty then .error (.filter (.notMotors (MotorTerm.motorsStart ++ m)))
          else do
            let query ← withParts m { mnemonic := .text m } (partsOfDraft operators range)
            return [query] := by
  rw [compileEntries_key, h.ofValue_eq]
  have hadd := Filter.addAll_operators h (MotorTerm.motorsStart ++ m)
  cases hfault : operators.findSome? (Filter.Draft.fault? (MotorTerm.motorsStart ++ m)) with
  | some fault =>
    unfold Filter.ofOperators
    rw [hadd, hfault]
    rfl
  | none =>
    rw [hfault] at hadd
    dsimp only
    cases hrange : (Filter.draftOf operators).range? (MotorTerm.motorsStart ++ m) operators with
    | error fault =>
      unfold Filter.ofOperators
      rw [hadd, Outcome.ok_bind, hrange]
      rfl
    | ok range =>
      obtain ⟨filter, hfilter⟩ : ∃ filter,
          Filter.ofOperators (MotorTerm.motorsStart ++ m) operators = .ok filter := by
        unfold Filter.ofOperators
        rw [hadd, Outcome.ok_bind, hrange, Outcome.ok_bind]
        split <;> exact ⟨_, rfl⟩
      obtain ⟨draft, range', hdraft, hrange', hwhole⟩ := Filter.ofOperators_eq_ok hfilter
      obtain rfl := Except.ok.inj (hadd.symm.trans hdraft)
      obtain rfl := Except.ok.inj (hrange.symm.trans hrange')
      have hquery : withParts m { mnemonic := .text m } (partsOf filter) =
          withParts m { mnemonic := .text m } (partsOfDraft operators range) := by
        rcases hwhole with rfl | ⟨part, hone, rfl⟩
        · rfl
        · have hpart : part.IsOfOperator :=
            Filter.Draft.isOfOperator (fun part hpart => (draftOf_parts_own part hpart).isOfOperator)
              hrange part (by rw [hone]; exact List.mem_singleton_self part)
          rw [withParts_withRaw hpart, ← hone]
          rfl
      rw [hfilter, liftFilter, Outcome.ok_bind, hquery]

/-- The queries of the drafts of two orders agree, once both drafts are made. -/
theorem withParts_perm (h : operators.AreOperators) (hperm : operators.Perm permuted)
    (hsets : operators.SetsAgree) {path : Text} {range : Option Filter}
    (hfault : operators.findSome? (Filter.Draft.fault? path) = none)
    (hrange : (Filter.draftOf operators).range? path operators = .ok range) (m : Text) :
    Agree operators.HasTooLarge
      (withParts m { mnemonic := .text m } (partsOfDraft operators range))
      (withParts m { mnemonic := .text m } (partsOfDraft permuted range)) := by
  -- the parts of their own, after a set and a range
  have hown : ∀ query other : PositionQuery, query.Alike other →
      Agree operators.HasTooLarge (withParts m query (Filter.draftOf operators).parts)
        (withParts m other (Filter.draftOf permuted).parts) := by
    intro query other halike
    rcases Filter.parts_perm h hperm with hsame | ⟨raw, name, argument, hmem, hmem'⟩
    · rw [hsame]
      exact withParts_own halike draftOf_parts_own
    · obtain ⟨fault, hreject⟩ := withParts_operator (m := m) query draftOf_parts_own hmem
      obtain ⟨fault', hreject'⟩ := withParts_operator (m := m) other draftOf_parts_own hmem'
      rw [hreject, hreject']
      exact .rejected fault fault'
  have hranged : ∀ query other : PositionQuery, query.Alike other →
      Agree operators.HasTooLarge
        (withParts m query (range.toList ++ (Filter.draftOf operators).parts))
        (withParts m other (range.toList ++ (Filter.draftOf permuted).parts)) := by
    intro query other halike
    rcases Filter.Draft.range?_eq_ok hrange with ⟨-, rfl⟩ |
      ⟨raw, lower, upper, lowerInclusive, upperInclusive, rfl, hlower, hupper⟩
    · exact hown query other halike
    refine Agree.withParts_cons (withPart_range halike ?_) hown
    intro bound hbound hnull htoo
    rcases List.mem_pair.mp hbound with rfl | rfl
    · obtain ⟨e, he, hmem⟩ := Filter.mem_bounds hlower hnull
      exact ⟨e, he, bound, hmem, htoo⟩
    · obtain ⟨e, he, hmem⟩ := Filter.mem_bounds hupper hnull
      exact ⟨e, he, bound, hmem, htoo⟩
  unfold partsOfDraft Filter.Draft.set?
  rw [List.append_assoc, List.append_assoc]
  rcases Filter.exact_perm h hperm hsets hfault with ⟨hnone, hnone'⟩ |
    ⟨values, others, hvalues, hothers, hcovered, hcovers⟩
  · rw [hnone, hnone']
    exact hranged _ _ (.refl _)
  · rw [hvalues, hothers]
    refine Agree.withParts_cons (withPart_sets rfl hcovered hcovers ?_ _ _) hranged
    rintro ⟨v, hv, htoo⟩
    obtain ⟨e, he, hmem⟩ := Filter.mem_exact hvalues hv
    exact ⟨e, he, v, hmem, htoo⟩

/-- The order of the operators in a mapping for a motor does not matter, if its sets have no
number where the other has a boolean that is equal: both orders are rejected, or both are
accepted with queries that the same motors satisfy, or both fail at an integer that is too large
for a position. -/
theorem compileEntries_perm (h : operators.AreOperators) (hperm : operators.Perm permuted)
    (hsets : operators.SetsAgree) (m : Text) :
    (∃ fault fault',
      compileEntries [(.text (MotorTerm.motorsStart ++ m), .map operators)] =
        .error (.filter fault) ∧
      compileEntries [(.text (MotorTerm.motorsStart ++ m), .map permuted)] =
        .error (.filter fault')) ∨
    (∃ query query',
      compileEntries [(.text (MotorTerm.motorsStart ++ m), .map operators)] = .ok [query] ∧
      compileEntries [(.text (MotorTerm.motorsStart ++ m), .map permuted)] = .ok [query'] ∧
      ∀ motors, query'.isSatisfiedBy motors = query.isSatisfiedBy motors) ∨
    operators.HasTooLarge ∧
      compileEntries [(.text (MotorTerm.motorsStart ++ m), .map operators)] =
        .error (.value .intTooLarge) ∧
      compileEntries [(.text (MotorTerm.motorsStart ++ m), .map permuted)] =
        .error (.value .intTooLarge) := by
  have hfaults := Filter.findSome?_fault?_perm hperm (MotorTerm.motorsStart ++ m)
  have hranges := Filter.range?_perm h hperm (MotorTerm.motorsStart ++ m)
  rw [compileEntries_draftOf h, compileEntries_draftOf (h.perm hperm)]
  cases hfault : operators.findSome? (Filter.Draft.fault? (MotorTerm.motorsStart ++ m)) with
  | some fault =>
    rw [hfault] at hfaults
    obtain ⟨fault', hfault'⟩ := Option.isSome_iff_exists.mp hfaults
    rw [hfault']
    exact .inl ⟨fault, fault', rfl, rfl⟩
  | none =>
    rw [hfault] at hfaults
    rw [Option.not_isSome_iff_eq_none.mp (Bool.eq_false_iff.mp hfaults)]
    dsimp only
    rw [hranges]
    cases hrange : (Filter.draftOf operators).range? (MotorTerm.motorsStart ++ m) operators with
    | error fault => exact .inl ⟨fault, fault, rfl, rfl⟩
    | ok range =>
      dsimp only
      cases m.isEmpty with
      | true => exact .inl ⟨_, _, rfl, rfl⟩
      | false =>
        rw [if_neg Bool.false_ne_true, if_neg Bool.false_ne_true]
        have hagree := withParts_perm h hperm hsets hfault hrange m
        generalize withParts m { mnemonic := .text m } (partsOfDraft operators range) = first
          at hagree ⊢
        generalize withParts m { mnemonic := .text m } (partsOfDraft permuted range) = second
          at hagree ⊢
        cases hagree with
        | rejected fault fault' => exact .inl ⟨fault, fault', rfl, rfl⟩
        | tooLarge hlarge => exact .inr (.inr ⟨hlarge, rfl, rfl⟩)
        | accepted halike => exact .inr (.inl ⟨_, _, rfl, rfl, halike.isSatisfiedBy⟩)

/-- A number that is equal to an item of another kind, in both orders. -/
theorem compileEntries_perm_equalNumbers :
    ∃ query query' : PositionQuery,
      compileEntries [(.text (MotorTerm.motorsStart ++ "samx"),
        .map [("$eq", .float .zero), ("$in", .list [.int 0, .int 1])])] = .ok [query] ∧
      compileEntries [(.text (MotorTerm.motorsStart ++ "samx"),
        .map [("$in", .list [.int 0, .int 1]), ("$eq", .float .zero)])] = .ok [query'] ∧
      ∀ motors, query'.isSatisfiedBy motors = query.isSatisfiedBy motors := by
  have hoperators : Entries.AreOperators
      [("$eq", .float .zero), ("$in", .list [.int 0, .int 1])] :=
    { nonempty := List.cons_ne_nil _ _
      keys := by decide
      distinct := by unfold Entries.Distinct; decide }
  have hsets : Entries.SetsAgree [("$eq", .float .zero), ("$in", .list [.int 0, .int 1])] := by
    rintro v ⟨⟩ items ⟨⟩ w hw -
    rcases List.mem_pair.mp hw with rfl | rfl <;> rfl
  have haccepted : (compileEntries [(.text (MotorTerm.motorsStart ++ "samx"),
      .map [("$eq", .float .zero), ("$in", .list [.int 0, .int 1])])]).toOption.isSome = true := by
    decide +kernel
  rcases compileEntries_perm hoperators (List.Perm.swap _ _ []) hsets "samx" with
    ⟨fault, -, hrejected, -⟩ | hsame | ⟨-, herror, -⟩
  · rw [hrejected] at haccepted
    cases haccepted
  · exact hsame
  · rw [herror] at haccepted
    cases haccepted

/-- A boolean is kept where a number is equal to it, if it comes first: that order of the
operators is rejected, and the other is accepted. -/
theorem compileEntries_order_matters :
    compileEntries [(.text "motors.samx", .map [("$eq", .bool true), ("$in", .list [.int 1])])] =
        .error (.filter (.positionsNotNumbers "samx" [.bool true])) ∧
      compileEntries [(.text "motors.samx", .map [("$in", .list [.int 1]), ("$eq", .bool true)])] =
        .ok [{ mnemonic := .text "samx",
               exact := some [.float (.finite false 4607182418800017408 (by decide))] }] := by
  constructor <;> decide +kernel

end Operators

end ScanCatalog
