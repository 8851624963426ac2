import ScanCatalog.Proofs.Filter.AnyOrder
import ScanCatalog.Proofs.Motor.Evaluation

/-!
# Operators in both backends

A mapping of operators under the key of a motor becomes a position query, and documents are
asked the operators themselves. Both ask the same of the position of a motor, or of its
absence.

## Main definitions

* `PositionQuery.Side`: a bound, and whether it may be reached;
* `PositionQuery.SideAsks`: a side of a range that asks what a bound does;
* `PositionQuery.Admits`: what a query asks of a position, or of a missing motor;
* `Filter.IsOfOperator`: the parts that operators make.

## Main statements

* `compileEntries_mnemonic`: the query of the key of a motor;
* `PositionQuery.withParts_draft`: the query that the parts of a draft make;
* `compileEntries_operators`: the query agrees with the operators.
-/

namespace ScanCatalog

open Condition

/-! ### The key of a motor -/

theorem MotorTerm.ofTerm_mnemonic (m : Text) (filter : Filter) :
    ofTerm (motorsStart ++ m) filter =
      if m.isEmpty then .error (.notMotors (motorsStart ++ m)) else .ok [⟨m, some filter⟩] := by
  have hne : motorsStart ++ m ≠ motorsName := by
    intro heq
    have hlength := congrArg (fun t : Text => t.codes.length) heq
    rw [Text.codes_append, List.length_append] at hlength
    have hstart : motorsStart.codes.length = 7 := by decide
    have hname : motorsName.codes.length = 6 := by decide
    omega
  have hstarts : (motorsStart ++ m).startsWith motorsStart = true :=
    Text.startsWith_iff.mpr ⟨m, rfl⟩
  have hdrop : (motorsStart ++ m).drop motorsStart.length = m := by
    unfold Text.drop Text.length
    rw [Text.codes_append, List.drop_left]
  unfold ofTerm
  rw [if_neg hne, hstarts, hdrop, Bool.true_and]
  cases hm : m.codes with
  | nil =>
    have hempty : m.isEmpty = true := by rw [Text.isEmpty, hm]; rfl
    have hlength : ¬ motorsStart.length < (motorsStart ++ m).length := by
      unfold Text.length
      rw [Text.codes_append, hm, List.append_nil]
      exact Nat.lt_irrefl _
    rw [hempty, decide_eq_false hlength]
    rfl
  | cons c rest =>
    have hempty : m.isEmpty = false := by rw [Text.isEmpty, hm]; rfl
    have hlength : motorsStart.length < (motorsStart ++ m).length := by
      unfold Text.length
      rw [Text.codes_append, hm, List.length_append, List.length_cons]
      omega
    rw [hempty, decide_eq_true hlength]
    rfl

/-- A filter under the key of a motor is compiled part by part. -/
theorem compileTerms_key (m : Text) (filter : Filter) :
    compileTerms [(MotorTerm.motorsStart ++ m, filter)] =
      if m.isEmpty then .error (.filter (.notMotors (MotorTerm.motorsStart ++ m)))
      else do
        let query ← PositionQuery.withParts m { mnemonic := .text m } (PositionQuery.partsOf filter)
        return [query] := by
  unfold compileTerms motorTermsOf
  rw [MotorTerm.ofTerm_mnemonic]
  cases hempty : m.isEmpty with
  | true => rfl
  | false =>
    rw [if_neg Bool.false_ne_true, if_neg Bool.false_ne_true]
    change (List.mapM PositionQuery.ofMotorTerm [_] : Except Fault _) = _
    rw [List.mapM_cons]
    unfold PositionQuery.ofMotorTerm
    dsimp only
    rw [hempty, if_neg Bool.false_ne_true]
    rfl

/-- What is asked under the key of a motor is a filter with its parts. -/
theorem compileEntries_key (m : Text) (value : Value) :
    compileEntries [(.text (MotorTerm.motorsStart ++ m), value)] = (do
      let filter ← liftFilter (Filter.ofValue (.text (MotorTerm.motorsStart ++ m)) value)
      if m.isEmpty then .error (.filter (.notMotors (MotorTerm.motorsStart ++ m)))
      else
        let query ← PositionQuery.withParts m { mnemonic := .text m } (PositionQuery.partsOf filter)
        return [query]) := by
  unfold compileEntries motorTermsOfEntries
  cases Filter.ofValue (.text (MotorTerm.motorsStart ++ m)) value with
  | error fault => rfl
  | ok filter =>
    rw [liftFilter, Outcome.ok_bind, Outcome.ok_bind, ← compileTerms_key]
    rfl

/-- What is asked under the key of a motor makes one query. -/
theorem compileEntries_mnemonic {m : Text} {value : Value} {queries : List PositionQuery}
    (h : compileEntries [(.text (MotorTerm.motorsStart ++ m), value)] = .ok queries) :
    ∃ filter query, Filter.ofValue (.text (MotorTerm.motorsStart ++ m)) value = .ok filter ∧
      PositionQuery.withParts m { mnemonic := .text m } (PositionQuery.partsOf filter) =
        .ok query ∧ queries = [query] := by
  rw [compileEntries_key] at h
  obtain ⟨filter, hfilter, h⟩ := Outcome.bind_eq_ok.mp h
  split at h
  · cases h
  obtain ⟨query, hquery, h⟩ := Outcome.bind_eq_ok.mp h
  cases h
  exact ⟨filter, query, liftFilter_eq_ok.mp hfilter, hquery, rfl⟩

namespace PositionQuery

variable {m : Text} {query query' : PositionQuery}

/-! ### The parts of a draft -/

theorem withParts_append (m : Text) (query : PositionQuery) (parts rest : List Filter) :
    withParts m query (parts ++ rest) =
      (withParts m query parts >>= fun query => withParts m query rest) := by
  induction parts generalizing query with
  | nil => rfl
  | cons part parts ih =>
    simp only [List.cons_append, withParts]
    cases withPart m query part with
    | error fault => rfl
    | ok next =>
      rw [Outcome.ok_bind, Outcome.ok_bind]
      split
      · rfl
      · exact ih next

/-- One part alone: the query with it, unless that asks for an absent motor at a position. -/
theorem withParts_singleton_eq_ok {part : Filter} :
    withParts m query [part] = .ok query' ↔ withPart m query part = .ok query' ∧
      (query'.present = false → query'.constrainsPosition = false) := by
  unfold withParts
  rw [Outcome.bind_eq_ok]
  constructor
  · rintro ⟨next, hnext, h⟩
    split at h
    · cases h
    · next hcontradiction =>
      cases h
      exact ⟨hnext, fun hpresent => by simpa [hpresent] using hcontradiction⟩
  · rintro ⟨hnext, habsent⟩
    refine ⟨query', hnext, ?_⟩
    rw [if_neg]
    · rfl
    · simpa using habsent

/-- The set of a draft as that of a query. -/
theorem withParts_set {raw : Entries} {draft : Filter.Draft} (hs : draft.Sound)
    (hexact : query.exact = none)
    (h : withParts m query (draft.set? raw).toList = .ok query') :
    ∃ exact, query' = { query with exact } ∧ (exact = none → draft.exact = none) ∧
      ∀ x : Binary64, (∀ values ∈ exact, ∃ v ∈ values, (Value.float x).same v = true) ↔
        ∀ values ∈ draft.exact, (Value.float x).isIn values = true := by
  unfold Filter.Draft.set? at h
  cases hset : draft.exact with
  | none =>
    rw [hset] at h
    cases h
    exact ⟨query.exact, rfl, fun _ => rfl, fun x => by rw [hexact]; exact ⟨nofun, nofun⟩⟩
  | some values =>
    rw [hset] at h
    obtain ⟨hpart, -⟩ := withParts_singleton_eq_ok.mp h
    unfold withPart at hpart
    dsimp only at hpart
    split at hpart
    · next hnumbers =>
      obtain ⟨positions, hpositions, hpart⟩ := Outcome.bind_eq_ok.mp hpart
      cases hpart
      have hvalues : ∀ v ∈ values, v.IsExact ∧ v.isNumber = true := fun v hv =>
        ⟨hs.exact values hset v hv, List.all_eq_true.mp hnumbers v hv⟩
      refine ⟨some positions, ?_, nofun, fun x => ?_⟩
      · unfold narrow
        rw [hexact]
        rfl
      · have hsame := Value.isIn_positionsOf hvalues (liftValue_eq_ok.mp hpositions) x
        simp only [Option.mem_some_iff, forall_eq']
        rw [← hsame]
        exact List.any_eq_true.symm
    · cases hpart

/-- What a query asks on one side of a position: a bound, if any, and whether a position may
be at it. -/
structure Side where
  bound : Option Value := none
  inclusive : Bool := false
deriving DecidableEq

/-- What a query asks of positions from below. -/
def lower (query : PositionQuery) : Side := ⟨query.minimum, query.minInclusive⟩

/-- What a query asks of positions from above. -/
def upper (query : PositionQuery) : Side := ⟨query.maximum, query.maxInclusive⟩

/-- What a query asks of positions from an end of its range. -/
def side (query : PositionQuery) : RangeEnd → Side
  | .lower => query.lower
  | .upper => query.upper

/-- The side that is there in its own place changes nothing. -/
theorem atEnd_side (query : PositionQuery) (rangeEnd : RangeEnd) :
    query.atEnd (query.side rangeEnd).bound (query.side rangeEnd).inclusive rangeEnd = query := by
  cases rangeEnd <;> rfl

/-- A side of the range of a query asks of a number what a bound does. -/
structure SideAsks (side : Option Value) (sideComparison : Comparison) (bound : Value)
    (comparison : Comparison) : Prop where
  given : side = none → bound.isNull = true
  real : side ≠ some (.float .nan)
  asks : ∀ x : Binary64, (∀ b ∈ side, (Value.float x).compare sideComparison b = .ok true) ↔
    (bound.isNull = false → (Value.float x).compare comparison bound = .ok true)

theorem SideAsks.none {bound : Value} (hnull : bound.isNull = true) (c c' : Comparison) :
    SideAsks none c bound c' where
  given _ := hnull
  real := nofun
  asks x := by
    rw [hnull]
    exact ⟨fun _ => nofun, fun _ => nofun⟩

/-- A number that is given as a bound compares as the binary64 number of the query. -/
theorem SideAsks.toReal {bound : Value} {y : Binary64} (hnull : bound.isNull = false)
    (hexact : bound.IsExact) (hnumber : bound.isNumber = true) (h : bound.toReal = .ok y)
    (c : Comparison) : SideAsks (some (.float y)) c bound c where
  given := nofun
  real := by
    rintro ⟨⟩
    cases (Value.quantity_of_toReal hexact hnumber h).2
  asks x := by
    rw [imp_iff_right hnull, Value.compare_toReal hexact hnumber h]
    simp only [Option.mem_some_iff, forall_eq']

/-- A bound that is compiled for an end of a range without one asks what the bound does. -/
theorem withBound_eq_ok (query : PositionQuery) (rangeEnd : RangeEnd) {query' : PositionQuery}
    {bound : Value} {inclusive : Bool} (hnone : (query.side rangeEnd).bound = none)
    (hbound : bound.isNull = false → bound.IsExact ∧ bound.isNumber = true)
    (h : query.withBound rangeEnd bound inclusive = .ok query') :
    ∃ side : Side, query' = query.atEnd side.bound side.inclusive rangeEnd ∧
      SideAsks side.bound (rangeEnd.comparison side.inclusive) bound
        (rangeEnd.comparison inclusive) := by
  unfold withBound at h
  split at h
  · next hnull =>
    cases h
    exact ⟨query.side rangeEnd, (query.atEnd_side rangeEnd).symm,
      hnone ▸ SideAsks.none hnull _ _⟩
  · next hnull =>
    have hnull := Bool.eq_false_iff.mpr hnull
    obtain ⟨y, hy, h⟩ := Outcome.bind_eq_ok.mp h
    cases h
    exact ⟨⟨_, inclusive⟩, rfl, SideAsks.toReal hnull (hbound hnull).1 (hbound hnull).2 hy _⟩

/-- Bounds without a fault are numbers, as far as they are given. -/
theorem isNumber_of_boundFault?_eq_none {lower upper bound : Value}
    (h : boundFault? m [lower, upper] = none) (hmem : bound ∈ [lower, upper])
    (hnull : bound.isNull = false) : bound.isNumber = true := by
  have hfault := List.find?_eq_none.mp (Option.map_eq_none_iff.mp h) bound hmem
  simpa [hnull] using hfault

/-- The bounds of a draft as those of a query. -/
theorem withParts_range (query : PositionQuery) {query' : PositionQuery} {path : Text}
    {raw : Entries} {draft : Filter.Draft} (hs : draft.Sound) (hminimum : query.minimum = none)
    (hmaximum : query.maximum = none) {range : Option Filter}
    (hrange : draft.range? path raw = .ok range)
    (h : withParts m query range.toList = .ok query') :
    ∃ minimum maximum minInclusive maxInclusive,
      query' = { query with minimum, maximum, minInclusive, maxInclusive } ∧
      (minimum = none → maximum = none → draft.bounds = []) ∧
      minimum ≠ some (.float .nan) ∧ maximum ≠ some (.float .nan) ∧ ∀ x : Binary64,
        ((∀ b ∈ minimum,
            (Value.float x).compare (if minInclusive then .atLeast else .greater) b = .ok true) ∧
          ∀ b ∈ maximum,
            (Value.float x).compare (if maxInclusive then .atMost else .less) b = .ok true) ↔
        ∀ e ∈ draft.bounds, operatorHolds (some (.float x)) e.1.display e.2 = .ok true := by
  rcases Filter.Draft.range?_eq_ok hrange with ⟨hempty, rfl⟩ |
    ⟨asked, lower, upper, lowerInclusive, upperInclusive, rfl, hlower, hupper⟩
  · cases h
    refine ⟨query.minimum, query.maximum, query.minInclusive, query.maxInclusive, rfl,
      fun _ _ => hempty, by simp [hminimum], by simp [hmaximum], fun x => ?_⟩
    simp [hminimum, hmaximum, hempty]
  · obtain ⟨hpart, -⟩ := withParts_singleton_eq_ok.mp h
    unfold withPart at hpart
    dsimp only at hpart
    split at hpart
    · cases hpart
    next hfault =>
    obtain ⟨lowered, hlowered, hraised⟩ := Outcome.bind_eq_ok.mp (liftValue_eq_ok.mp hpart)
    obtain ⟨⟨minimum, minInclusive⟩, rfl, hlowerAsks⟩ :=
      query.withBound_eq_ok .lower hminimum (fun hnull => ⟨hlower.isExact hs hnull,
        isNumber_of_boundFault?_eq_none hfault List.mem_cons_self hnull⟩) hlowered
    obtain ⟨⟨maximum, maxInclusive⟩, rfl, hupperAsks⟩ :=
      (query.atEnd minimum minInclusive .lower).withBound_eq_ok .upper hmaximum
        (fun hnull => ⟨hupper.isExact hs hnull, isNumber_of_boundFault?_eq_none hfault
          (List.mem_cons_of_mem _ List.mem_cons_self) hnull⟩) hraised
    refine ⟨minimum, maximum, minInclusive, maxInclusive, rfl, fun hmin hmax => ?_,
      hlowerAsks.real, hupperAsks.real, fun x => ?_⟩
    · exact Filter.Draft.bounds_eq_nil hs hlower hupper (hlowerAsks.given hmin)
        (hupperAsks.given hmax)
    · rw [Filter.Draft.bounds_hold_iff hs hlower hupper]
      exact and_congr (hlowerAsks.asks x) (hupperAsks.asks x)

/-! ### The query of a draft -/

/-- What a query asks of the position of its motor, or of its absence. -/
def Admits (query : PositionQuery) : Option Value → Prop
  | none => query.present = false
  | some position => query.present = true ∧ query.Allows position

/-- The one part of a draft, if any, says whether there has to be a motor. -/
theorem withParts_presence {parts : List Filter} {present : Bool}
    (hparts : parts = [] ∧ present = true ∨ ∃ raw, parts = [.exist raw present])
    (hpresent : query.present = true) (h : withParts m query parts = .ok query') :
    query' = { query with present } ∧ (present = false → query'.constrainsPosition = false) := by
  rcases hparts with ⟨rfl, rfl⟩ | ⟨raw, rfl⟩
  · cases h
    refine ⟨?_, nofun⟩
    rw [← hpresent]
  · obtain ⟨hpart, habsent⟩ := withParts_singleton_eq_ok.mp h
    cases hpart
    exact ⟨rfl, habsent⟩

/-- The query that the parts of a draft make asks what the draft does. -/
theorem withParts_draft {path : Text} {raw : Entries} {draft : Filter.Draft} (hs : draft.Sound)
    (hasks : ¬ draft.IsBlank) {range : Option Filter}
    (hrange : draft.range? path raw = .ok range)
    (h : withParts m { mnemonic := .text m }
      ((draft.set? raw).toList ++ range.toList ++ draft.parts) = .ok query) :
    ¬ query.HasNanBound ∧ ∀ v : Option Value, (∀ w ∈ v, w.IsReal) →
      (query.Admits v ↔ draft.Admits v) := by
  rw [withParts_append, withParts_append] at h
  obtain ⟨_, h, hparts⟩ := Outcome.bind_eq_ok.mp h
  obtain ⟨_, hset, hbounds⟩ := Outcome.bind_eq_ok.mp h
  obtain ⟨exact, rfl, hnoSet, hsetIff⟩ := withParts_set hs rfl hset
  obtain ⟨minimum, maximum, minInclusive, maxInclusive, rfl, hnoBounds, hminNan, hmaxNan,
    hboundsIff⟩ := withParts_range { mnemonic := .text m, exact } hs rfl rfl hrange hbounds
  obtain ⟨present, hpresence, habsentIff, hpresentIff⟩ := hs.presence hasks
  obtain ⟨rfl, hunconstrained⟩ := withParts_presence hpresence rfl hparts
  refine ⟨fun hnan => hnan.elim hminNan hmaxNan, fun v hv => ?_⟩
  cases v with
  | none =>
    rw [habsentIff]
    refine ⟨fun hpresent => ⟨hpresent, ?_⟩, fun h => h.1⟩
    obtain ⟨hexact, hmin, hmax⟩ := constrainsPosition_eq_false.mp (hunconstrained hpresent)
    exact ⟨hnoSet hexact, hnoBounds hmin hmax⟩
  | some w =>
    obtain ⟨x, rfl⟩ := hv w rfl
    rw [hpresentIff]
    exact and_congr_right fun _ => and_congr (hsetIff x) (hboundsIff x)

/-- Asking the motors of a record for a query is asking for the position of its motor. -/
theorem isSatisfiedBy_iff_admits (hquery : query.Compiled) (hmnemonic : query.mnemonic = .text m)
    (hnan : ¬ query.HasNanBound) {ps : Positions} (hps : ∀ p ∈ ps, p.2.isFinite = true) :
    ∃ satisfied, query.isSatisfiedBy ps.toEntries = .ok satisfied ∧
      (satisfied = true ↔ query.Admits (ps.toEntries.get? (.text m))) := by
  have hhashable : (Value.text m).isHashable = true := rfl
  unfold isSatisfiedBy
  rw [hmnemonic, if_pos hhashable, get?_toEntries]
  cases hfind : ps.find? fun p => p.1 = m with
  | none =>
    refine ⟨!query.present, rfl, ?_⟩
    rw [Bool.not_eq_true']
    rfl
  | some p =>
    change ∃ satisfied, (if query.present then query.accepts (.float p.2) else .ok false) =
      .ok satisfied ∧ (satisfied = true ↔ query.present = true ∧ query.Allows (.float p.2))
    obtain ⟨accepted, haccepted, hallows⟩ :=
      accepts_float hquery (hps p (List.mem_of_find?_eq_some hfind))
    rw [haccepted, hallows]
    cases query.present with
    | true => exact ⟨accepted, rfl, by simp [hnan]⟩
    | false => exact ⟨false, rfl, by simp⟩

end PositionQuery

/-! ### Mappings of operators -/

namespace Entries.AreMotorOperators

variable {operators : Entries}

theorem isOperatorKey (h : operators.AreMotorOperators) :
    ∀ e ∈ operators, Filter.isOperatorKey e.1 = true := by
  intro e he
  obtain ⟨name, hname, hkey⟩ := h.names e he
  have hall : ∀ name ∈ Filter.operatorNames, Filter.isOperatorKey (.text name) = true := by decide
  rw [hkey]
  exact hall name hname

theorem toOperators (h : operators.AreMotorOperators) (hne : operators ≠ []) :
    operators.AreOperators := ⟨hne, h.isOperatorKey, h.distinct⟩

theorem holds_eq (h : operators.AreMotorOperators) (hne : operators ≠ []) (v : Option Value) :
    Condition.holds v (.map operators) = operatorsHold v operators := by
  have hoperators : areOperators operators = .ok true := by
    have hkeys := h.isOperatorKey
    have hnames := h.names
    clear hne h
    induction operators with
    | nil => rfl
    | cons e rest ih =>
      obtain ⟨key, argument⟩ := e
      obtain ⟨⟨name, -, hkey⟩, hrestNames⟩ := List.forall_mem_cons.mp hnames
      obtain ⟨hfirst, hrestKeys⟩ := List.forall_mem_cons.mp hkeys
      cases hkey
      have hstarts : name.startsWith "$" = true := hfirst
      unfold areOperators
      rw [if_pos hstarts, ih hrestKeys hrestNames]
  cases operators with
  | nil => exact absurd rfl hne
  | cons e rest =>
    unfold Condition.holds
    dsimp only
    rw [hoperators]
    rfl

end Entries.AreMotorOperators

/-- A filter of operators has the parts of its draft. -/
theorem Filter.ofOperators_eq_ok {path : Text} {raw : Entries} {filter : Filter}
    (h : ofOperators path raw = .ok filter) :
    ∃ draft range, Draft.addAll path {} raw = .ok draft ∧ draft.range? path raw = .ok range ∧
      (filter = .compound (.map raw)
          ((draft.set? raw).toList ++ range.toList ++ draft.parts) ∨
        ∃ part, (draft.set? raw).toList ++ range.toList ++ draft.parts = [part] ∧
          filter = part.withRaw (.map raw)) := by
  obtain ⟨draft, hdraft, h⟩ := Outcome.bind_eq_ok.mp h
  obtain ⟨range, hrange, h⟩ := Outcome.bind_eq_ok.mp h
  refine ⟨draft, range, hdraft, hrange, ?_⟩
  split at h
  · next part hpart => exact .inr ⟨part, hpart, (Except.ok.inj h).symm⟩
  · exact .inl (Except.ok.inj h).symm

/-- The parts that operators make: a set, a range, whether there is a value, and an operator
that only documents know. -/
def Filter.IsOfOperator : Filter → Prop
  | .valueSet .. | .range .. | .exist .. | .operator .. => True
  | _ => False

namespace Filter.Draft

theorem Sound.isOfOperator {draft : Draft} (hs : draft.Sound) :
    ∀ part ∈ draft.parts, part.IsOfOperator := by
  rcases hs.parts with hempty | ⟨asked, present, hone⟩
  · rw [hempty]
    exact nofun
  · rw [hone]
    exact List.forall_mem_singleton.mpr trivial

theorem isOfOperator {draft : Draft} (hparts : ∀ part ∈ draft.parts, part.IsOfOperator)
    {path : Text} {raw : Entries} {range : Option Filter}
    (hrange : draft.range? path raw = .ok range) :
    ∀ part ∈ (draft.set? raw).toList ++ range.toList ++ draft.parts, part.IsOfOperator := by
  intro part hpart
  rcases List.mem_append.mp hpart with hpart | hpart
  · rcases List.mem_append.mp hpart with hpart | hpart
    · obtain ⟨values, -, rfl⟩ := Option.map_eq_some_iff.mp (Option.mem_toList.mp hpart)
      trivial
    · rcases range?_eq_ok hrange with ⟨-, rfl⟩ | ⟨_, _, _, _, _, rfl, -, -⟩
      · cases hpart
      · rw [Option.toList_some, List.mem_singleton] at hpart
        rw [hpart]
        trivial
  · exact hparts part hpart

end Filter.Draft

/-- A part that stands for the whole mapping asks what it asks alone. -/
theorem PositionQuery.withParts_withRaw {part : Filter} (hpart : part.IsOfOperator) (m : Text)
    (query : PositionQuery) (raw : Value) :
    withParts m query (partsOf (part.withRaw raw)) = withParts m query [part] := by
  cases part <;> first | rfl | cases hpart

/-- The query of a mapping of operators for a motor agrees with the operators: it is satisfied
by the motors of a record just if they hold of the position of the motor, or of there being
none. -/
theorem compileEntries_operators {m : Text} {operators : Entries}
    (hoperators : operators.AreMotorOperators) {queries : List PositionQuery}
    (h : compileEntries [(.text (MotorTerm.motorsStart ++ m), .map operators)] = .ok queries)
    {ps : Positions} (hps : ∀ p ∈ ps, p.2.isFinite = true) :
    ∃ query holds, queries = [query] ∧ query.isSatisfiedBy ps.toEntries = .ok holds ∧
      Condition.holds (ps.toEntries.get? (.text m)) (.map operators) = .ok holds := by
  have hcompiled := compileEntries_compiled h
  obtain ⟨filter, query, hfilter, hquery, rfl⟩ := compileEntries_mnemonic h
  have hreal := ((PositionQuery.real_ofMnemonic m).withParts nofun hquery).1
  -- an empty mapping is a value of its own, and no position is equal to it
  by_cases hne : operators = []
  · rw [hne] at hfilter
    cases hfilter
    cases hquery
  rw [(hoperators.toOperators hne).ofValue_eq] at hfilter
  obtain ⟨draft, range, hdraft, hrange, hparts⟩ := Filter.ofOperators_eq_ok hfilter
  have hfree : ∀ e ∈ operators, ∀ name, e.1 = .text name → Filter.Draft.Free {} name :=
    fun _ _ _ _ => ⟨rfl, fun _ => rfl⟩
  obtain ⟨hsound, hasks, hadmits⟩ :=
    Filter.Draft.addAll_admits hoperators Filter.Draft.sound_blank hfree hdraft
  have hquery : PositionQuery.withParts m { mnemonic := .text m }
      ((draft.set? operators).toList ++ range.toList ++ draft.parts) = .ok query := by
    rcases hparts with rfl | ⟨part, hone, rfl⟩
    · exact hquery
    · have hmem : part ∈ (draft.set? operators).toList ++ range.toList ++ draft.parts := by
        rw [hone]
        exact List.mem_cons_self
      have hpart := Filter.Draft.isOfOperator hsound.isOfOperator hrange part hmem
      rwa [PositionQuery.withParts_withRaw hpart, ← hone] at hquery
  obtain ⟨hnan, hagrees⟩ :=
    PositionQuery.withParts_draft hsound (hasks (.inl hne)) hrange hquery
  obtain ⟨satisfied, hsatisfied, hiff⟩ := PositionQuery.isSatisfiedBy_iff_admits
    (hcompiled query List.mem_cons_self) hreal.mnemonic hnan hps
  have hv : ∀ w ∈ ps.toEntries.get? (.text m), w.IsReal := by
    intro w hw
    rw [PositionQuery.get?_toEntries] at hw
    obtain ⟨p, -, rfl⟩ := Option.map_eq_some_iff.mp hw
    exact ⟨p.2, rfl⟩
  obtain ⟨holds, hholds, hdraftIff⟩ := hadmits _ hv
  refine ⟨query, satisfied, rfl, hsatisfied, ?_⟩
  rw [hoperators.holds_eq hne, hholds]
  refine congrArg _ (Bool.eq_iff_iff.mpr ?_)
  have hblank : Filter.Draft.Admits {} (ps.toEntries.get? (.text m)) := ⟨nofun, nofun, nofun⟩
  rw [hiff, hagrees _ hv, hdraftIff, and_iff_right hblank]

/-- A motor at zero, asked for a set and for a bound. -/
theorem compileEntries_operators_zero :
    ∃ query holds,
      [({ mnemonic := .text "b"
          exact := some [.float (.finite false 4607182418800017408 (by decide)), .float .zero]
          minimum := some (.float .zero), minInclusive := true } : PositionQuery)] = [query] ∧
      query.isSatisfiedBy (Positions.toEntries [("b", .zero)]) = .ok holds ∧
      Condition.holds (Entries.get? (Positions.toEntries [("b", .zero)]) (.text "b"))
        (.map [(.text "$gte", .int 0), (.text "$in", .list [.int 1, .float .zero])]) =
          .ok holds := by
  have hoperators : Entries.AreMotorOperators
      [(.text "$gte", .int 0), (.text "$in", .list [.int 1, .float .zero])] :=
    { names := List.forall_mem_cons.mpr ⟨⟨"$gte", by decide, rfl⟩,
        List.forall_mem_singleton.mpr ⟨"$in", by decide, rfl⟩⟩
      distinct := by unfold Entries.Distinct; decide
      exact := by decide }
  exact compileEntries_operators hoperators (by decide +kernel) (by decide)

end ScanCatalog
