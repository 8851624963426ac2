import ScanCatalog.Proofs.Motor.Operators

/-!
# Compound filters

Several parts of a filter for one motor have to hold together. What the parts ask is gathered in
one query: a position has to be in all sets, but on each side only the last bound is kept, and
only the last part that says so decides whether the motor has to be there. The query is
satisfied wherever those of all parts are, and only there if no part is stricter than what is
kept.

## Main definitions

* `PositionQuery.Gathers`: the query of several parts by the queries of each;
* `PositionQuery.LooserThan`: a query whose bounds exclude no more than those of another;
* `SatisfyEach`: motors that satisfy the queries of all parts.

## Main statements

* `PositionQuery.withParts_gathers`: the parts are gathered;
* `compileTerms_compound`: the query of a compound filter and the queries of its parts.
-/

namespace ScanCatalog

namespace PositionQuery

/-! ### Sides -/

namespace Side

/-- The later side in the place of the earlier one, if it has a bound. -/
def overlaid (earlier later : Side) : Side := if later.bound.isSome then later else earlier

/-- A position keeps to a side. -/
def Keeps (beyond : Comparison) (side : Side) (position : Value) : Prop :=
  keepsTo beyond side.inclusive side.bound position = .ok true

/-- A side whose bound, if it is a number, lies beyond that of another side or at it, and
excludes no position at it that the other does not. -/
def LooserThan (beyond : Comparison) (side other : Side) : Prop :=
  ∀ b ∈ side.bound, b = .float .nan ∨ ∃ c ∈ other.bound,
    b.compare beyond c = .ok true ∨
      b.same c = true ∧ (side.inclusive = true ∨ other.inclusive = false)

/-- The side that a bound of a range asks for; null is no bound. -/
def ofBound (bound : Value) (inclusive : Bool) : Except ValueFault Side :=
  if bound.isNull then .ok {}
  else do return ⟨some (.float (← bound.toReal)), inclusive⟩

variable {beyond : Comparison} {side other : Side} {position : Value} {a : Quantity}

theorem overlaid_none_overlaid (earlier later : Side) :
    earlier.overlaid (Side.overlaid {} later) = earlier.overlaid later := by
  unfold overlaid
  cases hbound : later.bound with
  | none => rfl
  | some b =>
    rw [Option.isSome_some, if_pos rfl, if_pos rfl, hbound]
    rfl

/-- Keeping to a bound is decided by what the position amounts to. -/
theorem keepsTo_number (hp : position.quantity? = some a) (inclusive : Bool) (bound : Binary64) :
    keepsTo beyond inclusive (some (.float bound)) position =
      .ok (!beyond.ofQuantities a bound.quantity && (inclusive || !a.same bound.quantity)) := by
  have hcompare : position.compare beyond (.float bound) =
      .ok (beyond.ofQuantities a bound.quantity) := by
    have hatoms : position.compare beyond (.float bound) =
        Value.compareAtoms beyond position (.float bound) := by
      cases position <;> rfl
    rw [hatoms]
    unfold Value.compareAtoms
    rw [hp]
    rfl
  unfold keepsTo
  dsimp only
  rw [hcompare, Outcome.ok_bind, Value.number_same hp]
  cases beyond.ofQuantities a bound.quantity <;> rfl

theorem exists_kept (side : Side) (hreal : ∀ b ∈ side.bound, b.IsReal)
    (hp : position.quantity? = some a) :
    ∃ kept, keepsTo beyond side.inclusive side.bound position = .ok kept := by
  cases hbound : side.bound with
  | none => exact ⟨true, rfl⟩
  | some b =>
    obtain ⟨x, rfl⟩ := hreal b hbound
    exact ⟨_, keepsTo_number hp _ x⟩

/-- What keeps to a side keeps to the looser ones. -/
theorem Keeps.of_looserThan (htrans : ∀ a b c : Quantity, beyond.ofQuantities a b = true →
      beyond.ofQuantities b c = true → beyond.ofQuantities a c = true)
    (hreal : ∀ b ∈ side.bound, b.IsReal) (hotherReal : ∀ b ∈ other.bound, b.IsReal)
    (hp : position.quantity? = some a) (hlooser : side.LooserThan beyond other)
    (hkeeps : other.Keeps beyond position) : side.Keeps beyond position := by
  unfold Keeps at hkeeps ⊢
  cases hbound : side.bound with
  | none => rfl
  | some b =>
    obtain ⟨x, rfl⟩ := hreal b hbound
    rw [keepsTo_number hp]
    rcases hlooser _ hbound with hnan | ⟨c, hc, hwider⟩
    · -- what is not a number is not passed and not reached
      cases hnan
      have hnever : beyond.ofQuantities a Binary64.nan.quantity = false :=
        Comparison.ofQuantities_nan beyond a
      have hdiffers : a.same Binary64.nan.quantity = false := by cases a <;> rfl
      rw [hnever, hdiffers, Bool.not_false, Bool.or_true]
      rfl
    · obtain ⟨y, rfl⟩ := hotherReal c hc
      rw [hc, keepsTo_number hp, Except.ok.injEq, Bool.and_eq_true, Bool.not_eq_true'] at hkeeps
      obtain ⟨hnotBeyond, hreached⟩ := hkeeps
      rw [Value.compare_floats, Except.ok.injEq, Value.same_float, Binary64.same] at hwider
      -- beyond the looser bound, or at it, is beyond the other one
      have hstrictly : beyond.ofQuantities x.quantity y.quantity = true →
          beyond.ofQuantities a x.quantity = false ∧ a.same x.quantity = false := by
        intro hwider
        constructor
        · refine Bool.eq_false_iff.mpr fun hpast => ?_
          rw [htrans _ _ _ hpast hwider] at hnotBeyond
          cases hnotBeyond
        · refine Bool.eq_false_iff.mpr fun hat => ?_
          rw [(Quantity.same_iff.mp hat).1, hwider] at hnotBeyond
          cases hnotBeyond
      rcases hwider with hwider | ⟨hat, hinclusive⟩
      · obtain ⟨hnotPast, hnotAt⟩ := hstrictly hwider
        rw [hnotPast, hnotAt, Bool.not_false, Bool.or_true]
        rfl
      · rw [(Quantity.same_iff.mp hat).1, hnotBeyond]
        rcases hinclusive with hinclusive | hinclusive
        · rw [hinclusive]
          rfl
        · rw [hinclusive, Bool.false_or] at hreached
          rw [hreached, Bool.or_true]
          rfl

end Side

/-! ### Parts -/

/-- Whether a position is in the set of a query, if it has one. -/
def HasInSet (query : PositionQuery) (position : Value) : Bool :=
  query.exact.all fun values => position.isIn values

/-- Whether a motor has to be there after a part, if it did or did not before. -/
def presentAfter (present : Bool) : Filter → Bool
  | .exist _ present => present
  | _ => present

/-- A query that has gathered what some parts ask, given the queries that each part makes alone.
A position is in the sets of all, but of the bounds on each side the last one stands alone. -/
structure Gathers (query start : PositionQuery) (parts : List Filter)
    (alone : List PositionQuery) : Prop where
  mnemonic : query.mnemonic = start.mnemonic
  lower : query.lower = (alone.map lower).foldl Side.overlaid start.lower
  upper : query.upper = (alone.map upper).foldl Side.overlaid start.upper
  present : query.present = parts.foldl presentAfter start.present
  inSet : ∀ {position : Value} {a : Quantity}, position.quantity? = some a →
    (query.HasInSet position = true ↔
      start.HasInSet position = true ∧ ∀ q ∈ alone, q.HasInSet position = true)

variable {m : Text} {query query' next alone : PositionQuery} {part : Filter}
  {parts : List Filter} {queries : List PositionQuery}

theorem Gathers.refl : query.Gathers query [] [] where
  mnemonic := rfl
  lower := rfl
  upper := rfl
  present := rfl
  inSet _ := by simp

theorem Gathers.trans (hfirst : next.Gathers query [part] [alone])
    (hrest : query'.Gathers next parts queries) :
    query'.Gathers query (part :: parts) (alone :: queries) where
  mnemonic := hrest.mnemonic.trans hfirst.mnemonic
  lower := by rw [hrest.lower, hfirst.lower]; rfl
  upper := by rw [hrest.upper, hfirst.upper]; rfl
  present := by rw [hrest.present, hfirst.present]; rfl
  inSet hp := by
    rw [hrest.inSet hp, hfirst.inSet hp, List.forall_mem_singleton, List.forall_mem_cons, and_assoc]

/-- A bound is laid over the side of the query at its end. -/
theorem withBound_eq (query : PositionQuery) (rangeEnd : RangeEnd) (bound : Value)
    (inclusive : Bool) :
    query.withBound rangeEnd bound inclusive = (do
      let side := (query.side rangeEnd).overlaid (← Side.ofBound bound inclusive)
      return query.atEnd side.bound side.inclusive rangeEnd) := by
  unfold withBound Side.ofBound
  split
  · exact congrArg Except.ok (query.atEnd_side rangeEnd).symm
  · cases bound.toReal <;> rfl

/-- A range lays its two sides over those of a query. -/
theorem withPart_range_eq_ok {raw lower upper : Value} {lowerInclusive upperInclusive : Bool}
    (h : withPart m query (.range raw lower upper lowerInclusive upperInclusive) = .ok query') :
    ∃ below above, Side.ofBound lower lowerInclusive = .ok below ∧
      Side.ofBound upper upperInclusive = .ok above ∧
      query'.lower = query.lower.overlaid below ∧ query'.upper = query.upper.overlaid above ∧
      query'.mnemonic = query.mnemonic ∧ query'.present = query.present ∧
      query'.exact = query.exact := by
  unfold withPart at h
  dsimp only at h
  split at h
  · cases h
  obtain ⟨lowered, hlowered, hraised⟩ := Outcome.bind_eq_ok.mp (liftValue_eq_ok.mp h)
  rw [withBound_eq] at hlowered
  obtain ⟨below, hbelow, hlowered⟩ := Outcome.bind_eq_ok.mp hlowered
  cases hlowered
  rw [withBound_eq] at hraised
  obtain ⟨above, habove, hraised⟩ := Outcome.bind_eq_ok.mp hraised
  cases hraised
  exact ⟨below, above, hbelow, habove, rfl, rfl, rfl, rfl, rfl⟩

theorem narrow_hasInSet {position : Value} {a : Quantity} (hp : position.quantity? = some a)
    (query : PositionQuery) (positions : List Value) :
    (query.narrow positions).HasInSet position =
      (query.HasInSet position && position.isIn positions) := by
  unfold HasInSet narrow
  cases query.exact with
  | none => rfl
  | some current => exact Value.number_isIn_intersect hp current positions

/-- Sets are narrowed by the positions of values as they are alone. -/
theorem gathers_narrow {values : List Value}
    (hpart : presentAfter query.present part = query.present)
    (halone : (do
      return PositionQuery.narrow { mnemonic := .text m } (← liftValue (positionsOf values))) =
        .ok alone)
    (hnext : (do return query.narrow (← liftValue (positionsOf values))) = .ok next) :
    next.Gathers query [part] [alone] := by
  obtain ⟨positions, hpositions, hnext⟩ := Outcome.bind_eq_ok.mp hnext
  rw [hpositions] at halone
  cases halone
  cases hnext
  refine ⟨rfl, rfl, rfl, hpart.symm, fun hp => ?_⟩
  rw [narrow_hasInSet hp, Bool.and_eq_true, List.forall_mem_singleton, narrow_hasInSet hp]
  rfl

/-- A part adds to a query what it asks alone. -/
theorem withPart_gathers (halone : withPart m { mnemonic := .text m } part = .ok alone)
    (hnext : withPart m query part = .ok next) : next.Gathers query [part] [alone] := by
  cases part with
  | literal v =>
    unfold withPart at halone hnext
    dsimp only at halone hnext
    split at hnext
    · next hnumber =>
      rw [if_pos hnumber] at halone
      exact gathers_narrow rfl halone hnext
    · cases hnext
  | valueSet raw values =>
    unfold withPart at halone hnext
    dsimp only at halone hnext
    split at hnext
    · next hnumbers =>
      rw [if_pos hnumbers] at halone
      exact gathers_narrow rfl halone hnext
    · cases hnext
  | range raw lower upper lowerInclusive upperInclusive =>
    obtain ⟨below, above, hbelow, habove, haloneLower, haloneUpper, -, -, haloneSet⟩ :=
      withPart_range_eq_ok halone
    obtain ⟨below', above', hbelow', habove', hlower, hupper, hmnemonic, hpresent, hset⟩ :=
      withPart_range_eq_ok hnext
    cases hbelow.symm.trans hbelow'
    cases habove.symm.trans habove'
    refine ⟨hmnemonic, ?_, ?_, hpresent, fun _ => ?_⟩
    · change next.lower = query.lower.overlaid alone.lower
      rw [hlower, haloneLower]
      exact (Side.overlaid_none_overlaid _ _).symm
    · change next.upper = query.upper.overlaid alone.upper
      rw [hupper, haloneUpper]
      exact (Side.overlaid_none_overlaid _ _).symm
    · unfold HasInSet
      rw [hset, List.forall_mem_singleton, haloneSet]
      exact (and_iff_left rfl).symm
  | exist raw present =>
    cases halone
    cases hnext
    refine ⟨rfl, rfl, rfl, rfl, fun _ => ?_⟩
    rw [List.forall_mem_singleton]
    exact (and_iff_left rfl).symm
  | operator | compound | nested => cases hnext

/-- The parts of a filter are gathered in their order. -/
theorem withParts_gathers
    (hparts : List.Forall₂ (fun part alone => withPart m { mnemonic := .text m } part = .ok alone)
      parts queries) (h : withParts m query parts = .ok query') :
    query'.Gathers query parts queries := by
  -- the query gathered so far is a part of the statement, since each part adds to it
  induction hparts generalizing query with
  | nil =>
    cases h
    exact .refl
  | cons halone _ ih =>
    obtain ⟨next, hnext, h⟩ := Outcome.bind_eq_ok.mp h
    split at h
    · cases h
    · exact (withPart_gathers halone hnext).trans (ih h)

/-! ### Satisfaction -/

/-- What a query asks of the position of its motor, or of its absence. -/
def Meets (query : PositionQuery) : Option Value → Prop
  | none => query.present = false
  | some position => query.present = true ∧ query.HasInSet position = true ∧
      query.lower.Keeps .less position ∧ query.upper.Keeps .greater position

/-- Motors with a number as the position satisfy a query just if it is met. -/
theorem isSatisfiedBy_iff_meets (hreal : query.Real m) {motors : Entries}
    (hmotors : ∀ position ∈ motors.get? (.text m), position.isNumber = true) :
    ∃ satisfied, query.isSatisfiedBy motors = .ok satisfied ∧
      (satisfied = true ↔ query.Meets (motors.get? (.text m))) := by
  have hhashable : (Value.text m).isHashable = true := rfl
  unfold isSatisfiedBy
  rw [hreal.mnemonic, if_pos hhashable]
  cases hposition : motors.get? (.text m) with
  | none => exact ⟨_, rfl, Bool.not_eq_true' _ ▸ Iff.rfl⟩
  | some position =>
    obtain ⟨a, ha⟩ := Value.exists_quantity (hmotors position hposition)
    obtain ⟨above, habove⟩ : ∃ above,
        keepsTo .less query.minInclusive query.minimum position = .ok above :=
      Side.exists_kept query.lower hreal.minimum ha
    obtain ⟨below, hbelow⟩ : ∃ below,
        keepsTo .greater query.maxInclusive query.maximum position = .ok below :=
      Side.exists_kept query.upper hreal.maximum ha
    refine ⟨query.present && (query.HasInSet position && (above && below)), ?_, ?_⟩
    · unfold accepts HasInSet
      dsimp only
      rw [habove, hbelow]
      cases query.present
      · rfl
      cases query.exact.all fun values => position.isIn values
      · rfl
      cases above <;> rfl
    · unfold Meets Side.Keeps lower upper
      dsimp only
      rw [habove, hbelow]
      simp only [Bool.and_eq_true, Except.ok.injEq]

/-- A query that excludes no position by its bounds that another does not, and asks for the
motor just if the other does. -/
structure LooserThan (query other : PositionQuery) : Prop where
  present : query.present = other.present
  lower : query.lower.LooserThan .less other.lower
  upper : query.upper.LooserThan .greater other.upper

variable {position : Option Value}

theorem LooserThan.meets (h : query.LooserThan next) (hreal : query.Real m)
    (hnextReal : next.Real m) (hposition : ∀ p ∈ position, p.isNumber = true)
    (hset : ∀ p ∈ position, next.HasInSet p = true → query.HasInSet p = true)
    (hmeets : next.Meets position) : query.Meets position := by
  cases position with
  | none => exact h.present.trans hmeets
  | some p =>
    obtain ⟨a, ha⟩ := Value.exists_quantity (hposition p rfl)
    obtain ⟨hpresent, hin, habove, hbelow⟩ := hmeets
    exact ⟨h.present.trans hpresent, hset p rfl hin,
      habove.of_looserThan (fun _ _ _ => Quantity.less_trans) hreal.minimum hnextReal.minimum ha
        h.lower,
      hbelow.of_looserThan (fun _ _ _ hab hbc => Quantity.less_trans hbc hab) hreal.maximum
        hnextReal.maximum ha h.upper⟩

/-- Of sides laid over each other one stands alone, so what keeps to all keeps to it. -/
theorem Side.keeps_foldl {beyond : Comparison} {p : Value} {sides : List Side} {start : Side}
    (hstart : start.Keeps beyond p) (hsides : ∀ side ∈ sides, side.Keeps beyond p) :
    (sides.foldl overlaid start).Keeps beyond p := by
  induction sides generalizing start with
  | nil => exact hstart
  | cons side rest ih =>
    obtain ⟨hside, hrest⟩ := List.forall_mem_cons.mp hsides
    refine ih ?_ hrest
    unfold overlaid
    split
    · exact hside
    · exact hstart

theorem presentAfter_eq {present start : Bool} (hpart : presentAfter true part = present)
    (hstart : present = true → start = true) : presentAfter start part = present := by
  cases part with
  | exist raw asked => exact hpart
  | _ =>
    cases hpart
    exact hstart rfl

/-- Where the parts agree alone whether the motor has to be there, they do together. -/
theorem foldl_presentAfter {present start : Bool}
    (hparts : List.Forall₂ (fun part q => q.present = presentAfter true part) parts queries)
    (hqueries : ∀ q ∈ queries, q.present = present) (hstart : present = true → start = true)
    (hnil : queries = [] → start = present) : parts.foldl presentAfter start = present := by
  -- after the first part the presence so far is the one that all ask for
  induction hparts generalizing start with
  | nil => exact hnil rfl
  | cons hpart _ ih =>
    obtain ⟨hfirst, hrest⟩ := List.forall_mem_cons.mp hqueries
    have hnext := presentAfter_eq (hpart.symm.trans hfirst) hstart
    exact ih hrest hnext.trans fun _ => hnext

/-- The query of some parts is met where those of all parts are. Without a part the motor has
to be there. -/
theorem Gathers.meets
    (hparts : List.Forall₂ (fun part alone => withPart m { mnemonic := .text m } part = .ok alone)
      parts queries) (hquery : query.Gathers { mnemonic := .text m } parts queries)
    (hposition : ∀ p ∈ position, p.isNumber = true)
    (hnil : queries = [] → position.isSome = true) (hall : ∀ q ∈ queries, q.Meets position) :
    query.Meets position := by
  have hpresent : List.Forall₂ (fun part q => q.present = presentAfter true part) parts queries :=
    hparts.imp fun part alone halone => (withPart_gathers halone halone).present
  cases position with
  | none =>
    have hne : queries ≠ [] := fun hempty => nomatch hnil hempty
    exact hquery.present.trans
      (foldl_presentAfter hpresent hall nofun fun hempty => absurd hempty hne)
  | some p =>
    obtain ⟨a, ha⟩ := Value.exists_quantity (hposition p rfl)
    refine ⟨?_, (hquery.inSet ha).mpr ⟨rfl, fun q hq => (hall q hq).2.1⟩, ?_, ?_⟩
    · exact hquery.present.trans
        (foldl_presentAfter hpresent (fun q hq => (hall q hq).1) (fun _ => rfl) fun _ => rfl)
    · rw [hquery.lower]
      exact Side.keeps_foldl rfl (List.forall_mem_map.mpr fun q hq => (hall q hq).2.2.1)
    · rw [hquery.upper]
      exact Side.keeps_foldl rfl (List.forall_mem_map.mpr fun q hq => (hall q hq).2.2.2)

/-- A part that several parts may hold stands for itself alone. -/
theorem withPart_of_partsOf (hnext : withPart m query part = .ok next)
    (halone : withParts m { mnemonic := .text m } (partsOf part) = .ok alone) :
    withPart m { mnemonic := .text m } part = .ok alone := by
  cases part with
  | compound => cases hnext
  | _ => exact (withParts_singleton_eq_ok.mp halone).1

theorem forall₂_withPart (hparts : List.Forall₂
      (fun part alone => withParts m { mnemonic := .text m } (partsOf part) = .ok alone)
      parts queries) (h : withParts m query parts = .ok query') :
    List.Forall₂ (fun part alone => withPart m { mnemonic := .text m } part = .ok alone)
      parts queries := by
  induction hparts generalizing query with
  | nil => exact .nil
  | cons halone _ ih =>
    obtain ⟨next, hnext, h⟩ := Outcome.bind_eq_ok.mp h
    split at h
    · cases h
    · exact .cons (withPart_of_partsOf hnext halone) (ih h)

theorem forall_real (hparts : List.Forall₂
      (fun part alone => withParts m { mnemonic := .text m } (partsOf part) = .ok alone)
      parts queries) : ∀ q ∈ queries, q.Real m := by
  induction hparts with
  | nil => exact nofun
  | cons halone _ ih =>
    exact List.forall_mem_cons.mpr ⟨((real_ofMnemonic m).withParts nofun halone).1, ih⟩

end PositionQuery

/-! ### Compound filters -/

theorem compileTerms_key_eq_ok {m : Text} {filter : Filter} {compiled : List PositionQuery}
    (h : compileTerms [(MotorTerm.motorsStart ++ m, filter)] = .ok compiled) :
    ∃ query, compiled = [query] ∧
      PositionQuery.withParts m { mnemonic := .text m } (PositionQuery.partsOf filter) =
        .ok query := by
  rw [compileTerms_key] at h
  split at h
  · cases h
  obtain ⟨query, hquery, h⟩ := Outcome.bind_eq_ok.mp h
  cases h
  exact ⟨query, rfl, hquery⟩

/-- Motors that satisfy each of some queries for a motor; if there are none, that have it. -/
def SatisfyEach (motors : Entries) (m : Text) (queries : List PositionQuery) : Prop :=
  (queries = [] → motors.has (.text m) = true) ∧
    ∀ query ∈ queries, query.isSatisfiedBy motors = .ok true

/-- A compound filter is compiled to a query that has gathered those of its parts. Motors that
satisfy the query of each part satisfy it, and the other way round if the queries of the parts
are looser. -/
theorem compileTerms_compound {m : Text} {raw : Value} {parts : List Filter}
    {queries compiled : List PositionQuery} {motors : Entries}
    (hparts : List.Forall₂ (fun part query =>
      compileTerms [(MotorTerm.motorsStart ++ m, part)] = .ok [query]) parts queries)
    (h : compileTerms [(MotorTerm.motorsStart ++ m, .compound raw parts)] = .ok compiled)
    (hmotors : ∀ position ∈ motors.get? (.text m), position.isNumber = true) :
    ∃ query satisfied, compiled = [query] ∧
      query.Gathers { mnemonic := .text m } parts queries ∧
      query.isSatisfiedBy motors = .ok satisfied ∧
      (SatisfyEach motors m queries → satisfied = true) ∧
      ((∀ q ∈ queries, q.LooserThan query) → satisfied = true → SatisfyEach motors m queries) := by
  obtain ⟨query, rfl, hquery⟩ := compileTerms_key_eq_ok h
  have halone : List.Forall₂ (fun part alone => PositionQuery.withParts m { mnemonic := .text m }
      (PositionQuery.partsOf part) = .ok alone) parts queries := by
    refine hparts.imp fun part alone hpart => ?_
    obtain ⟨_, heq, hquery⟩ := compileTerms_key_eq_ok hpart
    cases heq
    exact hquery
  have hreal : query.Real m := ((PositionQuery.real_ofMnemonic m).withParts nofun hquery).1
  have hqueriesReal : ∀ q ∈ queries, q.Real m := PositionQuery.forall_real halone
  have hpart := PositionQuery.forall₂_withPart halone hquery
  have hgathers := PositionQuery.withParts_gathers hpart hquery
  obtain ⟨satisfied, hsatisfied, hmeets⟩ := PositionQuery.isSatisfiedBy_iff_meets hreal hmotors
  have heach : ∀ q ∈ queries, q.isSatisfiedBy motors = .ok true ↔
      q.Meets (motors.get? (.text m)) := by
    intro q hq
    obtain ⟨result, hresult, hiff⟩ :=
      PositionQuery.isSatisfiedBy_iff_meets (hqueriesReal q hq) hmotors
    rw [hresult, Except.ok.injEq, hiff]
  refine ⟨query, satisfied, rfl, hgathers, hsatisfied, fun hall => ?_, fun hlooser htrue => ?_⟩
  · refine hmeets.mpr (hgathers.meets hpart hmotors ?_ fun q hq => (heach q hq).mp (hall.2 q hq))
    rw [← Entries.has_eq_isSome]
    exact hall.1
  · have hmet := hmeets.mp htrue
    refine ⟨?_, fun q hq => (heach q hq).mpr ?_⟩
    · rintro rfl
      cases hpart
      -- without a part nothing but the presence of the motor is asked
      rw [Entries.has_eq_isSome]
      cases hposition : motors.get? (.text m) with
      | none =>
        rw [hposition] at hmet
        cases hgathers.present.symm.trans hmet
      | some position => rfl
    · refine (hlooser q hq).meets (hqueriesReal q hq) hreal hmotors (fun p hp hin => ?_) hmet
      obtain ⟨a, ha⟩ := Value.exists_quantity (hmotors p hp)
      exact ((hgathers.inSet ha).mp hin).2 q hq

/-! ### Bounds that get stricter, and one that does not -/

/-- One half. -/
def Binary64.half : Binary64 := .finite false 4602678819172646912 (by decide)

/-- One. -/
def Binary64.one : Binary64 := .finite false 4607182418800017408 (by decide)

/-- Three. -/
def Binary64.three : Binary64 := .finite false 4613937818241073152 (by decide)

/-- A lower bound as an operator asks for it. -/
def Filter.above (bound : Int) : Filter :=
  .range (.map [("$gt", .int bound)]) (.int bound) .null false false

/-- The query of a motor for positions above a number. -/
def PositionQuery.above (bound : Binary64) : PositionQuery :=
  { mnemonic := "samx", minimum := some (.float bound) }

/-- A motor at three, asked for a bound, for a set and for a stricter bound. -/
theorem compileTerms_compound_stricter :
    ∃ query satisfied,
      compileTerms [("motors.samx", .compound .null [.above 0, .literal (.int 3), .above 1])] =
        .ok [query] ∧
      query.isSatisfiedBy [("samx", .float .three)] = .ok satisfied ∧
      (satisfied = true ↔ SatisfyEach [("samx", .float .three)] "samx"
        [.above .zero, { mnemonic := "samx", exact := some [.float .three] }, .above .one]) := by
  have hparts : List.Forall₂ (fun part query =>
      compileTerms [(MotorTerm.motorsStart ++ "samx", part)] = .ok [query])
      [Filter.above 0, .literal (.int 3), .above 1]
      [.above .zero, { mnemonic := "samx", exact := some [.float .three] }, .above .one] :=
    .cons (by decide +kernel) (.cons (by decide +kernel) (.cons (by decide +kernel) .nil))
  have hcompiled :
      compileTerms [("motors.samx", .compound .null [.above 0, .literal (.int 3), .above 1])] =
        .ok [{ PositionQuery.above .one with exact := some [.float .three] }] := by
    decide +kernel
  have hmotors : ∀ position ∈ Entries.get? [("samx", .float .three)] (.text "samx"),
      position.isNumber = true := by
    decide
  obtain ⟨query, satisfied, heq, -, hsatisfied, hall, honly⟩ :=
    compileTerms_compound hparts hcompiled hmotors
  cases heq
  refine ⟨_, satisfied, hcompiled, hsatisfied, honly ?_, hall⟩
  have hnone : ∀ {beyond : Comparison} {other : PositionQuery.Side},
      PositionQuery.Side.LooserThan beyond {} other := nofun
  refine List.forall_mem_cons.mpr ⟨⟨rfl, ?_, hnone⟩, List.forall_mem_cons.mpr
    ⟨⟨rfl, hnone, hnone⟩, List.forall_mem_singleton.mpr ⟨rfl, ?_, hnone⟩⟩⟩
  · rintro _ ⟨⟩
    exact .inr ⟨_, rfl, .inl (by decide +kernel)⟩
  · rintro _ ⟨⟩
    exact .inr ⟨_, rfl, .inr ⟨by decide +kernel, .inr rfl⟩⟩

/-- A motor at one half satisfies a compound filter without being above one, which its first part
asks for. -/
theorem compileTerms_compound_looser :
    Filter.ofValue "" (.map [("$gt", .int 1)]) = .ok (.above 1) ∧
      Filter.ofValue "" (.map [("$gt", .int 0)]) = .ok (.above 0) ∧
      compileTerms [("motors.samx", .above 1)] = .ok [.above .one] ∧
      compileTerms [("motors.samx", .above 0)] = .ok [.above .zero] ∧
      compileTerms [("motors.samx", .compound .null [.above 1, .above 0])] = .ok [.above .zero] ∧
      (PositionQuery.above .zero).isSatisfiedBy [("samx", .float .half)] = .ok true ∧
      (PositionQuery.above .one).isSatisfiedBy [("samx", .float .half)] = .ok false :=
  ⟨rfl, rfl, by decide +kernel, by decide +kernel, by decide +kernel, by decide +kernel,
    by decide +kernel⟩

end ScanCatalog
