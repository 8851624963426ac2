import Mathlib.Control.Monad.Basic
import ScanCatalog.Proofs.Motor.Compiled
import ScanCatalog.Proofs.Motor.Grouping
import ScanCatalog.Proofs.Motor.Parameters
import ScanCatalog.Proofs.Motor.Transactions

/-!
# Scans that satisfy queries

What a query asks of the motors of a scan, and that the condition which a query makes in a
statement asks the same of the rows of the scan. The conditions of a statement take their
parameters in turn, so each has to take as many as its query gives.

## Main definitions

* `PositionQuery.Allows`, `PositionQuery.Holds`: what a query asks of a position and of
  the motors of a scan.

## Main statements

* `PositionQuery.allHold_conditionsOf`: the conditions on a position;
* `Holdings.Sound.allHold_toTables`: the conditions on a scan.
-/

namespace ScanCatalog

namespace PositionQuery

/-- A position that the query asks for: in its set, and beyond neither bound. -/
def Allows (query : PositionQuery) (position : Value) : Prop :=
  (∀ values ∈ query.exact, ∃ v ∈ values, position.same v = true) ∧
    (∀ bound ∈ query.minimum,
      position.compare (if query.minInclusive then .atLeast else .greater) bound = .ok true) ∧
    ∀ bound ∈ query.maximum,
      position.compare (if query.maxInclusive then .atMost else .less) bound = .ok true

/-- Motors that satisfy the query: one of its mnemonic is at a position that it asks for,
or none is there if it has to be absent. -/
def Holds (query : PositionQuery) (motors : Entries) : Prop :=
  if query.present then ∃ motor ∈ motors, motor.1.same query.mnemonic = true ∧ query.Allows motor.2
  else ∀ motor ∈ motors, motor.1.same query.mnemonic = false

instance (query : PositionQuery) (position : Value) : Decidable (query.Allows position) :=
  instDecidableAnd

instance (query : PositionQuery) (motors : Entries) : Decidable (query.Holds motors) :=
  instDecidableIte

end PositionQuery

/-! ### Cells of numbers -/

namespace Cell

theorem toCell_less_real (x y : Binary64) :
    (Value.float x).toCell.asNumeric.less (.real y) = x.less y := by
  cases x with
  | nan => rfl
  | _ => rfl

theorem real_less_toCell (x y : Binary64) :
    (Cell.real x).less (Value.float y).toCell.asNumeric = x.less y := by
  cases y with
  | nan =>
    rw [Binary64.less]
    cases x.quantity <;> rfl
  | _ => rfl

theorem toCell_same_real (x y : Binary64) :
    (Value.float x).toCell.asNumeric.same (.real y) = x.same y := by
  cases x with
  | nan => rfl
  | _ => rfl

end Cell

/-! ### Conditions in a row -/

namespace PositionCondition

/-- The number of parameters of some conditions. -/
def arities : List PositionCondition → Nat
  | [] => 0
  | condition :: rest => condition.arity + arities rest

/-- Each condition takes its own parameters. -/
theorem allHold_append {conditions rest : List PositionCondition} {parameters others : List Cell}
    (h : parameters.length = arities conditions) (position : Cell) :
    allHold (conditions ++ rest) (parameters ++ others) position =
      (allHold conditions parameters position && allHold rest others position) := by
  induction conditions generalizing parameters with
  | nil =>
    rw [List.length_eq_zero_iff.mp h]
    rfl
  | cons condition conditions ih =>
    have hle : condition.arity ≤ parameters.length := by
      rw [h, arities]
      omega
    have hdrop : (parameters.drop condition.arity).length = arities conditions := by
      rw [List.length_drop, h, arities]
      omega
    rw [List.cons_append, allHold, allHold, List.take_append_of_le_length hle,
      List.drop_append_of_le_length hle, ih hdrop, Bool.and_assoc]

theorem allHold_singleton {condition : PositionCondition} {parameters : List Cell}
    (h : parameters.length = condition.arity) (position : Cell) :
    allHold [condition] parameters position = condition.holds parameters position := by
  rw [allHold, allHold, Bool.and_true, List.take_of_length_le (Nat.le_of_eq h)]

end PositionCondition

namespace RangeEnd

/-- The condition that the bound at an end of a range makes. -/
def condition : RangeEnd → Bool → PositionCondition
  | .lower => .above
  | .upper => .below

theorem arity_condition (rangeEnd : RangeEnd) (inclusive : Bool) :
    (rangeEnd.condition inclusive).arity = 1 := by
  cases rangeEnd <;> rfl

end RangeEnd

namespace PositionQuery

variable {query : PositionQuery}

/-- A query gives as many parameters as its condition takes. -/
theorem length_parameters (query : PositionQuery) :
    query.parameters.length = query.toCondition.arity := by
  have harity : ∀ conditions : List PositionCondition,
      conditions.foldr (fun part count => part.arity + count) 1 =
        PositionCondition.arities conditions + 1 := by
    intro conditions
    induction conditions with
    | nil => rfl
    | cons condition rest ih =>
      rw [List.foldr_cons, ih, PositionCondition.arities]
      omega
  unfold MotorCondition.arity parameters toCondition
  dsimp only
  rw [harity]
  cases query.present with
  | false => rfl
  | true =>
    unfold conditionsOf
    cases query.exact <;> cases query.minimum <;> cases query.maximum <;>
      simp [PositionCondition.arities, PositionCondition.arity]

/-! ### Conditions on a position -/

theorem holds_oneOf {values : List Value} (hvalues : ∀ v ∈ values, v.IsReal) (position : Binary64) :
    PositionCondition.holds (.oneOf values.length) (values.map Value.toCell) (.real position) =
      decide (∃ v ∈ values, (Value.float position).same v = true) := by
  unfold PositionCondition.holds
  dsimp only
  rw [List.any_map, Bool.eq_iff_iff, List.any_eq_true, decide_eq_true_eq]
  refine exists_congr fun v => and_congr_right fun hv => ?_
  obtain ⟨x, rfl⟩ := hvalues v hv
  rw [Function.comp_apply, Cell.real_same_toCell, Value.same_float]

theorem holds_above (inclusive : Bool) (position bound : Binary64) :
    PositionCondition.holds (.above inclusive) [(Value.float bound).toCell] (.real position) =
      decide ((Value.float position).compare (if inclusive then .atLeast else .greater)
        (.float bound) = .ok true) := by
  unfold PositionCondition.holds
  cases inclusive with
  | false =>
    simp only [Bool.false_eq_true, if_false]
    rw [Cell.toCell_less_real, Value.compare_floats]
    simp [Comparison.ofQuantities, Binary64.less]
  | true =>
    simp only [if_true]
    rw [Cell.atMost, Cell.toCell_less_real, Cell.toCell_same_real, Value.compare_floats]
    simp [Comparison.ofQuantities, Binary64.less, Binary64.same, Quantity.atMost]

theorem holds_below (inclusive : Bool) (position bound : Binary64) :
    PositionCondition.holds (.below inclusive) [(Value.float bound).toCell] (.real position) =
      decide ((Value.float position).compare (if inclusive then .atMost else .less)
        (.float bound) = .ok true) := by
  unfold PositionCondition.holds
  cases inclusive with
  | false =>
    simp only [Bool.false_eq_true, if_false]
    rw [Cell.real_less_toCell, Value.compare_floats]
    simp [Comparison.ofQuantities, Binary64.less]
  | true =>
    simp only [if_true]
    rw [Cell.atMost, Cell.real_less_toCell, Cell.real_same_toCell, Value.compare_floats]
    simp [Comparison.ofQuantities, Binary64.less, Binary64.same, Quantity.atMost]

/-- The condition of a bound holds of the positions on its side. -/
theorem holds_condition (rangeEnd : RangeEnd) (inclusive : Bool) (position bound : Binary64) :
    (rangeEnd.condition inclusive).holds [(Value.float bound).toCell] (.real position) =
      decide ((Value.float position).compare (rangeEnd.comparison inclusive) (.float bound) =
        .ok true) := by
  cases rangeEnd with
  | lower => exact holds_above inclusive position bound
  | upper => exact holds_below inclusive position bound

theorem allHold_exact (hquery : query.Compiled) (position : Binary64) :
    PositionCondition.allHold
        (query.exact.map fun values => PositionCondition.oneOf values.length).toList
        ((query.exact.getD []).map Value.toCell) (.real position) =
      decide (∀ values ∈ query.exact, ∃ v ∈ values, (Value.float position).same v = true) := by
  cases h : query.exact with
  | none => simp [PositionCondition.allHold]
  | some values =>
    change PositionCondition.allHold [.oneOf values.length] (values.map Value.toCell) _ = _
    rw [PositionCondition.allHold_singleton (List.length_map _),
      holds_oneOf (hquery.exact values h)]
    simp

/-- The condition of a bound, if there is one, holds of the positions on its side. -/
theorem allHold_bound (rangeEnd : RangeEnd) {bound : Option Value} (inclusive : Bool)
    (hbound : ∀ b, bound = some b → b.IsReal) (position : Binary64) :
    PositionCondition.allHold (bound.map fun _ => rangeEnd.condition inclusive).toList
        (bound.toList.map Value.toCell) (.real position) =
      decide (∀ b ∈ bound, (Value.float position).compare (rangeEnd.comparison inclusive) b =
        .ok true) := by
  cases bound with
  | none => simp [PositionCondition.allHold]
  | some b =>
    obtain ⟨x, rfl⟩ := hbound b rfl
    have harity : [(Value.float x).toCell].length = (rangeEnd.condition inclusive).arity :=
      (rangeEnd.arity_condition inclusive).symm
    change PositionCondition.allHold [rangeEnd.condition inclusive] [(Value.float x).toCell] _ = _
    rw [PositionCondition.allHold_singleton harity, holds_condition]
    simp

/-- The conditions of a query, with its parameters, hold of the positions that it asks
for. -/
theorem allHold_conditionsOf (hquery : query.Compiled) (position : Binary64) :
    PositionCondition.allHold query.conditionsOf
        ((query.exact.getD [] ++ query.minimum.toList ++ query.maximum.toList).map Value.toCell)
        (.real position) =
      decide (query.Allows (.float position)) := by
  have hlengths : ((query.exact.getD []).map Value.toCell).length = PositionCondition.arities
      (query.exact.map fun values => PositionCondition.oneOf values.length).toList := by
    cases query.exact <;> simp [PositionCondition.arities, PositionCondition.arity]
  have hbounds : (query.minimum.toList.map Value.toCell).length = PositionCondition.arities
      (query.minimum.map fun _ => PositionCondition.above query.minInclusive).toList := by
    cases query.minimum <;> simp [PositionCondition.arities, PositionCondition.arity]
  have hlower := allHold_bound .lower query.minInclusive hquery.minimum position
  have hupper := allHold_bound .upper query.maxInclusive hquery.maximum position
  unfold RangeEnd.condition RangeEnd.comparison at hlower hupper
  unfold conditionsOf
  rw [List.append_assoc, List.append_assoc, List.map_append, List.map_append,
    PositionCondition.allHold_append hlengths, PositionCondition.allHold_append hbounds,
    allHold_exact hquery, hlower, hupper, ← Bool.decide_and, ← Bool.decide_and]
  rfl

end PositionQuery

/-! ### Conditions on a scan -/

/-- Each query gives the parameters that its condition takes. -/
theorem Tables.allHold_ofQueries (tables : Tables) (scanId : Nat) (queries : List PositionQuery) :
    tables.allHold scanId (queries.map PositionQuery.toCondition)
        ((parametersOf queries).map Value.toCell) =
      queries.all fun query =>
        tables.holds scanId query.toCondition (query.parameters.map Value.toCell) := by
  induction queries with
  | nil => rfl
  | cons query rest ih =>
    have hlength : (query.parameters.map Value.toCell).length = query.toCondition.arity := by
      rw [List.length_map, PositionQuery.length_parameters]
    have hparameters : (parametersOf (query :: rest)).map Value.toCell =
        query.parameters.map Value.toCell ++ (parametersOf rest).map Value.toCell := by
      rw [parametersOf, List.flatMap_cons, List.map_append, parametersOf]
    rw [List.map_cons, Tables.allHold, hparameters, List.all_cons, ← ih, ← hlength,
      List.take_left, List.drop_left]

namespace Holdings

variable {h : Holdings} {query : PositionQuery}

/-- Whether a scan has a motor of a mnemonic is a matter of its positions. -/
theorem Sound.hasMotor_toTables (hs : h.Sound) (scanId : Nat) (t : Text)
    (conditions : List PositionCondition) (parameters : List Cell) :
    h.toTables.hasMotor scanId (.text t) conditions parameters =
      (h.positionsOf scanId).any fun p =>
        p.1 == t && PositionCondition.allHold conditions parameters (.real p.2) := by
  have hmotor : ∀ m ∈ h.ofScan scanId, (conditions.isEmpty ||
      (h.toTables.positionsOf m.motorId).any fun p =>
        PositionCondition.allHold conditions parameters p.position) =
      PositionCondition.allHold conditions parameters (.real m.position) := by
    intro m hm
    rw [hs.positionsOf_toTables (List.mem_filter.mp hm).1, List.any_cons, List.any_nil,
      Bool.or_false]
    cases conditions <;> rfl
  unfold Tables.hasMotor positionsOf
  rw [mnemonicsOf_toTables, List.any_map, List.any_map, Bool.eq_iff_iff, List.any_eq_true,
    List.any_eq_true]
  refine exists_congr fun m => and_congr_right fun hm => ?_
  rw [Function.comp_apply, Function.comp_apply, ← hmotor m hm]
  rfl

/-- The condition that a query makes holds of the scans whose motors satisfy the query. -/
theorem Sound.holds_toTables (hs : h.Sound) (scanId : Nat) (hquery : query.Compiled) :
    h.toTables.holds scanId query.toCondition (query.parameters.map Value.toCell) =
      decide (query.Holds (h.positionsOf scanId).toEntries) := by
  obtain ⟨t, ht, -⟩ := hquery.mnemonic
  have hmem : ∀ motor, motor ∈ (h.positionsOf scanId).toEntries ↔
      ∃ p ∈ h.positionsOf scanId, (.text p.1, .float p.2) = motor := fun motor => List.mem_map
  have hmotors : ∀ (conditions : List PositionCondition) (parameters : List Cell) (negated : Bool),
      h.toTables.holds scanId ⟨negated, conditions⟩ (query.mnemonic.toCell :: parameters) =
        (((h.positionsOf scanId).any fun p =>
          p.1 == t && PositionCondition.allHold conditions parameters (.real p.2)) != negated) := by
    intro conditions parameters negated
    rw [ht, ← hs.hasMotor_toTables]
    rfl
  unfold PositionQuery.toCondition PositionQuery.parameters
  rw [List.map_cons, hmotors, Bool.eq_iff_iff, decide_eq_true_eq]
  unfold PositionQuery.Holds
  rw [ht]
  cases hpresent : query.present with
  | true =>
    simp only [if_true, Bool.not_true, Bool.bne_false]
    rw [List.any_eq_true]
    constructor
    · rintro ⟨p, hp, hholds⟩
      obtain ⟨hsame, hholds⟩ := Bool.and_eq_true_iff.mp hholds
      rw [PositionQuery.allHold_conditionsOf hquery, decide_eq_true_eq] at hholds
      exact ⟨_, (hmem _).mpr ⟨p, hp, rfl⟩, hsame, hholds⟩
    · rintro ⟨motor, hmotor, hsame, hallows⟩
      obtain ⟨p, hp, rfl⟩ := (hmem motor).mp hmotor
      refine ⟨p, hp, Bool.and_eq_true_iff.mpr ⟨hsame, ?_⟩⟩
      rw [PositionQuery.allHold_conditionsOf hquery]
      exact decide_eq_true hallows
  | false =>
    simp only [Bool.false_eq_true, if_false, Bool.not_false, Bool.bne_true]
    rw [Bool.not_eq_true', List.any_eq_false]
    constructor
    · intro hnone motor hmotor
      obtain ⟨p, hp, rfl⟩ := (hmem motor).mp hmotor
      have hp := hnone p hp
      rw [PositionCondition.allHold, Bool.and_true] at hp
      exact Bool.eq_false_iff.mpr hp
    · intro hnone p hp
      rw [PositionCondition.allHold, Bool.and_true]
      exact Bool.eq_false_iff.mp (hnone _ ((hmem _).mpr ⟨p, hp, rfl⟩))

/-- The conditions of a selection hold of the scans whose motors satisfy all queries. -/
theorem Sound.allHold_toTables (hs : h.Sound) (scanId : Nat) {queries : List PositionQuery}
    (hqueries : ∀ query ∈ queries, query.Compiled) :
    h.toTables.allHold scanId (queries.map PositionQuery.toCondition)
        ((parametersOf queries).map Value.toCell) =
      decide (∀ query ∈ queries, query.Holds (h.positionsOf scanId).toEntries) := by
  rw [Tables.allHold_ofQueries, Bool.eq_iff_iff, List.all_eq_true, decide_eq_true_eq]
  refine forall₂_congr fun query hmem => ?_
  rw [hs.holds_toTables scanId (hqueries query hmem), decide_eq_true_eq]

end Holdings

/-! ### Parameters of queries -/

namespace PositionQuery.Compiled

variable {query : PositionQuery}

/-- The parameters of a compiled query are its mnemonic and numbers. -/
theorem eq_mnemonic_or_isReal (hquery : query.Compiled) :
    ∀ v ∈ query.parameters, v = query.mnemonic ∨ v.IsReal := by
  unfold PositionQuery.parameters
  refine List.forall_mem_cons.mpr ⟨.inl rfl, fun v hv => .inr ?_⟩
  split at hv
  · rcases List.mem_append.mp hv with hv | hv
    · rcases List.mem_append.mp hv with hv | hv
      · cases hexact : query.exact with
        | none =>
          rw [hexact] at hv
          cases hv
        | some values =>
          rw [hexact] at hv
          exact hquery.exact values hexact v hv
      · exact hquery.minimum v (Option.mem_toList.mp hv)
    · exact hquery.maximum v (Option.mem_toList.mp hv)
  · cases hv

/-- The parameters of a compiled query can be bound if its mnemonic has a UTF-8 form. -/
theorem binds (hquery : query.Compiled)
    (hencodable : ∀ t, query.mnemonic = .text t → t.Encodable) :
    ∀ v ∈ query.parameters, v.Binds := by
  intro v hv
  rcases hquery.eq_mnemonic_or_isReal v hv with rfl | ⟨x, rfl⟩
  · obtain ⟨t, ht, -⟩ := hquery.mnemonic
    rw [ht]
    exact .text (hencodable t ht)
  · exact .float x

end PositionQuery.Compiled

end ScanCatalog
