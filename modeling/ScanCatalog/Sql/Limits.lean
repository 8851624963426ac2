import ScanCatalog.Sql.Statement

/-!
# The limits of a statement

A statement is refused when it has too many parameters, or when its conditions nest too
deep. Conditions joined by `AND` nest from the left, so their number counts; the
condition of a join counts like one more, and what a sub-select nests counts on top of
the conditions around it. Conditions are read from the left, and the first that reaches a
limit ends the reading; what joins and sub-selects add is looked at when the tables are known.

## Main definitions

* `MotorCondition.innerDepth`, `MotorCondition.depth`: how deep a condition on a scan
  nests;
* `Statement.depth`: how deep a statement nests;
* `Statement.parameterLimit`, `Statement.depthLimit`: the limits;
* `Statement.exceededRead?`, `Statement.exceededJoined?`, `Statement.exceeded?`: the limit
  that a statement exceeds first;
* `Statement.WithinLimits`: a statement that exceeds none.

## Main statements

* `Statement.exceeded?_eq_none_iff`: a statement within the limits is not refused.
-/

namespace ScanCatalog

/-- What a statement can have too much of. -/
inductive StatementLimit
  | parameters
  | depth
deriving DecidableEq, Repr

namespace MotorCondition

/-- The depth of an equation between a column and a column or a parameter. -/
def equationDepth : Nat := 3

/-- The depth of the conditions in the sub-select of a condition: two equations and
those on the position, joined from the left. -/
def innerDepth (condition : MotorCondition) : Nat :=
  equationDepth + 1 + condition.onPosition.length

/-- The depth of a condition on a scan. -/
def depth (condition : MotorCondition) : Nat :=
  condition.innerDepth + 1 + if condition.negated then 1 else 0

/-- The depth of the sub-select of a condition once it is joined with the positions. -/
def joinedDepth (condition : MotorCondition) : Nat :=
  condition.innerDepth + if condition.onPosition.isEmpty then 0 else 1

/-- The depth of conditions joined from the left, `before` being that of those before
them. -/
def chainDepth (before : Nat) : List MotorCondition → Nat
  | [] => before
  | condition :: rest => chainDepth (max before condition.depth + 1) rest

theorem le_chainDepth (before : Nat) (conditions : List MotorCondition) :
    before ≤ chainDepth before conditions := by
  induction conditions generalizing before with
  | nil => exact Nat.le_refl before
  | cons condition rest ih =>
    calc
      before ≤ max before condition.depth + 1 := Nat.le_succ_of_le (Nat.le_max_left _ _)
      _ ≤ chainDepth before (condition :: rest) := ih _

end MotorCondition

namespace Statement

/-- The greatest number of parameters that a statement may have, unless the library was
built with another one. -/
def parameterLimit : Nat := 32766

/-- The greatest depth that a statement may have. -/
def depthLimit : Nat := 1000

/-- The conditions that come from the two joins of a selection of motors. -/
def joinCount : Nat := 2

/-- The depth of a statement. All statements but selections by conditions are far from
the limit, and count as flat. -/
def depth : Statement → Nat
  | .selectByConditions (condition :: rest) =>
    MotorCondition.chainDepth condition.depth rest + joinCount +
      ((condition :: rest).map MotorCondition.joinedDepth).foldl max 0
  | _ => 0

/-- The limit that so many parameters or such a depth exceed, if any. -/
def limitOf (arity depth : Nat) : Option StatementLimit :=
  if parameterLimit < arity then some .parameters
  else if depthLimit < depth then some .depth
  else none

/-- The limit that conditions joined from the left exceed first, if any; `arity` and
`depth` are those of the conditions before them. -/
def exceededFrom (arity depth : Nat) : List MotorCondition → Option StatementLimit
  | [] => limitOf arity depth
  | condition :: rest =>
    (limitOf arity depth).or
      (exceededFrom (arity + condition.arity) (max depth condition.depth + 1) rest)

/-- The limit that a statement exceeds while it is read, if any. -/
def exceededRead? (statement : Statement) : Option StatementLimit :=
  match statement with
  | .selectByConditions (condition :: rest) =>
    exceededFrom condition.arity condition.depth rest
  | _ => limitOf statement.arity statement.depth

/-- The limit that a statement exceeds once its tables are joined, if any. -/
def exceededJoined? (statement : Statement) : Option StatementLimit :=
  limitOf statement.arity statement.depth

/-- The limit that a statement exceeds first, if any. -/
def exceeded? (statement : Statement) : Option StatementLimit :=
  statement.exceededRead?.or statement.exceededJoined?

/-- A statement that exceeds no limit. -/
structure WithinLimits (statement : Statement) : Prop where
  arity_le : statement.arity ≤ parameterLimit
  depth_le : statement.depth ≤ depthLimit

theorem limitOf_eq_none_iff {arity depth : Nat} :
    limitOf arity depth = none ↔ arity ≤ parameterLimit ∧ depth ≤ depthLimit := by
  unfold limitOf
  split
  · simp; omega
  · split <;> simp <;> omega

theorem exceededFrom_eq_none_iff {arity depth : Nat} {conditions : List MotorCondition} :
    exceededFrom arity depth conditions = none ↔
      arity + MotorCondition.arities conditions ≤ parameterLimit ∧
        MotorCondition.chainDepth depth conditions ≤ depthLimit := by
  induction conditions generalizing arity depth with
  | nil => exact limitOf_eq_none_iff
  | cons condition rest ih =>
    -- what the conditions before exceed, all of them exceed
    have hdepth : depth ≤ MotorCondition.chainDepth (max depth condition.depth + 1) rest :=
      MotorCondition.le_chainDepth depth (condition :: rest)
    rw [exceededFrom, Option.or_eq_none_iff, limitOf_eq_none_iff, ih, MotorCondition.arities,
      MotorCondition.chainDepth]
    omega

/-- A statement exceeds no limit first if it exceeds none at all. -/
theorem exceeded?_eq_none_iff {statement : Statement} :
    statement.exceeded? = none ↔ statement.WithinLimits := by
  have hjoined : statement.exceededJoined? = none ↔ statement.WithinLimits :=
    limitOf_eq_none_iff.trans ⟨fun h => ⟨h.1, h.2⟩, fun h => ⟨h.arity_le, h.depth_le⟩⟩
  rw [exceeded?, Option.or_eq_none_iff, hjoined]
  refine and_iff_right_of_imp fun h => ?_
  -- what is exceeded while a statement is read, the whole of it exceeds
  unfold exceededRead?
  split
  · refine exceededFrom_eq_none_iff.mpr ⟨h.arity_le, ?_⟩
    have hdepth := h.depth_le
    rw [depth] at hdepth
    omega
  · exact limitOf_eq_none_iff.mpr ⟨h.arity_le, h.depth_le⟩

end Statement

end ScanCatalog
