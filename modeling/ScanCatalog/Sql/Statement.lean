import ScanCatalog.Motor.Query

/-!
# Statements of the motor tables

A scan is kept in three tables: `ScanIds` has a row for each scan, `MotorMnes` a row
for each motor of a scan, and `MotorPositions` a row for each motor with its position.
Every statement that the motor store runs is one of `Statement`; values of users are
parameters and never part of its text.

## Main definitions

* `Dialect`: the two dialects;
* `SchemaPart`, `Statement`: the statements;
* `Statement.text`: the text of a statement in a dialect;
* `Statement.arity`: the number of its parameters;
* `Statement.ofQueries`, `parametersOf`: the selection of scans by queries, with
  its parameters.
-/

namespace ScanCatalog

/-- A dialect of statements. -/
inductive Dialect
  | mysql
  | sqlite
deriving DecidableEq, Repr

namespace Dialect

/-- The name of a dialect. -/
def name : Dialect → Text
  | .mysql => "mysql"
  | .sqlite => "sqlite"

/-- The dialect of a name. -/
def ofName? (name : Text) : Option Dialect :=
  if name = "mysql" then some .mysql else if name = "sqlite" then some .sqlite else none

/-- What stands for a parameter. -/
def placeholder : Dialect → Text
  | .mysql => "%s"
  | .sqlite => "?"

/-- Placeholders for so many parameters. -/
def placeholders (dialect : Dialect) (count : Nat) : Text :=
  Text.join ", " (List.replicate count dialect.placeholder)

end Dialect

/-- A part of the schema: a table or an index. -/
inductive SchemaPart
  | scans
  | mnemonics
  | positions
  | mnemonicsIndex
  | positionsIndex
deriving DecidableEq, Repr

/-- The parts of the schema that a dialect creates by statements of their own. -/
def Dialect.schema : Dialect → List SchemaPart
  | .mysql => [.scans, .mnemonics, .positions]
  | .sqlite => [.scans, .mnemonics, .positions, .mnemonicsIndex, .positionsIndex]

/-- The statement that creates a part of the schema. -/
def SchemaPart.text : Dialect → SchemaPart → Text
  | .mysql, .scans =>
    "CREATE TABLE IF NOT EXISTS ScanIds ( scan_id BIGINT AUTO_INCREMENT PRIMARY KEY," ++
      " sid DOUBLE NOT NULL UNIQUE)"
  | .mysql, .mnemonics =>
    "CREATE TABLE IF NOT EXISTS MotorMnes ( motor_id BIGINT AUTO_INCREMENT PRIMARY KEY," ++
      " scan_id BIGINT NOT NULL, motor_mne VARCHAR(255) NOT NULL," ++
      " INDEX idx_motormnes_scan (scan_id, motor_mne)," ++
      " FOREIGN KEY (scan_id) REFERENCES ScanIds (scan_id))"
  | .mysql, .positions =>
    "CREATE TABLE IF NOT EXISTS MotorPositions ( motor_id BIGINT NOT NULL," ++
      " motor_position DOUBLE, INDEX idx_motorpositions_motor (motor_id)," ++
      " FOREIGN KEY (motor_id) REFERENCES MotorMnes (motor_id))"
  | .sqlite, .scans =>
    "CREATE TABLE IF NOT EXISTS ScanIds ( scan_id INTEGER PRIMARY KEY AUTOINCREMENT," ++
      " sid REAL NOT NULL UNIQUE)"
  | .sqlite, .mnemonics =>
    "CREATE TABLE IF NOT EXISTS MotorMnes ( motor_id INTEGER PRIMARY KEY AUTOINCREMENT," ++
      " scan_id INTEGER NOT NULL REFERENCES ScanIds (scan_id), motor_mne VARCHAR(255) NOT NULL)"
  | .sqlite, .positions =>
    "CREATE TABLE IF NOT EXISTS MotorPositions (" ++
      " motor_id INTEGER NOT NULL REFERENCES MotorMnes (motor_id), motor_position REAL)"
  | _, .mnemonicsIndex =>
    "CREATE INDEX IF NOT EXISTS idx_motormnes_scan ON MotorMnes (scan_id, motor_mne)"
  | _, .positionsIndex =>
    "CREATE INDEX IF NOT EXISTS idx_motorpositions_motor ON MotorPositions (motor_id)"

/-- A condition on the position of a motor. -/
inductive PositionCondition
  /-- the position is one of so many parameters -/
  | oneOf (count : Nat)
  /-- the position is above a parameter, or at it if inclusive -/
  | above (inclusive : Bool)
  /-- the position is below a parameter, or at it if inclusive -/
  | below (inclusive : Bool)
deriving DecidableEq, Repr

/-- A condition on a scan: that it has a motor of a mnemonic whose position satisfies
some conditions, or that it has none. Without conditions the position does not matter
and need not be there. -/
structure MotorCondition where
  negated : Bool
  onPosition : List PositionCondition
deriving DecidableEq, Repr

/-- A statement of the motor store. -/
inductive Statement
  | createDatabase (name : Text)
  | useDatabase (name : Text)
  | create (part : SchemaPart)
  | insertScan
  | insertMnemonic
  | insertPosition
  | deletePositions
  | deleteMnemonics
  | selectScanId
  | countScans
  | selectBySids (count : Nat)
  | selectByConditions (conditions : List MotorCondition)
deriving DecidableEq, Repr

namespace PositionCondition

/-- The text of a condition on the position; a set without members has none. -/
def text (dialect : Dialect) : PositionCondition → Text
  | .oneOf 0 => "1 = 0"
  | .oneOf count => "mp.motor_position IN (" ++ dialect.placeholders count ++ ")"
  | .above inclusive =>
    "mp.motor_position " ++ (if inclusive then ">=" else ">") ++ " " ++ dialect.placeholder
  | .below inclusive =>
    "mp.motor_position " ++ (if inclusive then "<=" else "<") ++ " " ++ dialect.placeholder

/-- The number of parameters of a condition on the position. -/
def arity : PositionCondition → Nat
  | .oneOf count => count
  | .above _ | .below _ => 1

end PositionCondition

namespace MotorCondition

/-- The tables of a sub-select. -/
def source (condition : MotorCondition) : Text :=
  if condition.onPosition.isEmpty then "MotorMnes mm"
  else "MotorMnes mm JOIN MotorPositions mp ON mp.motor_id = mm.motor_id"

/-- The text of a condition on a scan. -/
def text (dialect : Dialect) (condition : MotorCondition) : Text :=
  let conditions : List Text :=
    Text.ofString "mm.scan_id = s.scan_id" :: ("mm.motor_mne = " ++ dialect.placeholder) ::
      condition.onPosition.map (PositionCondition.text dialect)
  (if condition.negated then "NOT EXISTS" else "EXISTS") ++ " (SELECT 1 FROM " ++
    condition.source ++ " WHERE " ++ Text.join " AND " conditions ++ ")"

/-- The number of parameters of a condition on a scan. -/
def arity (condition : MotorCondition) : Nat :=
  condition.onPosition.foldr (fun part count => part.arity + count) 1

/-- The number of parameters of conditions on a scan. -/
def arities : List MotorCondition → Nat
  | [] => 0
  | condition :: rest => condition.arity + arities rest

end MotorCondition

namespace Statement

/-- The selection of the motors of scans: a row for each motor, with its scan and its
position, and a row for each scan without motors. -/
def selectMotors : Text :=
  "SELECT s.sid, m.motor_mne, p.motor_position FROM ScanIds s " ++
    "LEFT JOIN MotorMnes m ON m.scan_id = s.scan_id " ++
    "LEFT JOIN MotorPositions p ON p.motor_id = m.motor_id"

/-- The order of selected rows: by scan, then by motor. -/
def order : Text := " ORDER BY s.scan_id, m.motor_id"

/-- The text of a statement in a dialect. -/
def text (dialect : Dialect) : Statement → Text
  | .createDatabase name => "CREATE DATABASE IF NOT EXISTS \x60" ++ name ++ "\x60"
  | .useDatabase name => "USE \x60" ++ name ++ "\x60"
  | .create part => part.text dialect
  | .insertScan => "INSERT INTO ScanIds (sid) VALUES (" ++ dialect.placeholders 1 ++ ")"
  | .insertMnemonic =>
    "INSERT INTO MotorMnes (scan_id, motor_mne) VALUES (" ++ dialect.placeholders 2 ++ ")"
  | .insertPosition =>
    "INSERT INTO MotorPositions (motor_id, motor_position) VALUES (" ++ dialect.placeholders 2 ++
      ")"
  | .deletePositions =>
    "DELETE FROM MotorPositions WHERE motor_id IN " ++
      "(SELECT motor_id FROM MotorMnes WHERE scan_id = " ++ dialect.placeholder ++ ")"
  | .deleteMnemonics => "DELETE FROM MotorMnes WHERE scan_id = " ++ dialect.placeholder
  | .selectScanId => "SELECT scan_id FROM ScanIds WHERE sid = " ++ dialect.placeholder
  | .countScans => "SELECT COUNT(*) FROM ScanIds"
  | .selectBySids count =>
    selectMotors ++ " WHERE s.sid IN (" ++ dialect.placeholders count ++ ")" ++ order
  | .selectByConditions conditions =>
    let conditionText : Text :=
      if conditions.isEmpty then Text.empty
      else " WHERE " ++ Text.join " AND " (conditions.map (MotorCondition.text dialect))
    selectMotors ++ conditionText ++ order

/-- The number of parameters of a statement. -/
def arity : Statement → Nat
  | .insertScan | .deletePositions | .deleteMnemonics | .selectScanId => 1
  | .insertMnemonic | .insertPosition => 2
  | .selectBySids count => count
  | .selectByConditions conditions => MotorCondition.arities conditions
  | .createDatabase _ | .useDatabase _ | .create _ | .countScans => 0

/-- Whether a statement inserts a row. -/
def isInsert : Statement → Bool
  | .insertScan | .insertMnemonic | .insertPosition => true
  | _ => false

/-- Whether a statement changes rows. -/
def isChange : Statement → Bool
  | .insertScan | .insertMnemonic | .insertPosition | .deletePositions | .deleteMnemonics => true
  | _ => false

/-- The table that a statement on rows names first. -/
def table? : Statement → Option Text
  | .insertScan | .selectScanId | .countScans | .selectBySids _ | .selectByConditions _ =>
    some "ScanIds"
  | .insertMnemonic | .deleteMnemonics => some "MotorMnes"
  | .insertPosition | .deletePositions => some "MotorPositions"
  | .createDatabase _ | .useDatabase _ | .create _ => none

/-- Whether a statement selects rows. -/
def isSelect : Statement → Bool
  | .selectScanId | .countScans | .selectBySids _ | .selectByConditions _ => true
  | _ => false

end Statement

namespace PositionQuery

/-- The conditions on the position of a query: its set, then its bounds. -/
def conditionsOf (query : PositionQuery) : List PositionCondition :=
  (query.exact.map fun values => .oneOf values.length).toList ++
    (query.minimum.map fun _ => .above query.minInclusive).toList ++
    (query.maximum.map fun _ => .below query.maxInclusive).toList

/-- The condition on a scan that a query makes. A motor that has to be absent has no
conditions on its position. -/
def toCondition (query : PositionQuery) : MotorCondition where
  negated := !query.present
  onPosition := if query.present then query.conditionsOf else []

/-- The parameters of the condition that a query makes, in the order of its
placeholders. -/
def parameters (query : PositionQuery) : List Value :=
  query.mnemonic ::
    if query.present then
      query.exact.getD [] ++ query.minimum.toList ++ query.maximum.toList
    else []

end PositionQuery

/-- The selection of the scans that satisfy all queries. -/
def Statement.ofQueries (queries : List PositionQuery) : Statement :=
  .selectByConditions (queries.map PositionQuery.toCondition)

/-- The parameters of the selection of the scans that satisfy all queries. -/
def parametersOf (queries : List PositionQuery) : List Value :=
  queries.flatMap PositionQuery.parameters

end ScanCatalog
