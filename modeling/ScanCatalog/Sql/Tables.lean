import ScanCatalog.Sql.Cell
import ScanCatalog.Sql.Statement

/-!
# The motor tables

The meaning of each statement of the motor store on the three tables. Rows get their
numbers in turn, and a number is not given out again; a table that has given out the
last one takes no more rows.

## Main definitions

* `Tables`: the rows of the three tables;
* `Tables.holds`: whether a scan satisfies the condition of a selection;
* `Tables.execute`: what a statement does to the tables, and the rows that it selects;
* `Tables.motorRows`: the rows of a scan in a selection.
-/

namespace ScanCatalog

/-- A row of the table of scans. -/
structure ScanRow where
  scanId : Nat
  sid : Cell
deriving DecidableEq, Repr

/-- A row of the table of mnemonics. -/
structure MnemonicRow where
  motorId : Nat
  scanId : Cell
  mnemonic : Cell
deriving DecidableEq, Repr

/-- A row of the table of positions. -/
structure PositionRow where
  motorId : Cell
  position : Cell
deriving DecidableEq, Repr

/-- The rows of the three tables, in the order in which they were put in, and the last
numbers given out. -/
structure Tables where
  scans : List ScanRow := []
  mnemonics : List MnemonicRow := []
  positions : List PositionRow := []
  lastScan : Nat := 0
  lastMotor : Nat := 0
deriving DecidableEq, Repr

/-- What a statement gives: the rows it selects, and the number of the row that was
put in last. -/
structure ResultSet where
  rows : List (List Value) := []
  lastId : Value := .null
deriving DecidableEq, Repr

namespace PositionCondition

/-- Whether a position satisfies a condition with its parameters. A condition compares
the position with what a number column makes of a parameter. -/
def holds (condition : PositionCondition) (parameters : List Cell) (position : Cell) : Bool :=
  match condition, parameters with
  | .oneOf _, members => members.any fun member => position.same member.asNumeric
  | .above inclusive, [bound] =>
    if inclusive then bound.asNumeric.atMost position else bound.asNumeric.less position
  | .below inclusive, [bound] =>
    if inclusive then position.atMost bound.asNumeric else position.less bound.asNumeric
  | _, _ => false

/-- Whether a position satisfies all conditions, which take their parameters in turn. -/
def allHold : List PositionCondition → List Cell → Cell → Bool
  | [], _, _ => true
  | condition :: rest, parameters, position =>
    condition.holds (parameters.take condition.arity) position &&
      allHold rest (parameters.drop condition.arity) position

end PositionCondition

namespace Tables

/-- The mnemonics of a scan, in order. -/
def mnemonicsOf (tables : Tables) (scanId : Nat) : List MnemonicRow :=
  tables.mnemonics.filter fun m => m.scanId.same (.int scanId)

/-- The positions of a motor, in order. -/
def positionsOf (tables : Tables) (motorId : Nat) : List PositionRow :=
  tables.positions.filter fun p => p.motorId.same (.int motorId)

/-- Whether a scan has a motor of a mnemonic that satisfies some conditions on its
position. -/
def hasMotor (tables : Tables) (scanId : Nat) (mnemonic : Cell)
    (conditions : List PositionCondition) (parameters : List Cell) : Bool :=
  (tables.mnemonicsOf scanId).any fun m =>
    m.mnemonic.same mnemonic.asText &&
      (conditions.isEmpty ||
        (tables.positionsOf m.motorId).any fun p =>
          PositionCondition.allHold conditions parameters p.position)

/-- Whether a scan satisfies a condition with its parameters. -/
def holds (tables : Tables) (scanId : Nat) (condition : MotorCondition)
    (parameters : List Cell) : Bool :=
  match parameters with
  | mnemonic :: rest =>
    tables.hasMotor scanId mnemonic condition.onPosition rest != condition.negated
  | [] => false

/-- Whether a scan satisfies all conditions, which take their parameters in turn. -/
def allHold (tables : Tables) (scanId : Nat) : List MotorCondition → List Cell → Bool
  | [], _ => true
  | condition :: rest, parameters =>
    tables.holds scanId condition (parameters.take condition.arity) &&
      allHold tables scanId rest (parameters.drop condition.arity)

/-- The rows of a motor in a selection: one for each position, or one without. -/
def positionRows (tables : Tables) (sid : Cell) (m : MnemonicRow) : List (List Cell) :=
  match tables.positionsOf m.motorId with
  | [] => [[sid, m.mnemonic, .null]]
  | positions => positions.map fun p => [sid, m.mnemonic, p.position]

/-- The rows of a scan in a selection: those of its motors, or one without a motor. -/
def motorRows (tables : Tables) (scan : ScanRow) : List (List Cell) :=
  match tables.mnemonicsOf scan.scanId with
  | [] => [[scan.sid, .null, .null]]
  | mnemonics => mnemonics.flatMap (tables.positionRows scan.sid)

/-- The selection of the motors of those scans that satisfy a condition. -/
def select (tables : Tables) (condition : ScanRow → Bool) : List (List Value) :=
  ((tables.scans.filter condition).flatMap tables.motorRows).map fun row =>
    row.map Cell.toValue

/-- The error of a broken constraint. -/
def constraintFault (words : Text) : Fault := .driver ⟨.integrityError, [.text words]⟩

/-- The last number of a row. -/
def lastNumber : Nat := 0x7FFFFFFFFFFFFFFF

/-- The error of a table that has given out its last number. -/
def fullFault : Fault := .driver ⟨.operationalError, [.text "database or disk is full"]⟩

/-- Puts in a scan, which needs a sid that no other has. -/
def insertScan (tables : Tables) (sid : Cell) : Except Fault (Tables × ResultSet) :=
  let sid := sid.asReal
  if lastNumber ≤ tables.lastScan then .error fullFault
  else if sid.isNull then .error (constraintFault "NOT NULL constraint failed: ScanIds.sid")
  else if tables.scans.any fun s => s.sid.same sid then
    .error (constraintFault "UNIQUE constraint failed: ScanIds.sid")
  else
    let scanId := tables.lastScan + 1
    .ok ({ tables with scans := tables.scans ++ [⟨scanId, sid⟩], lastScan := scanId },
      { lastId := .int scanId })

/-- Puts in a motor of a scan. -/
def insertMnemonic (tables : Tables) (scanId mnemonic : Cell) :
    Except Fault (Tables × ResultSet) :=
  if lastNumber ≤ tables.lastMotor then .error fullFault
  else if scanId.isNull then
    .error (constraintFault "NOT NULL constraint failed: MotorMnes.scan_id")
  else if mnemonic.isNull then
    .error (constraintFault "NOT NULL constraint failed: MotorMnes.motor_mne")
  else
    let motorId := tables.lastMotor + 1
    .ok ({ tables with
        mnemonics := tables.mnemonics ++ [⟨motorId, scanId.asNumeric, mnemonic.asText⟩]
        lastMotor := motorId },
      { lastId := .int motorId })

/-- Puts in the position of a motor. -/
def insertPosition (tables : Tables) (motorId position : Cell) :
    Except Fault (Tables × ResultSet) :=
  if motorId.isNull then
    .error (constraintFault "NOT NULL constraint failed: MotorPositions.motor_id")
  else
    .ok ({ tables with positions := tables.positions ++ [⟨motorId.asNumeric, position.asReal⟩] },
      { lastId := .int (tables.positions.length + 1) })

/-- Takes out the positions of the motors of a scan. -/
def deletePositions (tables : Tables) (scanId : Cell) : Tables :=
  { tables with
    positions := tables.positions.filter fun p =>
      !tables.mnemonics.any fun m => m.scanId.same scanId && p.motorId.same (.int m.motorId) }

/-- Takes out the motors of a scan. -/
def deleteMnemonics (tables : Tables) (scanId : Cell) : Tables :=
  { tables with mnemonics := tables.mnemonics.filter fun m => !m.scanId.same scanId }

/-- What a statement with the cells of its parameters does. The tables are there
already, and a file has no databases to choose from. -/
def execute (tables : Tables) (statement : Statement) (parameters : List Cell) :
    Except Fault (Tables × ResultSet) :=
  match statement, parameters with
  | .insertScan, [sid] => tables.insertScan sid
  | .insertMnemonic, [scanId, mnemonic] => tables.insertMnemonic scanId mnemonic
  | .insertPosition, [motorId, position] => tables.insertPosition motorId position
  | .deletePositions, [scanId] => .ok (tables.deletePositions scanId, {})
  | .deleteMnemonics, [scanId] => .ok (tables.deleteMnemonics scanId, {})
  | .selectScanId, [sid] =>
    let found := tables.scans.filter fun s => s.sid.same sid.asNumeric
    .ok (tables, { rows := found.map fun s => [.int s.scanId] })
  | .countScans, _ => .ok (tables, { rows := [[.int tables.scans.length]] })
  | .selectBySids _, sids =>
    .ok (tables, { rows := tables.select fun s => sids.any fun sid => s.sid.same sid.asNumeric })
  | .selectByConditions conditions, parameters =>
    .ok (tables, { rows := tables.select fun s => tables.allHold s.scanId conditions parameters })
  | _, _ => .ok (tables, {})

end Tables

end ScanCatalog
