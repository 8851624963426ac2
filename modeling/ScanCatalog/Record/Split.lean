import ScanCatalog.Record.SidClock
import ScanCatalog.Value.Order

/-!
# Splitting and completing records

A record is stored in two parts that share its sid: a document with all fields but
the motors, and a motor record with the motors. Completing puts the parts together
again.

## Main definitions

* `MotorRecord`: a sid and the positions of motors;
* `deriveSid`: the sid of a record, from its start time or from the clock;
* `decompose`: the two parts of a record;
* `complete`: the record of two parts.
-/

namespace ScanCatalog

/-- The key of the sid in a record. -/
abbrev sidKey : Value := "sid"

/-- The key of the start time in a record. -/
abbrev startTimeKey : Value := "start_time"

/-- The key of the motors in a record. -/
abbrev motorsKey : Value := "motors"

/-- A scan by its sid and the positions of its motors. -/
structure MotorRecord where
  sid : Value
  motors : Entries := []
deriving DecidableEq, Repr

/-- The motor record as a mapping. -/
def MotorRecord.toEntries (record : MotorRecord) : Entries :=
  [(sidKey, record.sid), (motorsKey, .map record.motors)]

namespace Value

/-- Whether a value is a number below zero. -/
def isNegativeNumber (v : Value) : Bool :=
  match v with
  | .int i => i < 0
  | .float x => x.less .zero
  | _ => false

end Value

/-- The sid of a record: its start time if that is a finite number, unless the record
asks for a sid below zero; else one from the clock. -/
def deriveSid (record : Entries) : Action SidClock Binary64 :=
  if (record.get sidKey).isNegativeNumber then SidClock.next
  else
    let start := record.get startTimeKey
    if start.isNumber then
      match start.toReal with
      | .ok x => if x.isFinite then Action.pure x else SidClock.next
      | .error fault => Action.fail fault
    else SidClock.next

/-- The entries of motors with their mnemonics as texts and their positions as
numbers. -/
def positionsOf : Entries → Entries → Except Fault Entries
  | taken, [] => .ok taken
  | taken, (mnemonic, position) :: rest =>
    match position.toReal with
    | .ok x => positionsOf (taken.set (.text mnemonic.display) (.float x)) rest
    | .error fault => .error fault

/-- The motors of a record: a mapping, or anything that counts as false for none. -/
def motorsOf (record : Entries) : Except Fault Entries :=
  let motors := record.get motorsKey
  if motors.truth then
    match motors with
    | .map entries => positionsOf [] entries
    | v => .error (.value (.noMember v.kindName "items"))
  else .ok []

/-- The document part of a record with a sid. -/
def documentOf (record : Entries) (sid : Binary64) : Entries :=
  Entries.set (record.erase motorsKey) sidKey (.float sid)

/-- The two parts of a record. -/
def decompose (record : Entries) : Action SidClock (Entries × MotorRecord) := do
  let sid ← deriveSid record
  let motors ← Action.ofExcept (motorsOf record)
  return (documentOf record sid, ⟨.float sid, motors⟩)

/-- The record of two parts, which must have the same sid. -/
def complete (document : Entries) (motorRecord : MotorRecord) : Except Fault Entries :=
  let sid := document.get sidKey
  if sid.same motorRecord.sid then .ok (document.set motorsKey (.map motorRecord.motors))
  else .error (.sidMismatch sid motorRecord.sid)

end ScanCatalog
