import ScanCatalog.Sql.Fault

/-!
# What can go wrong in the motor store

## Main definitions

* `MotorStoreFault`: the causes; those that a driver reports carry its error;
* `MotorStoreFault.message`: their messages;
* `duplicateScanMessage`: the message for a scan that is already stored.
-/

namespace ScanCatalog

/-- What went wrong in the motor store. -/
inductive MotorStoreFault
  | unsupportedType (name : Text)
  | notConnected
  | connect (reason : DriverFault)
  | schema (reason : DriverFault)
  | insert (sid : Value) (reason : DriverFault)
  | replace (sid : Value) (reason : DriverFault)
  | count (reason : DriverFault)
  | query (reason : DriverFault)
  /-- no scan of this sid is stored -/
  | unknownScan (sid : Value)
  | badMnemonic (mnemonic : Value)
  | badPosition (mnemonic : Text) (position : Value)
deriving DecidableEq, Repr

namespace MotorStoreFault

/-- The message of a motor store fault. -/
def message : MotorStoreFault → Text
  | .unsupportedType name => "Unsupported motors db type '" ++ name ++ "'"
  | .notConnected => "Not connected to motors database"
  | .connect reason => "Could not connect to motors database: " ++ reason.message
  | .schema reason => "Could not create motors schema: " ++ reason.message
  | .insert sid reason =>
    "Could not insert motor record " ++ sid.display ++ ": " ++ reason.message
  | .replace sid reason =>
    "Could not replace motors for sid " ++ sid.display ++ ": " ++ reason.message
  | .count reason => "Could not count motor records: " ++ reason.message
  | .query reason => "Could not query motor positions database: " ++ reason.message
  | .unknownScan sid => "Scan id " ++ sid.display ++ " not found in motors database"
  | .badMnemonic mnemonic => "Invalid motor mnemonic " ++ mnemonic.literal
  | .badPosition mnemonic position =>
    "Position of motor '" ++ mnemonic ++ "' must be a finite number, got " ++ position.literal

end MotorStoreFault

/-- The message for a scan that is already stored; an empty detail is left out. -/
def duplicateScanMessage (sid : Value) (detail : Text) : Text :=
  let base := "Scan id " ++ sid.display ++ " already exists in motors database"
  if detail.isEmpty then base else base ++ " (" ++ detail ++ ")"

end ScanCatalog
