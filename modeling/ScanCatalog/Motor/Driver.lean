import ScanCatalog.Action
import ScanCatalog.Sql.Tables

/-!
# Drivers of the motor tables

The motor store talks to a database by a driver. Each call of a driver is an action on
its state; a statement and the rows that it selects are one call.

## Main definitions

* `MotorsConfig`: what a driver is told when it connects;
* `SqlDriver`: the calls of a driver.
-/

namespace ScanCatalog

/-- How to reach the motor tables. -/
structure MotorsConfig where
  dbType : Text := "mysql"
  dbFile : Text := "motors.db"
  host : Text := "localhost"
  portNumber : Int := 3306
  user : Text := "root"
  password : Text := "root"
  database : Text := "motors"
deriving DecidableEq, Repr

/-- The calls of a driver. -/
structure SqlDriver (σ : Type) where
  /-- opens a connection -/
  connect : MotorsConfig → Action σ Unit
  /-- opens a cursor on the connection -/
  openCursor : Action σ Unit
  /-- runs a statement, with parameters if there are any -/
  execute : Statement → Option (List Value) → Action σ ResultSet
  /-- makes the changes since the last end of a transaction last -/
  commit : Action σ Unit
  /-- undoes the changes since the last end of a transaction -/
  rollback : Action σ Unit
  /-- closes the cursor -/
  closeCursor : Action σ Unit
  /-- closes the connection -/
  close : Action σ Unit

end ScanCatalog
