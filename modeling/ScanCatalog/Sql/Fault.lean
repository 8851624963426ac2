import ScanCatalog.Value.Fault

/-!
# Errors of a database driver

A driver reports an error of one of several kinds with arguments. The kinds that a
store handles are those under `Error`; integrity errors are told apart from the rest.

## Main definitions

* `argumentText`: the message of an error that was given arguments;
* `DriverFault.Kind`, `DriverFault`: an error of a driver;
* `DriverFault.isError`, `DriverFault.isIntegrity`: what a store handles.
-/

namespace ScanCatalog

/-- The message of an error that was given arguments: nothing, the one argument on
display, or all of them as a row. -/
def argumentText : List Value → Text
  | [] => Text.empty
  | [argument] => argument.display
  | arguments => Value.literalRow arguments

/-- The kind of a driver error. -/
inductive DriverFault.Kind
  | base
  | warning
  | error
  | interfaceError
  | databaseError
  | dataError
  | operationalError
  | integrityError
  | internalError
  | programmingError
  | notSupportedError
deriving DecidableEq, Repr

/-- An error of a driver. -/
structure DriverFault where
  kind : DriverFault.Kind
  arguments : List Value
deriving DecidableEq, Repr

namespace DriverFault

/-- The names of the kinds. -/
def Kind.names : List (Kind × Text) :=
  [(.base, "MySQLError"), (.warning, "Warning"), (.error, "Error"),
    (.interfaceError, "InterfaceError"), (.databaseError, "DatabaseError"),
    (.dataError, "DataError"), (.operationalError, "OperationalError"),
    (.integrityError, "IntegrityError"), (.internalError, "InternalError"),
    (.programmingError, "ProgrammingError"), (.notSupportedError, "NotSupportedError")]

/-- The name of a kind. -/
def Kind.name (kind : Kind) : Text := (names.lookup kind).getD "Error"

/-- The kind of a name. -/
def Kind.ofName? (name : Text) : Option Kind := (names.find? (·.2 == name)).map (·.1)

/-- The message of a driver error. -/
def message (fault : DriverFault) : Text := argumentText fault.arguments

/-- Whether a store handles the error: all kinds but warnings and the common base. -/
def isError (fault : DriverFault) : Bool :=
  match fault.kind with
  | .base | .warning => false
  | _ => true

/-- Whether the error reports a broken constraint. -/
def isIntegrity (fault : DriverFault) : Bool := fault.kind == .integrityError

end DriverFault

end ScanCatalog
