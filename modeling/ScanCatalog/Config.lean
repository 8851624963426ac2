import ScanCatalog.Document.Client
import ScanCatalog.Files.Path
import ScanCatalog.Motor.Driver
import ScanCatalog.Text.Blank
import ScanCatalog.Text.Case
import ScanCatalog.Value.Conversion

/-!
# Configuration

The catalog is configured by variables of the environment. A variable that is not set
has a default; some variables count as not set if they are empty.

## Main definitions

* `ServiceConfig`, `AppConfig`: the settings;
* `Environment.ofPairs`: the variables that texts set;
* `AppConfig.ofEnvironment`: the settings of an environment;
* `LogLevel.ofVerbosity`: how much is logged.
-/

namespace ScanCatalog

/-- Settings of the service. -/
structure ServiceConfig where
  name : Text := "SpecScans"
  schemaFile : Option Text := none
  serviceMap : Option Text := none
  maxWorkers : Int := 8
  strictRouting : Bool := false
  verbose : Int := 0
deriving DecidableEq, Repr

/-- All settings. -/
structure AppConfig where
  motors : MotorsConfig := {}
  mongo : MongoConfig := {}
  service : ServiceConfig := {}
deriving DecidableEq, Repr

/-- Variables with their values. -/
abbrev Environment := List (Text × Text)

namespace Environment

/-- The variables that texts set. The name of a variable and its value have octets, as
paths have: there are no null code points and no surrogates but those of lone octets. -/
def ofPairs (pairs : List (Text × Text)) : Except ValueFault Environment :=
  pairs.mapM fun pair => do
    let _ ← Path.octets pair.1
    let _ ← Path.octets pair.2
    return pair

/-- The value of a variable, or a default. -/
def textOr (env : Environment) (name default : Text) : Text := (env.lookup name).getD default

/-- The value of a variable, unless it is empty. -/
def filled? (env : Environment) (name : Text) : Option Text :=
  (env.lookup name).filter fun t => !t.isEmpty

/-- The integer of a variable, or a default. -/
def intOr (env : Environment) (name : Text) (default : Int) : Except Fault Int :=
  match env.lookup name with
  | none => .ok default
  | some t => liftValue (Value.text t).toInt

/-- The words that switch a setting on. -/
def yesWords : List Text := ["1", "true", "yes", "on"]

/-- Whether a variable switches a setting on. -/
def isOn (env : Environment) (name : Text) : Bool :=
  yesWords.contains (env.textOr name Text.empty).strip.lower

end Environment

namespace AppConfig

/-- The settings for the motor tables. -/
def motorsOf (env : Environment) : Except Fault MotorsConfig := do
  let portNumber ← env.intOr "MOTORS_DB_PORT" 3306
  return {
    dbType := (env.textOr "MOTORS_DB_TYPE" "mysql").lower
    dbFile := env.textOr "MOTORS_DB_FILE" "motors.db"
    host := env.textOr "MOTORS_DB_HOST" "localhost"
    portNumber
    user := env.textOr "MOTORS_DB_USER" "root"
    password := env.textOr "MOTORS_DB_PASSWORD" "root"
    database := env.textOr "MOTORS_DB_NAME" "motors" }

/-- The settings for the documents. -/
def mongoOf (env : Environment) : Except Fault MongoConfig := do
  let portNumber ← env.intOr "MONGO_PORT" 27017
  return {
    host := env.textOr "MONGO_HOST" "localhost"
    portNumber
    user := env.filled? "MONGO_USER"
    password := env.filled? "MONGO_PASSWORD"
    database := env.textOr "MONGO_DATABASE" "foxden"
    collection := env.textOr "MONGO_COLLECTION" "specscans" }

/-- The settings for the service. -/
def serviceOf (env : Environment) : Except Fault ServiceConfig := do
  let maxWorkers ← env.intOr "SPECSCANS_MAX_WORKERS" 8
  let verbose ← env.intOr "SPECSCANS_VERBOSE" 0
  return {
    name := env.textOr "SPECSCANS_SERVICE" "SpecScans"
    schemaFile := env.filled? "SPECSCANS_SCHEMA_FILE"
    serviceMap := env.filled? "SPECSCANS_SERVICE_MAP"
    maxWorkers
    strictRouting := env.isOn "SPECSCANS_STRICT_ROUTING"
    verbose }

/-- The variables that settings are taken from. -/
def variableNames : List Text :=
  ["MOTORS_DB_TYPE", "MOTORS_DB_FILE", "MOTORS_DB_HOST", "MOTORS_DB_PORT", "MOTORS_DB_USER",
    "MOTORS_DB_PASSWORD", "MOTORS_DB_NAME", "MONGO_HOST", "MONGO_PORT", "MONGO_USER",
    "MONGO_PASSWORD", "MONGO_DATABASE", "MONGO_COLLECTION", "SPECSCANS_SERVICE",
    "SPECSCANS_SCHEMA_FILE", "SPECSCANS_SERVICE_MAP", "SPECSCANS_MAX_WORKERS",
    "SPECSCANS_STRICT_ROUTING", "SPECSCANS_VERBOSE"]

/-- The settings of an environment. -/
def ofEnvironment (env : Environment) : Except Fault AppConfig := do
  return { motors := ← motorsOf env, mongo := ← mongoOf env, service := ← serviceOf env }

end AppConfig

/-- How much is logged. -/
inductive LogLevel
  | warning
  | info
  | debug
deriving DecidableEq, Repr

namespace LogLevel

/-- The name of a level. -/
def name : LogLevel → Text
  | .warning => "WARNING"
  | .info => "INFO"
  | .debug => "DEBUG"

/-- The level for a count of wishes for more. -/
def ofVerbosity (verbose : Int) : LogLevel :=
  if 2 ≤ verbose then .debug else if verbose = 1 then .info else .warning

end LogLevel

end ScanCatalog
