import ScanCatalog.CommandLine.Run
import ScanCatalog.Document.Collection
import ScanCatalog.Motor.TableDriver
import Std.Time.DateTime.Timestamp

/-!
# The program

Collects what a run finds and writes what it gives. The stores are kept in memory, so
they end with the run, and neither a database server nor a web source can be reached.
-/

namespace ScanCatalog.Program

/-- The variables that are set. -/
def readVariables : IO Environment :=
  AppConfig.variableNames.filterMapM fun name => do
    return (← IO.getEnv name.toString).map fun value => (name, Text.ofString value)

/-- The file under a path, if it can be read; a directory is known by a file below it. -/
def readFile? (path : Text) : IO (Option (Text × List Nat)) := do
  try
    let bytes ← IO.FS.readBinFile path.toString
    return some (path, bytes.toList.map UInt8.toNat)
  catch
    | .inappropriateType _ 21 _ => return some (path ++ "/entry", [])
    | _ => return none

/-- The path of the body that a command reads. -/
def bodyPath? : Command → Option Text
  | .add path | .edit path => some path
  | .initDb | .search .. => none

/-- The paths that a run looks up. -/
def pathsOf (arguments : List Text) (environment : Environment) : List Text :=
  let body :=
    match Invocation.ofArguments arguments with
    | .ok invocation => (bodyPath? invocation.command).toList
    | .error _ => []
  let settings :=
    match AppConfig.ofEnvironment environment with
    | .ok config =>
      config.motors.dbFile :: (config.service.schemaFile.toList ++ config.service.serviceMap.toList)
    | .error _ => []
  body ++ settings

/-- All bytes that are left in a stream. -/
partial def readAll (stream : IO.FS.Stream) (before : ByteArray) : IO ByteArray := do
  let bytes ← stream.read 65536
  if bytes.isEmpty then return before else readAll stream (before ++ bytes)

/-- The bytes that are put in, if the arguments ask for them. -/
def readInput (arguments : List Text) : IO (List Nat) := do
  if arguments.contains "-" then
    return (← readAll (← IO.getStdin) ByteArray.empty).toList.map UInt8.toNat
  else return []

/-- The time in nanoseconds. -/
def readClock : IO Int := do
  return (← Std.Time.Timestamp.now).toNanosecondsSinceUnixEpoch.val

/-- Writes how a run ended, and gives the code to exit with. -/
def finish : RunResult → IO UInt32
  | .refused (.help level) => do
    IO.print level.help.toString
    return 0
  | .refused (.misuse level fault) => do
    IO.eprint (fault.report level).toString
    return 2
  | .misconfigured fault | .performed _ (.error fault) => do
    IO.eprintln (fault.kind ++ ": " ++ fault.message).toString
    return 1
  | .performed _ (.ok output) => do
    IO.print output.out.toString
    IO.eprint output.err.toString
    return output.exit.toUInt32

end ScanCatalog.Program

open ScanCatalog in
/-- Runs a command of the catalog. -/
def main (arguments : List String) : IO UInt32 := do
  let arguments := arguments.map Text.ofString
  let environment ← Program.readVariables
  let files := FileTree.ofPaths
    (← (Program.pathsOf arguments environment).filterMapM Program.readFile?)
  let surroundings : Surroundings TableServer Collections :=
    { driverFor := TableServer.driverFor
      documentStore := fun _ => Collections.store
      files
      fetch := fun _ => .failed "web sources cannot be reached"
      environment
      input := ← Program.readInput arguments }
  let start : CatalogState TableServer Collections :=
    ⟨⟨false, ⟨⟨files, []⟩, none⟩⟩, {}, .ofReadings [← Program.readClock]⟩
  Program.finish (surroundings.run arguments start).1
