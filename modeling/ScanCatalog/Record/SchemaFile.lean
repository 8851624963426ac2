import ScanCatalog.Files.Tree
import ScanCatalog.Record.Body
import ScanCatalog.Record.Schema

/-!
# Schema files

A schema may stand in a file: a JSON array of descriptions.

## Main definitions

* `Schema.load`: the schema of a file, or the empty one if no path is given.
-/

namespace ScanCatalog

namespace Schema

/-- The value of a schema file. Faults of the file and of its JSON are reported as
faults of the schema, but bytes that are not UTF-8 and integers that are too long
are not. -/
def loadValue (tree : FileTree) (path : Text) : Except Fault Value :=
  match tree.readText (Path.tidy path) with
  | .error (.file fault) => .error (.schema (.unreadable path fault.message))
  | .error fault => .error fault
  | .ok t => decodeStored (fun m => .schema (.unreadable path m.message)) t

/-- The schema of a file; without a path there is nothing to check. -/
def load (tree : FileTree) (path : Option Text) : Except Fault Schema :=
  match path with
  | none => .ok empty
  | some path =>
    if path.isEmpty then .ok empty
    else do
      match ← loadValue tree path with
      | .list items => ofItems items
      | _ => .error (.schema (.notArray path))

end Schema

end ScanCatalog
