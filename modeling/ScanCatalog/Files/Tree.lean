import ScanCatalog.Fault
import ScanCatalog.Files.Path
import ScanCatalog.Text.Lines

/-!
# Files

Paths lead to files from the working directory or, if they begin with a mark, from the
root directory. Every name on the way but the last has to be that of a directory.
Nothing is known of what lies above the working directory, only that it is there.

## Main definitions

* `FileTree`: the contents of files by their places;
* `FileTree.walk`: the place that a path leads to;
* `FileTree.leadsTo`: whether there is something under a path;
* `FileTree.read`: the bytes under a path;
* `FileTree.readText`: the text under a path, its line ends as line feeds.
-/

namespace ScanCatalog

/-- The contents of files by their places. -/
structure FileTree where
  files : List (Place × List Nat)
deriving DecidableEq, Repr

namespace FileTree

/-- The tree of files with these paths. -/
def ofPaths (files : List (Text × List Nat)) : FileTree :=
  ⟨files.map fun file =>
    let octets := Path.rawOctets file.1
    ((Path.names octets).foldl Place.step (Place.start octets), file.2)⟩

/-- The bytes of the file at a place. -/
def fileAt? (tree : FileTree) (place : Place) : Option (List Nat) := tree.files.lookup place

/-- Whether there is a directory at a place. -/
def isDirectory (tree : FileTree) (place : Place) : Bool :=
  place.isAbove || place == Place.root ||
    tree.files.any fun file => place.length < file.1.length && place.isPrefixOf file.1

/-- The place that names lead to. -/
def walk (tree : FileTree) (path : Text) : Place → List (List Nat) → Except FileFault Place
  | place, [] => .ok place
  | place, name :: rest =>
    if tree.isDirectory place then
      if Path.nameLimit < name.length then .error (.nameTooLong path)
      else walk tree path (place.step name) rest
    else if (tree.fileAt? place).isSome then .error (.notDirectory path)
    else .error (.notFound path)

/-- The place that a path leads to. -/
def find (tree : FileTree) (path : Text) (octets : List Nat) : Except FileFault Place :=
  if octets.isEmpty then .error (.notFound path)
  else if Path.lengthLimit ≤ octets.length then .error (.nameTooLong path)
  else tree.walk path (Place.start octets) (Path.followed octets)

/-- Whether the octets of a path lead to a file or a directory. -/
def leadsTo (tree : FileTree) (octets : List Nat) : Bool :=
  match tree.find Text.empty octets with
  | .ok place => tree.isDirectory place || (tree.fileAt? place).isSome
  | .error _ => false

/-- The bytes of the file under a path. -/
def read (tree : FileTree) (path : Text) : Except Fault (List Nat) :=
  match Path.octets path with
  | .error fault => .error (.value fault)
  | .ok octets =>
    match tree.find path octets with
    | .error fault => .error (.file fault)
    | .ok place =>
      if tree.isDirectory place then .error (.file (.isDirectory path))
      else
        match tree.fileAt? place with
        | none => .error (.file (.notFound path))
        | some contents => .ok contents

/-- The text of the file under a path. -/
def readText (tree : FileTree) (path : Text) : Except Fault Text := do
  let octets ← tree.read path
  match Text.ofUtf8 octets with
  | .ok t => .ok ⟨Text.unifyLineEnds t.codes⟩
  | .error fault => .error (.value (.notUtf8 fault))

end FileTree

end ScanCatalog
