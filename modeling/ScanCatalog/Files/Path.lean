import ScanCatalog.Value.Fault

/-!
# Paths

A path is a text; the names in it are octets. The code points U+DC80 to U+DCFF stand
for single octets that are not UTF-8, and all other surrogates have no octets. A place
is the names on the way to a file. It is counted from the working directory unless it
begins with the root, and what lies above the working directory is reached by the name
of the parent alone.

## Main definitions

* `Path.octets`: the octets of a path;
* `Path.names`: the names in a path;
* `Path.tidy`: a path without names that say nothing;
* `Place.above`, `Place.step`: going from one place to another.
-/

namespace ScanCatalog

/-- The names on the way to a file. -/
abbrev Place := List (List Nat)

namespace Path

/-- The octet between the names of a path. -/
def mark : Nat := 47

/-- The name that stands for the directory itself. -/
def here : List Nat := [46]

/-- The name that stands for the directory above. -/
def parent : List Nat := [46, 46]

/-- The octets that a name can have. -/
def nameLimit : Nat := 255

/-- From here on a path has too many octets. -/
def lengthLimit : Nat := 4096

/-- Whether a code point stands for one octet that is not UTF-8. -/
def isLoneOctet (c : Nat) : Bool := 0xDC80 ≤ c && c < 0xDD00

/-- The first surrogate without octets from position `pos` on, with the surrogates
after it. -/
def surrogateRun? (pos : Nat) : List Nat → Option EncodeFault
  | [] => none
  | c :: rest =>
    if Text.isSurrogate c && !isLoneOctet c then
      some ⟨c, pos, pos + (rest.takeWhile Text.isSurrogate).length⟩
    else surrogateRun? (pos + 1) rest

/-- The octets of a code point. -/
def octetsOfCode (c : Nat) : List Nat :=
  if isLoneOctet c then [c - 0xDC00] else Text.utf8OfCode c

/-- The octets of a text, whether or not it is a path. -/
def rawOctets (path : Text) : List Nat := path.codes.flatMap octetsOfCode

/-- The octets of a path: only texts without other surrogates and without null code
points are paths. -/
def octets (path : Text) : Except ValueFault (List Nat) :=
  match surrogateRun? 0 path.codes with
  | some fault => .error (.notEncodable fault)
  | none => if path.codes.contains 0 then .error .nullInPath else .ok (rawOctets path)

/-- The names in the octets of a path. -/
def names (octets : List Nat) : List (List Nat) :=
  (Text.cut mark octets).filter fun name => !name.isEmpty

/-- The names in the octets of a path that is followed: a mark at the end asks for a
directory, as the name of the directory itself does. -/
def followed (octets : List Nat) : List (List Nat) :=
  names octets ++ if octets.getLast? = some mark then [here] else []

/-- Whether a part of a path says nothing. -/
def isIdle (part : Text) : Bool := part.isEmpty || part == "."

/-- What a path begins with: nothing, one mark, or just two. -/
def root (path : Text) : Text :=
  if path.startsWith "///" then "/"
  else if path.startsWith "//" then "//"
  else if path.startsWith "/" then "/"
  else Text.empty

/-- The path without parts that say nothing; one with no other parts is `.`. -/
def tidy (path : Text) : Text :=
  let parts := (path.pieces mark).filter fun part => !isIdle part
  let tidied := root path ++ Text.join "/" parts
  if tidied.isEmpty then "." else tidied

end Path

namespace Place

/-- The place of the root directory. -/
def root : Place := [[Path.mark]]

/-- The place where a path starts. -/
def start (octets : List Nat) : Place := if octets.head? = some Path.mark then root else []

/-- Whether the place is the working directory or lies above it. -/
def isAbove (place : Place) : Bool := place.all fun name => name == Path.parent

/-- The place above a place. -/
def above (place : Place) : Place :=
  if place == root then root
  else if place.isAbove then place ++ [Path.parent]
  else place.dropLast

/-- The place that a name leads to from a directory. -/
def step (place : Place) (name : List Nat) : Place :=
  if name == Path.here then place
  else if name == Path.parent then place.above
  else place ++ [name]

end Place

end ScanCatalog
