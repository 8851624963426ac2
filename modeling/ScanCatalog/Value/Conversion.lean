import ScanCatalog.Text.Numeral
import ScanCatalog.Value.Equality
import ScanCatalog.Value.Fault

/-!
# Numbers and octets from values

A position is a binary64 number; a record may give it as an integer, a boolean or a
numeral in a text. A text that leaves the catalog is written as UTF-8.

## Main definitions

* `Value.toReal`: the binary64 number that a value is or writes;
* `Value.toInt`: the integer that a value is or writes, numbers cut towards zero;
* `Value.isFiniteNumber`: whether a number is finite;
* `Text.encode`: the octets that a text is written as.
-/

namespace ScanCatalog

namespace Binary64

/-- The whole part of a finite number, and a fault for the others. -/
def toInt : Binary64 → Except ValueFault Int
  | .nan => .error .nanToInt
  | .infinite _ => .error .infinityToInt
  | .finite negative rank _ =>
    let magnitude : Int := unitsOfRank rank / unitsInOne
    .ok (if negative then -magnitude else magnitude)

/-- The number nearest to an integer, or the fault that there is no finite one. -/
def ofInt (i : Int) : Except ValueFault Binary64 := (ofInt? i).elim (.error .intTooLarge) .ok

end Binary64

/-- The octets of a text as UTF-8, or the fault that it has no such form. -/
def Text.encode (t : Text) : Except ValueFault (List Nat) :=
  match t.encodeFault? with
  | none => .ok t.toUtf8
  | some fault => .error (.notEncodable fault)

namespace Value

/-- The text that a byte string spells, an octet a code point. -/
def spelled (octets : List Nat) : Text := ⟨octets⟩

/-- The binary64 number that a value is or writes. -/
def toReal (v : Value) : Except ValueFault Binary64 :=
  let ofNumeral := fun (t : Text) =>
    match t.readReal? with
    | some x => .ok x
    | none => .error (.realSyntax v)
  match v with
  | .float x => .ok x
  | .int i => Binary64.ofInt i
  | .bool b => Binary64.ofInt (if b then 1 else 0)
  | .text t => ofNumeral t
  | .bytes octets =>
    if octets.all (· < 128) then ofNumeral (spelled octets) else .error (.realSyntax v)
  | .null | .list _ | .map _ => .error (.notReal v.kindName)

/-- The integer that a value is or writes. -/
def toInt (v : Value) : Except ValueFault Int :=
  let ofNumeral := fun (t : Text) =>
    match t.readInt with
    | .value i => .ok i
    | .malformed => .error (.intSyntax v)
    | .tooLong digits => .error (.tooManyDigits digits)
  match v with
  | .int i => .ok i
  | .bool b => .ok (if b then 1 else 0)
  | .float x => x.toInt
  | .text t => ofNumeral t
  | .bytes octets =>
    if octets.all (· < 128) then ofNumeral (spelled octets) else .error (.intSyntax v)
  | .null | .list _ | .map _ => .error (.notInt v.kindName)

/-- Whether a number is finite. An integer is compared as the nearest binary64
number, which it has to have. -/
def isFiniteNumber (v : Value) : Except ValueFault Bool :=
  match v.toReal with
  | .ok x => .ok x.isFinite
  | .error fault => .error fault

@[simp] theorem toReal_float (x : Binary64) : (Value.float x).toReal = .ok x := rfl

end Value

end ScanCatalog
