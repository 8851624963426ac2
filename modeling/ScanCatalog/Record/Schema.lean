import ScanCatalog.Record.Split
import ScanCatalog.Text.Case
import ScanCatalog.Value.Items

/-!
# Checking records

A record is checked in two layers before it is stored. Its shape: an object whose
motors, if it has any, map texts that are not empty to finite numbers. Its schema, if
there is one: every required key is there, no key is unknown, and the values have the
types of their keys.

## Main definitions

* `FieldType`, `FieldType.fits`: the types of values;
* `SchemaEntry`, `Schema`: what a schema says of a key, and of all keys;
* `Schema.ofItems`: the schema of a list of descriptions;
* `shapeProblems`, `Schema.problems`: what the two layers find;
* `Schema.validate`: both layers.
-/

namespace ScanCatalog

/-- The type of the values of a field. -/
inductive FieldType
  | string
  | int
  | float
  | bool
  | listStr
  | listInt
  | listFloat
  | map
  | any
deriving DecidableEq, Repr

namespace FieldType

/-- The names of the types. -/
def names : List (Text × FieldType) :=
  [("string", .string), ("int", .int), ("float", .float), ("bool", .bool),
    ("list_str", .listStr), ("list_int", .listInt), ("list_float", .listFloat), ("map", .map),
    ("any", .any)]

/-- Further names that a schema may give a type. -/
def aliases : List (Text × FieldType) :=
  [("str", .string), ("int64", .int), ("int32", .int), ("int8", .int), ("float64", .float),
    ("float32", .float), ("list_string", .listStr), ("list_int64", .listInt),
    ("list_float64", .listFloat), ("dict", .map), ("object", .map)]

/-- The name of a type. -/
def name (type : FieldType) : Text :=
  ((names.find? (·.2 == type)).map (·.1)).getD Text.empty

/-- The type of a name. -/
def ofName? (t : Text) : Option FieldType := names.lookup t

/-- The type of a name in a schema. -/
def ofAlias? (t : Text) : Option FieldType := (names ++ aliases).lookup t

theorem ofName?_name (type : FieldType) : ofName? type.name = some type := by
  cases type <;> decide

/-- Whether every item of a list satisfies a condition; other values do not. -/
def allItems (condition : Value → Bool) : Value → Bool
  | .list items => items.all condition
  | _ => false

/-- Whether a value is a text. -/
def isText : Value → Bool
  | .text _ => true
  | _ => false

/-- Whether a value is an integer; booleans are not. -/
def isInt : Value → Bool
  | .int _ => true
  | _ => false

/-- Whether a value has a type. -/
def fits : FieldType → Value → Bool
  | .any, _ => true
  | .string, v => isText v
  | .bool, .bool _ => true
  | .int, v => isInt v
  | .float, v => v.isNumber
  | .map, .map _ => true
  | .listStr, v => allItems isText v
  | .listInt, v => allItems isInt v
  | .listFloat, v => allItems Value.isNumber v
  | _, _ => false

/-- Whether a value has the type of a name. No value has a type of an unknown name,
but the items of a list have no type under an unknown name of a list type. -/
def fitsNamed (type : Text) (v : Value) : Except ValueFault Bool :=
  match ofName? type, v with
  | some type, v => .ok (type.fits v)
  | none, .list _ => if type.startsWith "list_" then .error (.noKey (.text type)) else .ok false
  | none, _ => .ok false

end FieldType

/-- What a schema says of a key. -/
structure SchemaEntry where
  key : Text
  type : FieldType
  isOptional : Bool
deriving DecidableEq, Repr

namespace SchemaEntry

/-- What the entries of a description say, one of which is under `key`. -/
def ofEntries (entries : Entries) : Except SchemaFault SchemaEntry :=
  let key := entries.get "key"
  let typeName := ((entries.get? "type").getD "any").display.lower
  match FieldType.ofAlias? typeName with
  | none => .error (.unknownType key typeName)
  | some type =>
    .ok ⟨key.display, type, ((entries.get? "optional").getD (.bool true)).truth⟩

/-- What a description says, which has to be an object with a key. A list or a text
has to hold the word `key` and still has no fields; without the word it is read as a
sequence of pairs. -/
def ofValue (description : Value) : Except Fault SchemaEntry := do
  if ← liftValue (Value.isMember "key" description) then
    match description with
    | .map entries =>
      match ofEntries entries with
      | .ok entry => .ok entry
      | .error fault => .error (.schema fault)
    | v => .error (.value (.noMember v.kindName "get"))
  else .error (.schema (.noKey (← liftValue (Entries.ofValue description))))

end SchemaEntry

/-- A schema: what it says of each key, at most once. -/
structure Schema where
  entries : List SchemaEntry
deriving DecidableEq, Repr

namespace Schema

/-- The schema that says nothing. -/
def empty : Schema := ⟨[]⟩

/-- The entries with one put in: in the place of one of the same key, else at the end. -/
def put : List SchemaEntry → SchemaEntry → List SchemaEntry
  | [], entry => [entry]
  | e :: rest, entry => if e.key = entry.key then entry :: rest else e :: put rest entry

/-- The schema of some entries; the last one of a key counts, in the place of the
first. -/
def ofEntries (entries : List SchemaEntry) : Schema := ⟨entries.foldl put []⟩

/-- The schema of a list of descriptions. -/
def ofItems (items : List Value) : Except Fault Schema := do
  return ofEntries (← items.mapM SchemaEntry.ofValue)

/-- What the schema says of a key. -/
def find? (schema : Schema) (key : Value) : Option SchemaEntry :=
  schema.entries.find? fun entry => key.same (.text entry.key)

end Schema

/-- Whether a value is a finite number. -/
def isPosition (v : Value) : Except ValueFault Bool :=
  if v.isNumber then v.isFiniteNumber else .ok false

/-- What is wrong with the shape of motors. -/
def motorProblems : Entries → Except ValueFault (List Problem)
  | [] => .ok []
  | (mnemonic, position) :: rest =>
    match mnemonic with
    | .text t =>
      if t.isEmpty then do return .badMnemonic mnemonic :: (← motorProblems rest)
      else do
        if ← isPosition position then motorProblems rest
        else return .badPosition t position :: (← motorProblems rest)
    | _ => do return .badMnemonic mnemonic :: (← motorProblems rest)

/-- What is wrong with the shape of a record. -/
def shapeProblems : Value → Except ValueFault (List Problem)
  | .map record =>
    match Entries.get record motorsKey with
    | .null => .ok []
    | .map motors => motorProblems motors
    | v => .ok [.motorsNotObject v.kindName]
  | v => .ok [.notObject v.kindName]

/-- The keys that the catalog manages itself. -/
def isReserved (key : Value) : Bool := key.isIn [sidKey, motorsKey]

namespace Schema

/-- What a schema finds wrong with a field of a record. -/
def fieldProblem? (schema : Schema) (key value : Value) : Option Problem :=
  match schema.find? key with
  | none => if isReserved key then none else some (.unknownKey key)
  | some entry =>
    if value.isNull || entry.type.fits value then none
    else some (.wrongType key entry.type.name value.kindName)

/-- What a schema finds wrong with a record: required keys that are missing, then
fields that are unknown or of a wrong type. -/
def problems (schema : Schema) (record : Entries) : List Problem :=
  (schema.entries.filter fun entry => !entry.isOptional && !record.has (.text entry.key)).map
      (fun entry => .missingKey entry.key) ++
    record.filterMap fun field => schema.fieldProblem? field.1 field.2

/-- Checks a record. A schema without entries finds nothing wrong, and none is asked
about a record whose shape is wrong. -/
def validate (schema : Schema) (record : Value) : Except Fault Unit := do
  let problems ← liftValue (shapeProblems record)
  let problems :=
    match problems, record with
    | [], .map entries => if schema.entries.isEmpty then [] else schema.problems entries
    | problems, _ => problems
  if problems.isEmpty then .ok () else .error (.validation problems)

end Schema

end ScanCatalog
