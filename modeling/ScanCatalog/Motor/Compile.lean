import ScanCatalog.Filter.Parser
import ScanCatalog.Motor.Query
import ScanCatalog.Value.Conversion
import ScanCatalog.Value.Items

/-!
# Position queries of a filter

The terms of a filter that the motor tables own become position queries. A term is on
`motors`, which names mnemonics or maps them to filters, or on `motors.` followed by a
mnemonic. All parts of a filter for a motor have to hold together: sets narrow each
other, and a motor that has to be absent has no position.

## Main definitions

* `MotorTerm`: a mnemonic with what is asked of it;
* `MotorTerm.ofTerm`: the motor terms of a term of a filter;
* `RangeEnd`: the two sides on which a range can have a bound;
* `PositionQuery.ofMotorTerm`: the query of a motor term;
* `compileTerms`, `compileEntries`: the queries of a filter, parsed or not.
-/

namespace ScanCatalog

/-- A mnemonic with what is asked of it; without a filter, just to be there. -/
structure MotorTerm where
  mnemonic : Text
  filter : Option Filter

namespace MotorTerm

/-- The key of all motors. -/
def motorsName : Text := "motors"

/-- What the key of one motor begins with. -/
def motorsStart : Text := "motors."

/-- The texts among some values. -/
def textsOf (values : List Value) : List Text :=
  values.filterMap fun
    | .text t => some t
    | _ => none

/-- Whether a value is a text. -/
def isText : Value → Bool
  | .text _ => true
  | _ => false

/-- The motor terms of a filter on all motors. -/
def ofMotors : Filter → Except FilterFault (List MotorTerm)
  | .nested _ fields => .ok (fields.map fun field => ⟨field.1, some field.2⟩)
  | .literal (.text mnemonic) => .ok [⟨mnemonic, none⟩]
  | .valueSet raw values =>
    if values.all isText then .ok ((textsOf values).map fun mnemonic => ⟨mnemonic, none⟩)
    else .error (.badMotors raw)
  | filter => .error (.badMotors filter.raw)

/-- The motor terms of a term of a filter. -/
def ofTerm (key : Text) (filter : Filter) : Except FilterFault (List MotorTerm) :=
  if key = motorsName then ofMotors filter
  else if key.startsWith motorsStart && motorsStart.length < key.length then
    .ok [⟨key.drop motorsStart.length, some filter⟩]
  else .error (.notMotors key)

end MotorTerm

/-- The ends of a range of positions. -/
inductive RangeEnd
  | lower
  | upper

namespace PositionQuery

/-- The positions that some numbers stand for. -/
def positionsOf (values : List Value) : Except ValueFault (List Value) :=
  values.mapM fun v => do return .float (← v.toReal)

/-- The set of a query narrowed by further values. -/
def narrow (query : PositionQuery) (values : List Value) : PositionQuery :=
  { query with exact := some (Filter.intersect query.exact values) }

/-- The fault of the first bound that is given and is no number. -/
def boundFault? (mnemonic : Text) (bounds : List Value) : Option FilterFault :=
  (bounds.find? fun bound => !bound.isNull && !bound.isNumber).map fun bound =>
    .boundNotNumber mnemonic bound

/-- The query with a bound in the place of the one at an end of its range. -/
def atEnd (query : PositionQuery) (bound : Option Value) (inclusive : Bool) :
    RangeEnd → PositionQuery
  | .lower => { query with minimum := bound, minInclusive := inclusive }
  | .upper => { query with maximum := bound, maxInclusive := inclusive }

/-- The query with a bound at an end of its range, if one is given. -/
def withBound (query : PositionQuery) (rangeEnd : RangeEnd) (bound : Value) (inclusive : Bool) :
    Except ValueFault PositionQuery :=
  if bound.isNull then .ok query
  else do return query.atEnd (some (.float (← bound.toReal))) inclusive rangeEnd

/-- The query with what one part of a filter asks. -/
def withPart (mnemonic : Text) (query : PositionQuery) : Filter → Except Fault PositionQuery
  | .literal v =>
    if v.isNumber then do return query.narrow (← liftValue (positionsOf [v]))
    else .error (.filter (.positionNotNumber mnemonic v))
  | .valueSet _ values =>
    if values.all Value.isNumber then do return query.narrow (← liftValue (positionsOf values))
    else .error (.filter (.positionsNotNumbers mnemonic values))
  | .range _ lower upper lowerInclusive upperInclusive =>
    match boundFault? mnemonic [lower, upper] with
    | some fault => .error (.filter fault)
    | none => liftValue do
      (← query.withBound .lower lower lowerInclusive).withBound .upper upper upperInclusive
  | .exist _ present => .ok { query with present }
  | .operator _ name _ => .error (.filter (.unsupportedOperator name mnemonic))
  | .compound raw _ => .error (.filter (.unsupportedMotorFilter mnemonic raw))
  | .nested raw _ => .error (.filter (.unsupportedMotorFilter mnemonic raw))

/-- Adds what the parts of a filter ask, in order. A motor may not have to be absent
and at a position, after any part. -/
def withParts (mnemonic : Text) : PositionQuery → List Filter → Except Fault PositionQuery
  | query, [] => .ok query
  | query, part :: rest => do
    let query ← withPart mnemonic query part
    if !query.present && query.constrainsPosition then
      .error (.filter (.absentAndConstrained mnemonic))
    else withParts mnemonic query rest

/-- The parts of a filter that have to hold together. -/
def partsOf : Filter → List Filter
  | .compound _ parts => parts
  | filter => [filter]

/-- The query of a motor term. -/
def ofMotorTerm (term : MotorTerm) : Except Fault PositionQuery :=
  if term.mnemonic.isEmpty then .error (.filter .emptyMnemonic)
  else
    match term.filter with
    | none => .ok { mnemonic := .text term.mnemonic }
    | some filter => withParts term.mnemonic { mnemonic := .text term.mnemonic } (partsOf filter)

end PositionQuery

/-- The motor terms of the terms of a filter. -/
def motorTermsOf : Terms → Except Fault (List MotorTerm)
  | [] => .ok []
  | (key, filter) :: rest => do
    return (← liftFilter (MotorTerm.ofTerm key filter)) ++ (← motorTermsOf rest)

/-- The motor terms of the entries of a filter that is not parsed yet. -/
def motorTermsOfEntries : Entries → Except Fault (List MotorTerm)
  | [] => .ok []
  | (key, v) :: rest => do
    let filter ← liftFilter (Filter.ofValue key v)
    let terms ← match key with
      | .text key => liftFilter (MotorTerm.ofTerm key filter)
      | key => .error (.value key.startFault)
    return terms ++ (← motorTermsOfEntries rest)

/-- The queries of the terms of a filter. All terms are taken apart before the first is
made a query. -/
def compileTerms (terms : Terms) : Except Fault (List PositionQuery) := do
  (← motorTermsOf terms).mapM PositionQuery.ofMotorTerm

/-- The queries of the entries of a filter that is not parsed yet. -/
def compileEntries (entries : Entries) : Except Fault (List PositionQuery) := do
  (← motorTermsOfEntries entries).mapM PositionQuery.ofMotorTerm

end ScanCatalog
