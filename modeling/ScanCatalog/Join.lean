import ScanCatalog.Record.Split

/-!
# Joining documents and motor records

A document is completed by the motor record of the same sid; documents without one are
left out.

## Main definitions

* `MotorIndex`: motor records by their sids;
* `join`: the records of documents and motor records.
-/

namespace ScanCatalog

/-- Motor records by their sids. -/
abbrev MotorIndex := List (Value × MotorRecord)

namespace MotorIndex

/-- The index with a record put in: in the place of one of the same sid, else at the
end. -/
def put : MotorIndex → MotorRecord → MotorIndex
  | [], record => [(record.sid, record)]
  | (sid, r) :: rest, record =>
    if record.sid.same sid then (sid, record) :: rest else (sid, r) :: put rest record

/-- The record of a sid. -/
def get? (index : MotorIndex) (sid : Value) : Option MotorRecord :=
  (index.find? fun e => sid.same e.1).map (·.2)

/-- The index of some records; the last one of a sid counts. A sid has to be a possible
key. -/
def ofRecords (index : MotorIndex) : List MotorRecord → Except Fault MotorIndex
  | [] => .ok index
  | record :: rest =>
    if record.sid.isHashable then ofRecords (index.put record) rest
    else .error (.value (.unhashable record.sid.kindName))

end MotorIndex

/-- The records of the documents that an index has motors for, in order. -/
def joinIndex (index : MotorIndex) : List Entries → Except Fault (List Entries)
  | [] => .ok []
  | document :: rest =>
    let sid := document.get sidKey
    if sid.isHashable then
      match index.get? sid with
      | none => joinIndex index rest
      | some record => do
        let completed ← complete document record
        return completed :: (← joinIndex index rest)
    else .error (.value (.unhashable sid.kindName))

/-- The records of documents and motor records of the same sid, in the order of the
documents. -/
def join (documents : List Entries) (motorRecords : List MotorRecord) :
    Except Fault (List Entries) := do
  joinIndex (← MotorIndex.ofRecords [] motorRecords) documents

end ScanCatalog
