import ScanCatalog.Join
import ScanCatalog.Proofs.Action.Outcome
import ScanCatalog.Proofs.Motor.Compiled
import ScanCatalog.Proofs.Binary64.Equality

/-!
# Documents with their motors

Joining goes through an index by sids. Records whose sids are numbers that do not come again
are all in the index, so a document is completed by the one record of its sid, and left out
if there is none.

## Main definitions

* `Entries.completed?`: a document with the motors of the record of its sid;
* `MotorRecord.Keyed`: records by sids that do not come again.

## Main statements

* `join_keyed`: the records of documents and motor records.
-/

namespace ScanCatalog

/-- A document with the motors of the record of its sid, if there is one. -/
def Entries.completed? (document : Entries) (records : List MotorRecord) : Option Entries :=
  (records.find? fun r => (document.get sidKey).same r.sid).map fun r =>
    document.set motorsKey (.map r.motors)

/-- Records whose sids are numbers, none of which comes again. -/
structure MotorRecord.Keyed (records : List MotorRecord) : Prop where
  real : ∀ r ∈ records, r.sid.IsReal
  distinct : records.Pairwise fun r r' => r.sid.same r'.sid = false

theorem MotorRecord.Keyed.filter {records : List MotorRecord} (h : MotorRecord.Keyed records)
    (condition : MotorRecord → Bool) : MotorRecord.Keyed (records.filter condition) :=
  ⟨fun r hr => h.real r (List.mem_filter.mp hr).1, h.distinct.filter condition⟩

theorem Value.same_comm_of_isReal {v w : Value} (hv : v.IsReal) (hw : w.IsReal) :
    v.same w = w.same v := by
  obtain ⟨x, rfl⟩ := hv
  obtain ⟨y, rfl⟩ := hw
  exact Binary64.same_comm x y

namespace MotorIndex

/-- A record of a new sid comes last. -/
theorem put_of_new {index : MotorIndex} {record : MotorRecord}
    (hnew : ∀ e ∈ index, record.sid.same e.1 = false) :
    index.put record = index ++ [(record.sid, record)] := by
  induction index with
  | nil => rfl
  | cons e rest ih =>
    obtain ⟨sid, r⟩ := e
    obtain ⟨he, hrest⟩ := List.forall_mem_cons.mp hnew
    unfold put
    rw [if_neg (Bool.eq_false_iff.mp he), ih hrest]
    rfl

/-- Records by sids that do not come again are all put in the index. -/
theorem ofRecords_keyed {index : MotorIndex} {records : List MotorRecord}
    (hrecords : MotorRecord.Keyed records)
    (hnew : ∀ r ∈ records, ∀ e ∈ index, r.sid.same e.1 = false) :
    ofRecords index records = .ok (index ++ records.map fun r => (r.sid, r)) := by
  induction records generalizing index with
  | nil =>
    rw [List.map_nil, List.append_nil]
    rfl
  | cons record rest ih =>
    obtain ⟨hreal, hrestReal⟩ := List.forall_mem_cons.mp hrecords.real
    obtain ⟨hdistinct, hrestDistinct⟩ := List.pairwise_cons.mp hrecords.distinct
    obtain ⟨hrecordNew, hrestNew⟩ := List.forall_mem_cons.mp hnew
    have hnew' : ∀ r ∈ rest, ∀ e ∈ index ++ [(record.sid, record)], r.sid.same e.1 = false := by
      intro r hr e he
      rcases List.mem_append.mp he with he | he
      · exact hrestNew r hr e he
      · rw [List.mem_singleton.mp he, Value.same_comm_of_isReal (hrestReal r hr) hreal]
        exact hdistinct r hr
    have hhashable : record.sid.isHashable = true := by
      obtain ⟨x, hx⟩ := hreal
      rw [hx]
      rfl
    unfold ofRecords
    rw [if_pos hhashable, put_of_new hrecordNew, ih ⟨hrestReal, hrestDistinct⟩ hnew',
      List.append_assoc]
    rfl

theorem get?_map (records : List MotorRecord) (sid : Value) :
    get? (records.map fun r => (r.sid, r)) sid = records.find? fun r => sid.same r.sid := by
  unfold get?
  rw [List.find?_map, Option.map_map]
  exact Option.map_id'

end MotorIndex

theorem joinIndex_map (records : List MotorRecord) {documents : List Entries}
    (hdocuments : ∀ d ∈ documents, (Entries.get d sidKey).isHashable = true) :
    joinIndex (records.map fun r => (r.sid, r)) documents =
      .ok (documents.filterMap fun d => Entries.completed? d records) := by
  induction documents with
  | nil => rfl
  | cons document rest ih =>
    obtain ⟨hhashable, hrest⟩ := List.forall_mem_cons.mp hdocuments
    unfold joinIndex
    dsimp only
    rw [if_pos hhashable, MotorIndex.get?_map, List.filterMap_cons]
    unfold Entries.completed?
    cases hfind : records.find? fun r => (Entries.get document sidKey).same r.sid with
    | none => exact ih hrest
    | some record =>
      have hsame : (Entries.get document sidKey).same record.sid = true := by
        simpa using List.find?_some hfind
      dsimp only [Option.map_some]
      unfold complete
      dsimp only
      rw [if_pos hsame, Outcome.ok_bind, ih hrest, Outcome.ok_bind]
      rfl

/-- The records of documents and motor records are the documents that a motor record
completes, in their order. -/
theorem join_keyed {records : List MotorRecord} (hrecords : MotorRecord.Keyed records)
    {documents : List Entries}
    (hdocuments : ∀ d ∈ documents, (Entries.get d sidKey).isHashable = true) :
    join documents records = .ok (documents.filterMap fun d => Entries.completed? d records) := by
  unfold join
  rw [MotorIndex.ofRecords_keyed hrecords (by simp), Outcome.ok_bind, List.nil_append,
    joinIndex_map records hdocuments]

end ScanCatalog
