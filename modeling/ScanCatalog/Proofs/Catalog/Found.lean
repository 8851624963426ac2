import ScanCatalog.Proofs.Catalog.Keyed

/-!
# Edits of found documents

The values by which an edit names its record are conditions of a query, whatever values they
are. An operator is applied to the field of a document and not compared with it, and a list
there may have the value as an item. Of the one document that meets the conditions an edit
changes the fields and the motors, and of no other.

## Main definitions

* `Catalog.recordsWith`: motor records with other motors for one sid;
* `CatalogState.EditsFound`: an edit of the one document that meets its conditions.

## Main statements

* `Condition.Met.same`: a condition that is met is equal, unless there are operators or a list;
* `CatalogState.Arises.edits_found`: an edit in any history;
* `Catalog.operatorEdit_other_sid`: an edit of a record whose sid is not the one in the edit.
-/

namespace ScanCatalog

open ScanCatalog.Action MotorStore Catalog

/-- A condition that is no mapping is met by equal values only, if the value is no list. -/
theorem Condition.Met.same {v : Option Value} {asked : Value} (h : Condition.Met v asked)
    (hasked : ∀ entries, asked ≠ .map entries) (hv : ∀ items, v ≠ some (.list items)) :
    (v.getD .null).same asked = true := by
  cases h with
  | equal hsame => exact hsame
  | operators => exact absurd rfl (hasked _)
  | item => exact absurd rfl (hv _)

namespace Catalog

variable {edit lookup : Entries}

/-- The keys by which an edit names its record have no dots. -/
theorem keys_of_editLookup (h : editLookup edit = .ok lookup) :
    ∀ e ∈ lookup, ∃ path : Text, e.1 = .text path ∧ path.pieces dotMark = [path] := by
  rcases editLookup_eq_ok h with rfl | rfl
  · exact List.forall_mem_singleton.mpr ⟨"sid", rfl, by decide⟩
  · exact List.forall_mem_cons.mpr ⟨⟨"spec_file", rfl, by decide⟩,
      List.forall_mem_singleton.mpr ⟨"scan_number", rfl, by decide⟩⟩

/-- The records with other motors for the one of a sid. -/
def recordsWith (sid : Value) (motors : Entries) (records : List MotorRecord) :
    List MotorRecord :=
  records.map fun r => if r.sid.same sid then ⟨r.sid, motors⟩ else r

/-- Swapped motors are other motors for the record of a sid. -/
theorem recordsWith_of_swaps {h k : Holdings} {x : Binary64} (hs : h.Sound)
    (hswaps : h.Swaps x k) : ∃ motors, k.records = recordsWith (.float x) motors h.records := by
  obtain ⟨s, hmem, hsame, ps, rfl⟩ := hswaps
  exact ⟨_, hs.records_replace hmem hsame ps⟩

end Catalog

/-! ### What an edit does -/

/-- An edit of the one document that meets its conditions. That document has the fields of the
edit if it is made, and no document changes if it fails. Of the motor records at most the one of
the document's sid has other motors. -/
structure CatalogState.EditsFound (collection : Text) (state : CatalogState TableServer Collections)
    (edit : Entries) (outcome : Except Fault Entries)
    (state' : CatalogState TableServer Collections) (lookup document : Entries) : Prop where
  names : editLookup edit = .ok lookup
  one : (state.documents.documents collection).filter (fun d => Entries.Satisfies d lookup) =
    [document]
  number : ∃ x : Binary64, document.get? sidKey = some (.float x)
  met : ∀ e ∈ lookup, Condition.Met (document.get? e.1) e.2
  same : ∀ e ∈ lookup, (∀ entries, e.2 ≠ .map entries) →
    (∀ items, document.get? e.1 ≠ some (.list items)) → (document.get e.1).same e.2 = true
  documents : outcome.isOk = true ∧ state'.documents.documents collection = editedDocuments
      (document.get sidKey) (Entries.plainChanges lookup edit)
      (state.documents.documents collection) ∨
    outcome.isOk = false ∧ state'.documents = state.documents
  records : state'.motors.records = state.motors.records ∨ ∃ motors,
    state'.motors.records = recordsWith (document.get sidKey) motors state.motors.records

variable {config : MotorsConfig} {router : Router} {schema : Schema}
  {collection serviceName : Text} {state state' : CatalogState TableServer Collections}
  {edit : Entries} {outcome : Except Fault Entries}

/-- In every history an edit changes the one document that meets the conditions by which it
names its record, and the motors of that document's sid, and nothing else. If not one document
is found, the edit fails and nothing changes. Values that are no mappings have to be equal to
the fields of the document, unless a field is a list. -/
theorem CatalogState.Arises.edits_found
    (hs : state.Arises config router schema collection serviceName)
    (hedit : edit.TextKeys)
    (hrun : ((embedded config router schema collection serviceName).editRecord edit).run state =
      (outcome, state')) :
    (outcome.isOk = false ∧ state' = state ∧ ∀ lookup document,
        editLookup edit = .ok lookup →
          findDocuments lookup (state.documents.documents collection) ≠ .ok [document]) ∨
      ∃ lookup document, state.EditsFound collection edit outcome state' lookup document := by
  obtain ⟨⟨h, k, hshows⟩, hkeyed⟩ := hs.keyed
  rcases editRecord_run_cases hkeyed hrun with
    ⟨fault, rfl, rfl, hnot⟩ | ⟨lookup, document, x, hnames, hfound, hd, hx, hrun⟩
  · exact .inl ⟨rfl, rfl, hnot⟩
  -- found by its conditions, the document is read and edited by its sid
  obtain ⟨hdocuments, h', k', hshows', hswaps⟩ :=
    applyEdit_document hkeyed hshows hedit hnames hd hx hrun
  have hone := (findDocuments_eq_ok hfound).symm
  have hsatisfies : document.Satisfies lookup :=
    of_decide_eq_true (mem_of_filter_eq_singleton hone).2
  have hmet := hsatisfies.met (keys_of_editLookup hnames)
  refine .inr ⟨lookup, document, hnames, hone, ⟨x, hx.sid⟩, hmet,
    fun e he => (hmet e he).same, ?_, ?_⟩
  · rw [hx.get]
    exact hdocuments
  · rw [hx.get, hshows.records, hshows'.records]
    rcases hswaps with rfl | hswaps
    · exact .inl rfl
    · exact .inr (recordsWith_of_swaps hshows.sound hswaps)

namespace Catalog

/-- An edit whose sid is an operator. -/
def operatorEdit : Entries := [(sidKey, .map [("$gte", .int 0)]), ("title", "t")]

theorem withRecord_arises : withRecord.Arises .inMemory builtInRouter .empty "scans" "SpecScans" :=
  withRecord_reached.arises

theorem operatorEdit_textKeys : operatorEdit.TextKeys :=
  List.forall_mem_cons.mpr ⟨⟨"sid", rfl⟩, List.forall_mem_singleton.mpr ⟨"title", rfl⟩⟩

end Catalog

theorem CatalogState.Arises.edits_found_withRecord :
    ∃ lookup document, withRecord.EditsFound "scans" operatorEdit
      ((inMemory.editRecord operatorEdit).run withRecord).1
      ((inMemory.editRecord operatorEdit).run withRecord).2 lookup document := by
  have hok : ((inMemory.editRecord operatorEdit).run withRecord).1.isOk = true := by
    decide +kernel
  rcases CatalogState.Arises.edits_found withRecord_arises operatorEdit_textKeys
    (run_eq_of_fst rfl) with ⟨hfailed, -, -⟩ | hfound
  · cases hok.symm.trans hfailed
  · exact hfound

/-- The edit is made, of a record whose sid is not the one in the edit. -/
theorem Catalog.operatorEdit_other_sid :
    ((inMemory.editRecord operatorEdit).run withRecord).1.isOk = true ∧
      withRecord.documents.documents "scans" =
        [[(startTimeKey, .float .zero), (sidKey, .float .zero)]] ∧
      ((inMemory.editRecord operatorEdit).run withRecord).2.documents.documents "scans" =
        [[(startTimeKey, .float .zero), (sidKey, .float .zero), ("title", .text "t")]] ∧
      (operatorEdit.get sidKey).isNull = false ∧
      (Value.float .zero).same (operatorEdit.get sidKey) = false := by
  decide +kernel

end ScanCatalog
