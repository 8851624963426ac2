import ScanCatalog.Proofs.Catalog.Reached

/-!
# Edits of named scans

An edit that names one scan, by its sid or by its file and number, changes that scan as it
says, and nothing else; if it cannot be made it changes nothing at all.

## Main definitions

* `Entries.Names`: how an edit names its scan;
* `CatalogState.Finds`: the one document that is found, with its motors;
* `CatalogState.MakesEdit`: what an edit does.

## Main statements

* `Catalog.Edited.makesEdit`: an edit does that;
* `CatalogState.Reached.edits_named`: it does so in every history.
-/

namespace ScanCatalog

open ScanCatalog.Action MotorStore Catalog

/-! ### Names of scans -/

namespace Entries

/-- How an edit names its scan: by a number that is its sid or, without a sid, by the scalars
that are its file and its number in it. -/
inductive Names (edit : Entries) : Entries → Prop
  | sid (hnumber : (edit.get sidKey).isNumber = true) : Names edit [(sidKey, edit.get sidKey)]
  | scan (hsid : edit.get sidKey = .null)
    (hkeys : ∀ key ∈ lookupKeys, (edit.get key).isScalar = true ∧ (edit.get key).isNull = false) :
    Names edit (lookupKeys.map fun key => (key, edit.get key))

variable {edit lookup : Entries}

theorem Names.editLookup_eq (h : edit.Names lookup) : editLookup edit = .ok lookup := by
  cases h with
  | sid hnumber =>
    have hnull : (edit.get sidKey).isNull = false := by
      cases hsid : edit.get sidKey <;> rw [hsid] at hnumber <;> first | rfl | cases hnumber
    unfold editLookup
    dsimp only
    rw [hnull]
    rfl
  | scan hsid hkeys =>
    have hnull : (edit.get sidKey).isNull = true := by rw [hsid]; rfl
    have hall : (lookupKeys.all fun key => !(edit.get key).isNull) = true :=
      List.all_eq_true.mpr fun key hkey => by rw [(hkeys key hkey).2]; rfl
    unfold editLookup
    dsimp only
    rw [hnull, if_neg (by decide), if_pos hall]

/-- A condition that is a scalar is an equality. -/
theorem holds_scalar {condition : Value} (h : condition.isScalar = true) (v : Option Value) :
    Condition.holds v condition = .ok (Condition.equals v condition) := by
  cases condition <;> first | rfl | cases h

/-- Every document can be asked for scalars. -/
theorem answers_scalars (hlookup : ∀ e ∈ lookup, (∃ t, e.1 = .text t) ∧ e.2.isScalar = true)
    (document : Entries) : Answers lookup document := by
  induction lookup with
  | nil => exact ⟨true, rfl⟩
  | cons e rest ih =>
    obtain ⟨⟨⟨t, hkey⟩, hscalar⟩, hrest⟩ := List.forall_mem_cons.mp hlookup
    obtain ⟨key, condition⟩ := e
    cases hkey
    unfold Answers documentSatisfies
    rw [holds_scalar hscalar, Outcome.ok_bind]
    split
    · exact ih hrest
    · exact ⟨false, rfl⟩

theorem Names.answers (h : edit.Names lookup) (document : Entries) : Answers lookup document := by
  refine answers_scalars (fun e he => ?_) document
  cases h with
  | sid hnumber =>
    rw [List.mem_singleton.mp he]
    refine ⟨⟨"sid", rfl⟩, ?_⟩
    dsimp only
    cases hsid : edit.get sidKey <;> rw [hsid] at hnumber <;> first | rfl | cases hnumber
  | scan _ hkeys =>
    obtain ⟨key, hkey, rfl⟩ := List.mem_map.mp he
    refine ⟨?_, (hkeys key hkey).1⟩
    rcases List.mem_cons.mp hkey with rfl | hkey
    · exact ⟨"spec_file", rfl⟩
    · rw [List.mem_singleton.mp hkey]
      exact ⟨"scan_number", rfl⟩

end Entries

/-! ### What an edit does -/

/-- The one document that a query finds, with the motor record of its scan. -/
structure CatalogState.Finds (state : CatalogState TableServer Collections) (collection : Text)
    (query document : Entries) (r : MotorRecord) : Prop where
  one : (state.documents.documents collection).filter (fun d => Entries.Satisfies d query) =
    [document]
  mem : r ∈ state.motors.records
  same : (document.get sidKey).same r.sid = true

/-- What an edit does. It is made if it names one document, its motors are a mapping, and the
record passes the checks with the edit merged in. Then the document has its fields, and the
motor record has its motors as numbers, in the places of the old ones. Else neither store
changes. -/
structure CatalogState.MakesEdit (schema : Schema) (collection : Text)
    (state : CatalogState TableServer Collections) (lookup edit : Entries)
    (outcome : Except Fault Entries) (state' : CatalogState TableServer Collections) : Prop where
  succeeds : outcome.isOk = true ↔ ∃ document r, state.Finds collection lookup document r ∧
    edit.MotorsAreMapping ∧
    schema.validate (.map (Entries.merged document r.motors lookup edit)) = .ok ()
  stored : ∀ record, outcome = .ok record → ∃ document r,
    state.Finds collection lookup document r ∧
    record = Entries.merged document r.motors lookup edit ∧
    state'.documents.documents collection = editedDocuments (document.get sidKey)
      (Entries.plainChanges lookup edit) (state.documents.documents collection) ∧
    state'.motors.records = editedRecords (document.get sidKey) edit state.motors.records
  failed : ∀ fault, outcome = .error fault →
    state'.documents = state.documents ∧ state'.motors.records = state.motors.records

variable {config : MotorsConfig} {router : Router} {schema : Schema}
  {collection serviceName : Text} {state state' : CatalogState TableServer Collections} {n : Nat}
  {h : Holdings} {edit lookup document : Entries} {s : StoredScan}
  {outcome : Except Fault Entries}

/-- A document is found with the motor record of its scan. -/
theorem CatalogState.Paired.finds (hs : state.Paired collection h)
    (hone : (state.documents.documents collection).filter (fun d => Entries.Satisfies d lookup) =
      [document]) (hmem : s ∈ h.scans) (hbelongs : document.BelongsTo s) :
    state.Finds collection lookup document (h.recordOf s) where
  one := hone
  mem := by
    rw [hs.shows.records]
    exact List.mem_map_of_mem hmem
  same := by
    obtain ⟨x, hx, hsid⟩ := hbelongs
    rw [hx.get]
    change x.same s.sid = true
    rw [Binary64.same_comm]
    exact (hs.shows.sound.same_of_sid hmem hsid).1

/-- The motor record that is found is that of the scan to which the document belongs. -/
theorem CatalogState.Finds.belongs {r : MotorRecord}
    (hfinds : state.Finds collection lookup document r) (hs : state.Paired collection h) :
    ∃ s ∈ h.scans, document.BelongsTo s ∧ r = h.recordOf s := by
  have hd := (mem_of_filter_eq_singleton hfinds.one).1
  obtain ⟨s, hmem, x, hx, hsid⟩ := hs.exists_scan hd
  refine ⟨s, hmem, ⟨x, hx, hsid⟩, ?_⟩
  have hr := hfinds.mem
  rw [hs.shows.records] at hr
  obtain ⟨t, ht, rfl⟩ := List.mem_map.mp hr
  have hsame := hfinds.same
  rw [hx.get] at hsame
  have hsame : x.same t.sid = true := hsame
  have hscan := (hs.shows.sound.same_of_sid hmem hsid).1
  rw [← Binary64.same_congr_left hscan] at hsame
  rw [hs.shows.sound.eq_of_sid hmem ht hsame]

namespace Catalog

/-- An edit that names a scan, and for which there is room, does what it should. -/
theorem Edited.makesEdit (hs : state.Paired collection h) (hnames : edit.Names lookup)
    (hroom : ∀ r ∈ state.motors.records,
      state.motors.HasRoom 0 (r.motors.length + edit.motorCount))
    (hedited : Edited schema collection state h edit outcome state') :
    state.MakesEdit schema collection lookup edit outcome state' := by
  have hlookup := hnames.editLookup_eq
  have hrecords := hs.shows.records
  cases hedited with
  | @stored _ h' lookup' document s x heditable hdocument _ hdocuments hshows _ _ hrecords' =>
    obtain rfl := Except.ok.inj (heditable.names.symm.trans hlookup)
    have hone := (findDocuments_eq_ok heditable.found).symm
    have hfinds := hs.finds hone heditable.scan heditable.belongs
    refine ⟨⟨fun _ => ⟨document, _, hfinds, heditable.mapping, heditable.valid⟩, fun _ => rfl⟩,
      fun record hrecord => ⟨document, _, hfinds, (Except.ok.inj hrecord).symm, ?_, ?_⟩, nofun⟩
    · rw [hdocument.get]
      exact hdocuments
    · rw [hdocument.get, hshows.records, hrecords]
      exact hrecords'
  | failed hnot _ hdocuments hshows =>
    refine ⟨⟨nofun, ?_⟩, nofun, fun _ _ => ⟨hdocuments, by rw [hshows.records, hrecords]⟩⟩
    rintro ⟨document, r, hfinds, hmapping, hvalid⟩
    obtain ⟨s, hmem, hbelongs, rfl⟩ := hfinds.belongs hs
    have hfound : findDocuments lookup (state.documents.documents collection) = .ok [document] :=
      (findDocuments_of_forall fun d _ => hnames.answers d).trans (congrArg _ hfinds.one)
    refine absurd ?_ (hnot lookup document s ⟨hlookup, hfound, hmem, hbelongs, hmapping, hvalid⟩)
    have hmotors := (hs.shows.hasRoom_iff.mp (hroom _ hfinds.mem)).2
    have hlength := Entries.length_update_le (h.positionsOf s.scanId).toEntries edit.motorChanges
    exact Nat.le_trans (Nat.add_le_add_left hlength _) hmotors

end Catalog

/-- In every history an edit that names a scan is made if and only if it names one document,
its motors are a mapping, and the record passes the checks with the edit merged in. It changes
the named scan only, or nothing. -/
theorem CatalogState.Reached.edits_named
    (hs : state.Reached config router schema collection serviceName n) (hedit : edit.IsRecord)
    (hnames : edit.Names lookup)
    (hroom : ∀ r ∈ state.motors.records,
      state.motors.HasRoom 0 (r.motors.length + edit.motorCount))
    (hrun : ((embedded config router schema collection serviceName).editRecord edit).run state =
      (outcome, state')) :
    state.MakesEdit schema collection lookup edit outcome state' := by
  obtain ⟨h, hpaired, -, -⟩ := hs.paired
  exact (editRecord_cases hpaired hedit hrun).makesEdit hpaired hnames hroom

namespace Catalog

/-- An edit of the scan at zero: a field more, and a motor more. -/
def oneEdit : Entries := [(sidKey, .int 0), ("title", "t"), (motorsKey, .map [("c", .int 1)])]

theorem oneEdit_isRecord : oneEdit.IsRecord where
  texts := List.forall_mem_cons.mpr ⟨⟨"sid", rfl⟩,
    List.forall_mem_cons.mpr ⟨⟨"title", rfl⟩, List.forall_mem_singleton.mpr ⟨"motors", rfl⟩⟩⟩
  distinct := by unfold Entries.Distinct; decide
  mnemonics := List.pairwise_singleton _ _
  encodable := by
    intro e he t ht
    rw [List.mem_singleton.mp he] at ht
    cases ht
    decide

end Catalog

theorem CatalogState.Reached.edits_named_withRecord :
    ((inMemory.editRecord oneEdit).run withRecord).1.isOk = true ∧
      withRecord.MakesEdit .empty "scans" [(sidKey, .int 0)] oneEdit
        ((inMemory.editRecord oneEdit).run withRecord).1
        ((inMemory.editRecord oneEdit).run withRecord).2 := by
  have hroom : ∀ r ∈ withRecord.motors.records,
      withRecord.motors.HasRoom 0 (r.motors.length + oneEdit.motorCount) := by
    rw [withRecord_records]
    exact List.forall_mem_singleton.mpr ⟨by decide +kernel, by decide⟩
  refine ⟨by decide +kernel, ?_⟩
  exact CatalogState.Reached.edits_named withRecord_reached oneEdit_isRecord (.sid rfl) hroom
    (run_eq_of_fst rfl)

end ScanCatalog
