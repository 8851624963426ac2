import ScanCatalog.Proofs.Catalog.Additions
import ScanCatalog.Proofs.Catalog.Overridden

/-!
# Edits in any order

An edit reads its record, merges its changes in, checks the whole record again and rewrites
both parts of it. Edits that do not change the same still do not get in each other's way:
whatever the order in which they are made, the same of them succeed and none of their changes
is lost.

## Main definitions

* `Entries.IsNumberedEdit`: edits that name their scans by numbers;
* `Entries.Independent`: edits that do not change the same of one scan;
* `CatalogState.Makes`: the edits that succeed.

## Main statements

* `Catalog.Edited.succeeds_iff`, `Catalog.Edited.overrides`: one edit;
* `CatalogState.Reached.edits_override`: edits one after the other;
* `CatalogState.Reached.edits_any_order`: edits in two orders.
-/

namespace ScanCatalog

open ScanCatalog.Action MotorStore Catalog

namespace Entries

/-- An object of JSON whose mnemonics have a UTF-8 form, and that names its scan by a number. -/
structure IsNumberedEdit (edit : Entries) : Prop where
  json : (Value.map edit).IsJson
  encodable : (edit.get motorsKey).EncodableKeys
  number : (edit.get sidKey).isNumber = true

/-- If two edits name one scan, they do not change the same of it. -/
def Independent (edit other : Entries) : Prop :=
  ∀ x, edit.NamesSid x → other.NamesSid x → ChangeApart edit other

variable {edit other : Entries}

theorem Independent.symm (h : Independent edit other) : Independent other edit :=
  fun x hother hedit => (h x hedit hother).symm

theorem IsNumberedEdit.isRecord (h : edit.IsNumberedEdit) : edit.IsRecord :=
  ⟨h.json.texts, h.json.distinctKeys, (h.json.get "motors").distinctKeys, h.encodable⟩

theorem motorTotal_perm {edits others : List Entries} (h : edits.Perm others) :
    motorTotal edits = motorTotal others := by
  induction h with
  | nil => rfl
  | cons edit _ ih => rw [motorTotal, motorTotal, ih]
  | swap edit other rest => rw [motorTotal, motorTotal, motorTotal, motorTotal, Nat.add_left_comm]
  | trans _ _ ih ih' => exact ih.trans ih'

end Entries

/-- The edits that succeed: the sid that they name is that of a document, and their own entries
are acceptable. -/
structure CatalogState.Makes (schema : Schema) (collection : Text)
    (state : CatalogState TableServer Collections) (edit : Entries) : Prop where
  named : ∃ d ∈ state.documents.documents collection,
    (Entries.get d sidKey).same (edit.get sidKey) = true
  managed : schema.PermitsManaged
  accepts : schema.Accepts [(sidKey, edit.get sidKey)] edit

variable {config : MotorsConfig} {router : Router} {schema : Schema}
  {collection serviceName : Text} {state state' : CatalogState TableServer Collections} {n m : Nat}
  {h : Holdings} {edit : Entries} {outcome : Except Fault Entries}

/-- Which edits succeed is a matter of the sids of the documents. -/
theorem CatalogState.makes_iff_of_sids
    (hsids : (state'.documents.documents collection).map (Entries.get · sidKey) =
      (state.documents.documents collection).map (Entries.get · sidKey)) (edit : Entries) :
    state'.Makes schema collection edit ↔ state.Makes schema collection edit := by
  have hnamed (documents : List Entries) :
      (∃ d ∈ documents, (Entries.get d sidKey).same (edit.get sidKey) = true) ↔
        ∃ sid ∈ documents.map (Entries.get · sidKey), sid.same (edit.get sidKey) = true := by
    simp
  have hsame := (hnamed _).trans ((iff_of_eq (congrArg (fun sids : List Value =>
    ∃ sid ∈ sids, sid.same (edit.get sidKey) = true) hsids)).trans (hnamed _).symm)
  constructor
  · exact fun h => ⟨hsame.mp h.named, h.managed, h.accepts⟩
  · exact fun h => ⟨hsame.mpr h.named, h.managed, h.accepts⟩

/-! ### One edit -/

namespace Catalog

/-- An edit that names its scan by a number names a document whose sid is equal to it. -/
theorem Editable.names_sid {documents : List Entries} {lookup document : Entries} {s : StoredScan}
    (he : Editable schema documents h edit lookup document s) (hs : Entries.Keyed documents)
    (hnumber : (edit.get sidKey).isNumber = true) :
    lookup = [(sidKey, edit.get sidKey)] ∧ document ∈ documents ∧
      (document.get sidKey).same (edit.get sidKey) = true := by
  obtain ⟨hd, hsatisfies⟩ := he.document_mem
  obtain rfl := Except.ok.inj (he.names.symm.trans (Entries.Names.sid hnumber).editLookup_eq)
  exact ⟨rfl, hd, (hs.satisfies_number_iff hnumber hd).mp hsatisfies⟩

/-- An edit for which there is room succeeds just if its scan is stored and its own entries are
acceptable. -/
theorem Edited.succeeds_iff (hs : state.Paired collection h) (hfits : state.Fits schema collection)
    (hedit : edit.IsNumberedEdit) (hroom : ∀ s ∈ h.scans, RoomFor h edit s)
    (hedited : Edited schema collection state h edit outcome state') :
    outcome.isOk = true ↔ state.Makes schema collection edit := by
  have hnames := Entries.Names.sid hedit.number
  have hlookup := hnames.editLookup_eq
  have hrecord := hedit.isRecord
  cases hedited with
  | @stored _ h' lookup document s x heditable hdocument =>
    refine ⟨fun _ => ?_, fun _ => rfl⟩
    obtain ⟨rfl, hd, hsame⟩ := heditable.names_sid hs.keyed hedit.number
    obtain ⟨hmanaged, hmotors, hfields⟩ := Schema.permits_of_validate_merged hdocument
      hrecord.texts hrecord.distinct heditable.valid
    refine ⟨⟨document, hd, hsame⟩, hmanaged, heditable.mapping, ?_, hfields⟩
    exact motorProblems_eq_nil_iff.mpr fun e he => hmotors e
      (Entries.mem_update_of_mem _ (Entries.motorChanges_textKeys hedit.json) hrecord.mnemonics he)
  | failed hnot =>
    refine ⟨nofun, fun hmakes => ?_⟩
    obtain ⟨d, hd, hsame⟩ := hmakes.named
    obtain ⟨s, hmem, x, hx, hsid⟩ := hs.exists_scan hd
    have hfound : findDocuments [(sidKey, edit.get sidKey)]
        (state.documents.documents collection) = .ok [d] :=
      (findDocuments_of_forall fun d _ => hnames.answers d).trans
        (congrArg _ (hs.keyed.filter_number hedit.number hd hsame))
    have hmotors : ∀ e ∈ (h.positionsOf s.scanId).toEntries, IsMotor e :=
      hfits.motors (h.recordOf s) (hs.shows.records ▸ List.mem_map_of_mem hmem)
    have hvalid := hmakes.accepts.validate_merged hmakes.managed hx (hfits.documents d hd) hmotors
      hrecord.texts hrecord.distinct
    exact absurd (hroom s hmem) (hnot _ d s
      ⟨hlookup, hfound, hmem, ⟨x, hx, hsid⟩, hmakes.accepts.mapping, hvalid⟩)

/-- An edit keeps the sids. -/
theorem Edited.sids_eq (hedited : Edited schema collection state h edit outcome state') :
    (state'.documents.documents collection).map (Entries.get · sidKey) =
      (state.documents.documents collection).map (Entries.get · sidKey) := by
  cases hedited with
  | stored _ _ _ hdocuments =>
    rw [hdocuments, editedDocuments, List.map_map]
    refine List.map_congr_left fun d _ => ?_
    rw [Function.comp_apply, CatalogState.get_editedDocument]
  | failed _ _ hdocuments => rw [hdocuments]

/-- An edit uses up row numbers for the motors of its scan, and adds some of its own to them. -/
theorem Edited.motors_le (hs : state.Paired collection h)
    (hm : ∀ r ∈ state.motors.records, r.motors.length ≤ m)
    (hedited : Edited schema collection state h edit outcome state') :
    state'.motors.tables.lastMotor ≤ state.motors.tables.lastMotor + (m + edit.motorCount) ∧
      ∀ r ∈ state'.motors.records, r.motors.length ≤ m + edit.motorCount := by
  rw [hs.shows.records] at hm
  rw [hs.shows.tables]
  cases hedited with
  | @stored _ h' lookup document s x heditable _ _ _ hshows _ _ hrecords hlast =>
    rw [hshows.tables, hshows.records, hrecords]
    refine ⟨?_, ?_⟩
    · have hmotors : (h.positionsOf s.scanId).toEntries.length ≤ m :=
        hm (h.recordOf s) (List.mem_map_of_mem heditable.scan)
      have hlength := Entries.length_update_le (h.positionsOf s.scanId).toEntries edit.motorChanges
      change h'.lastMotor ≤ h.lastMotor + (m + edit.motorChanges.length)
      omega
    · rw [editedRecords, List.forall_mem_map]
      intro r hr
      have hmotors := hm r hr
      have hlength := Entries.length_update_le r.motors edit.storedMotors
      rw [Entries.length_storedMotors] at hlength
      split
      · exact Nat.le_trans hlength (Nat.add_le_add_right hmotors _)
      · exact Nat.le_add_right_of_le hmotors
  | failed _ _ _ hshows =>
    rw [hshows.tables, hshows.records]
    exact ⟨Nat.le_add_right _ _, fun r hr => Nat.le_add_right_of_le (hm r hr)⟩

/-- An edit overrides the record of the sid that it names, if it succeeds, and no other. -/
theorem Edited.overrides (hs : state.Paired collection h) (hfits : state.Fits schema collection)
    (hedit : edit.IsNumberedEdit) (hroom : ∀ s ∈ h.scans, RoomFor h edit s)
    (hedited : Edited schema collection state h edit outcome state') (x : Binary64) :
    CatalogState.Overrides collection
      (fun e => e = edit ∧ state.Makes schema collection e ∧ e.NamesSid x) state state' x := by
  have hsucceeds := hedited.succeeds_iff hs hfits hedit hroom
  cases hedited with
  | @stored _ h' lookup document s y heditable hdocument _ hdocuments hshows _ _ hrecords =>
    obtain ⟨rfl, -, hsame⟩ := heditable.names_sid hs.keyed hedit.number
    have hnames : edit.NamesSid y := by
      rw [hdocument.get] at hsame
      exact hsame
    rw [← hs.shows.records, ← hshows.records] at hrecords
    have hmade : state.Makes schema collection edit := hsucceeds.mp rfl
    refine (CatalogState.overrides_edited hs hedit.isRecord hnames hdocuments hrecords x).congr
      fun e => and_congr_right ?_
    rintro rfl
    rw [and_iff_right hmade]
  | failed _ _ hdocuments hshows =>
    refine .refl (by rw [hdocuments]) (by rw [hshows.records, hs.shows.records]) ?_
    rintro _ ⟨rfl, hmade, -⟩
    cases hsucceeds.mpr hmade

end Catalog

/-! ### Edits one after the other -/

namespace CatalogState

/-- There is room for an edit, if there are row numbers left for the motors that it merges. -/
theorem roomFor_of_le (hs : state.Paired collection h)
    (hm : ∀ r ∈ state.motors.records, r.motors.length ≤ m)
    (hroom : state.motors.tables.lastMotor + (m + edit.motorCount) ≤ Tables.lastNumber) :
    ∀ s ∈ h.scans, RoomFor h edit s := by
  intro s hmem
  rw [hs.shows.records] at hm
  rw [hs.shows.tables] at hroom
  have hmotors : (h.positionsOf s.scanId).toEntries.length ≤ m :=
    hm (h.recordOf s) (List.mem_map_of_mem hmem)
  have hlength := Entries.length_update_le (h.positionsOf s.scanId).toEntries edit.motorChanges
  have hlast : h.lastMotor + (m + edit.motorChanges.length) ≤ Tables.lastNumber := hroom
  unfold RoomFor
  omega

/-- Of edits one after the other, those succeed whose scans are stored and whose own entries are
acceptable. The record of each sid is overridden by those of them that name it. -/
theorem Reached.edits_override {edits : List Entries} {outcomes : List (Except Fault Entries)}
    (hsteps : Steps (Action.Step (embedded config router schema collection serviceName).editRecord)
      state edits outcomes state')
    (hs : state.Reached config router schema collection serviceName n)
    (hedits : ∀ e ∈ edits, Entries.IsNumberedEdit e)
    (hindependent : edits.Pairwise Entries.Independent)
    (hm : ∀ r ∈ state.motors.records, r.motors.length ≤ m)
    (hroom : state.motors.tables.lastMotor + edits.length * (m + Entries.motorTotal edits) ≤
      Tables.lastNumber) :
    List.Forall₂ (fun e outcome => outcome.isOk = true ↔ state.Makes schema collection e)
        edits outcomes ∧
      ∀ x, Overrides collection
        (fun e => e ∈ edits ∧ state.Makes schema collection e ∧ e.NamesSid x) state state' x := by
  -- what comes after an edit cannot undo it, since none of it changes the same
  induction hsteps generalizing n m with
  | nil s => exact ⟨.nil, fun x => .refl rfl rfl fun _ he => List.not_mem_nil he.1⟩
  | @cons state t state' edit rest outcome outcomes hstep hrest ih =>
    obtain ⟨hedit, heditsRest⟩ := List.forall_mem_cons.mp hedits
    obtain ⟨hapart, hindependentRest⟩ := List.pairwise_cons.mp hindependent
    obtain ⟨h, hpaired, -, -⟩ := hs.paired
    have hedited := editRecord_cases hpaired hedit.isRecord hstep
    rw [List.length_cons, Entries.motorTotal, Nat.succ_mul, ← Nat.add_assoc m] at hroom
    have hfirstRoom : ∀ s ∈ h.scans, RoomFor h edit s := roomFor_of_le hpaired hm (by omega)
    obtain ⟨hlast, hmRest⟩ := hedited.motors_le hpaired hm
    obtain ⟨houtcomes, hoverrides⟩ := ih (hs.edited hedit.isRecord hstep) heditsRest
      hindependentRest hmRest (by omega)
    have hmakes : ∀ e : Entries, t.Makes schema collection e ↔ state.Makes schema collection e :=
      makes_iff_of_sids hedited.sids_eq
    refine ⟨.cons (hedited.succeeds_iff hpaired hs.fits hedit hfirstRoom) ?_, fun x => ?_⟩
    · exact houtcomes.imp fun e outcome hiff => hiff.trans (hmakes e)
    · have hfirst := hedited.overrides hpaired hs.fits hedit hfirstRoom x
      refine (hfirst.trans (hoverrides x) ?_).congr fun e => ?_
      · rintro _ other ⟨rfl, -, hnames⟩ ⟨hother, -, hnames'⟩
        exact hapart other hother x hnames hnames'
      · rw [hmakes e, List.mem_cons, or_and_right]

/-- Edits that do not change the same of any scan can be made in any order: the same of them
succeed, and each record is the same afterwards, overridden by all that succeed and name it. -/
theorem Reached.edits_any_order
    (hs : state.Reached config router schema collection serviceName n)
    {edits edits' : List Entries} (hperm : edits.Perm edits')
    (hedits : ∀ e ∈ edits, Entries.IsNumberedEdit e)
    (hindependent : edits.Pairwise Entries.Independent)
    (hm : ∀ r ∈ state.motors.records, r.motors.length ≤ m)
    (hroom : state.motors.HasRoom 0 (edits.length * (m + Entries.motorTotal edits)))
    {outcomes outcomes' : List (Except Fault Entries)}
    {state₁ state₂ : CatalogState TableServer Collections}
    (hsteps : Steps (Action.Step (embedded config router schema collection serviceName).editRecord)
      state edits outcomes state₁)
    (hsteps' : Steps (Action.Step (embedded config router schema collection serviceName).editRecord)
      state edits' outcomes' state₂) :
    (∃ made : Entries → Prop,
      List.Forall₂ (fun e outcome => outcome.isOk = true ↔ made e) edits outcomes ∧
      List.Forall₂ (fun e outcome => outcome.isOk = true ↔ made e) edits' outcomes' ∧
      ∀ x, Overrides collection (fun e => e ∈ edits ∧ made e ∧ e.NamesSid x) state state₁ x) ∧
    ∀ x, Option.Rel Entries.SameRecord (state₁.recordOf? collection x)
      (state₂.recordOf? collection x) := by
  obtain ⟨houtcomes, hoverrides⟩ := edits_override hsteps hs hedits hindependent hm hroom.motors
  have hroom' := hroom.motors
  rw [hperm.length_eq, Entries.motorTotal_perm hperm] at hroom'
  obtain ⟨houtcomes', hoverrides'⟩ := edits_override hsteps' hs
    (fun e he => hedits e (hperm.mem_iff.mpr he))
    ((hperm.pairwise_iff Entries.Independent.symm).mp hindependent) hm hroom'
  refine ⟨⟨state.Makes schema collection, houtcomes, houtcomes', hoverrides⟩, fun x => ?_⟩
  refine (hoverrides x).sameRecord ((hoverrides' x).congr fun e => ?_)
  rw [hperm.mem_iff]

end CatalogState

namespace Catalog

/-- An edit that gives the scan at zero a title. -/
def titleEdit : Entries := [(sidKey, .int 0), ("title", "t")]

/-- An edit that gives the scan at zero a motor. -/
def motorEdit : Entries := [(sidKey, .int 0), (motorsKey, .map [("c", .int 1)])]

theorem titleEdit_isNumberedEdit : titleEdit.IsNumberedEdit where
  json := by
    refine .map (List.forall_mem_cons.mpr ⟨⟨"sid", rfl⟩, ?_⟩) ?_
      (List.forall_mem_cons.mpr ⟨.int 0, List.forall_mem_singleton.mpr (.text "t")⟩)
    · exact List.forall_mem_singleton.mpr ⟨"title", rfl⟩
    · unfold Entries.Distinct
      decide
  encodable := nofun
  number := rfl

theorem motorEdit_isNumberedEdit : motorEdit.IsNumberedEdit where
  json := by
    have hmotors : (Value.map [("c", .int 1)]).IsJson :=
      .map (List.forall_mem_singleton.mpr ⟨"c", rfl⟩) (List.pairwise_singleton _ _)
        (List.forall_mem_singleton.mpr (.int 1))
    refine .map (List.forall_mem_cons.mpr ⟨⟨"sid", rfl⟩, ?_⟩) ?_
      (List.forall_mem_cons.mpr ⟨.int 0, List.forall_mem_singleton.mpr hmotors⟩)
    · exact List.forall_mem_singleton.mpr ⟨"motors", rfl⟩
    · unfold Entries.Distinct
      decide
  encodable := by
    intro e he t ht
    rw [List.mem_singleton.mp he] at ht
    cases ht
    decide
  number := rfl

theorem titleEdit_independent : titleEdit.Independent motorEdit := by
  refine fun _ _ _ => ⟨fun t ht => .inr ?_, fun t => .inl rfl⟩
  rw [← Bool.not_eq_true, isReserved_text, not_or] at ht
  unfold motorEdit
  rw [Entries.get?_cons, if_neg (mt Value.same_text_iff.mp ht.1), Entries.get?_cons,
    if_neg (mt Value.same_text_iff.mp ht.2)]
  rfl

end Catalog

/-- The title and the motor can be given in both orders. -/
theorem CatalogState.Reached.edits_any_order_withRecord :
    ∃ outcomes outcomes' state₁ state₂,
      Steps (Action.Step inMemory.editRecord) withRecord [titleEdit, motorEdit] outcomes state₁ ∧
      Steps (Action.Step inMemory.editRecord) withRecord [motorEdit, titleEdit] outcomes' state₂ ∧
      outcomes.map Except.isOk = [true, true] ∧
      outcomes'.map Except.isOk = [true, true] ∧
      ∀ x, Option.Rel Entries.SameRecord (state₁.recordOf? "scans" x)
        (state₂.recordOf? "scans" x) := by
  have hedits : ∀ e ∈ [titleEdit, motorEdit], Entries.IsNumberedEdit e :=
    List.forall_mem_cons.mpr ⟨titleEdit_isNumberedEdit,
      List.forall_mem_singleton.mpr motorEdit_isNumberedEdit⟩
  have hindependent : [titleEdit, motorEdit].Pairwise Entries.Independent :=
    List.pairwise_pair.mpr titleEdit_independent
  have hm : ∀ r ∈ withRecord.motors.records, r.motors.length ≤ 1 := by
    rw [withRecord_records]
    exact List.forall_mem_singleton.mpr (Nat.le_refl 1)
  have hroom : withRecord.motors.HasRoom 0 4 := ⟨by decide, by decide⟩
  have hsteps (first last : Entries) :
      Steps (Action.Step inMemory.editRecord) withRecord [first, last] _ _ :=
    .cons (Prod.eta _).symm (.cons (Prod.eta _).symm (.nil _))
  refine ⟨_, _, _, _, hsteps titleEdit motorEdit, hsteps motorEdit titleEdit,
    by decide +kernel, by decide +kernel, ?_⟩
  exact (CatalogState.Reached.edits_any_order withRecord_reached (.swap motorEdit titleEdit [])
    hedits hindependent hm hroom (hsteps titleEdit motorEdit) (hsteps motorEdit titleEdit)).2

end ScanCatalog
