import ScanCatalog.Proofs.Catalog.Valid

/-!
# Records that edits override

What several edits make of a record, in whatever order they come, if no two of them change the
same: each field and each motor is that of the edit that has it, or else the old one.

## Main definitions

* `Entries.motorAt?`: the position of a mnemonic in a record or an edit;
* `Entries.ChangeApart`: edits that do not change the same;
* `Entries.Overridden`: a record with the changes of some edits;
* `Entries.SameRecord`: records that are the same mapping;
* `CatalogState.recordOf?`: the record of a sid, put together of both stores;
* `CatalogState.Overrides`: what edits make of the record of a sid.

## Main statements

* `Entries.Overridden.trans`: edits that come after others;
* `Entries.Overridden.sameRecord`: there is one record with the changes of some edits;
* `CatalogState.overrides_edited`: one edit.
-/

namespace ScanCatalog

open ScanCatalog.Action MotorStore Catalog

namespace Entries

/-- The position of a mnemonic in the motors of a record or of an edit. -/
def motorAt? (record : Entries) (mnemonic : Text) : Option Value :=
  Entries.get? ((record.get motorsKey).entries?.getD []) (.text mnemonic)

/-- Two edits that have no field in common but for the managed keys, and no mnemonic. -/
structure ChangeApart (edit other : Entries) : Prop where
  fields : ∀ t, isReserved (.text t) = false →
    edit.get? (.text t) = none ∨ other.get? (.text t) = none
  motors : ∀ t, edit.motorAt? t = none ∨ other.motorAt? t = none

theorem ChangeApart.symm {edit other : Entries} (h : ChangeApart edit other) :
    ChangeApart other edit := ⟨fun t ht => (h.fields t ht).symm, fun t => (h.motors t).symm⟩

/-- A record with the changes of some edits: what an edit has is as in that edit, its motors as
the tables keep them, and what none of the edits has is as before. -/
structure Overridden (changes : Entries → Prop) (before after : Entries) : Prop where
  sid : after.get? sidKey = before.get? sidKey
  changed : ∀ edit t value, changes edit → isReserved (.text t) = false →
    edit.get? (.text t) = some value → after.get? (.text t) = some value
  kept : ∀ t, isReserved (.text t) = false → (∀ edit, changes edit → edit.get? (.text t) = none) →
    after.get? (.text t) = before.get? (.text t)
  moved : ∀ edit t position, changes edit → edit.motorAt? t = some position →
    after.motorAt? t = some position.asStored
  stayed : ∀ t, (∀ edit, changes edit → edit.motorAt? t = none) →
    after.motorAt? t = before.motorAt? t

/-- Records with the same value under each key, and the same position under each mnemonic. -/
structure SameRecord (record other : Entries) : Prop where
  fields : ∀ t, Value.text t ≠ motorsKey → record.get? (.text t) = other.get? (.text t)
  motors : ∀ t, record.motorAt? t = other.motorAt? t

variable {changes others : Entries → Prop} {before middle after edit : Entries}

theorem Overridden.congr (h : Overridden changes before after)
    (hchanges : ∀ edit, changes edit ↔ others edit) : Overridden others before after := by
  rwa [← funext fun edit => propext (hchanges edit)]

/-- Without changes a record is as it was. -/
theorem Overridden.refl (hnone : ∀ edit, ¬ changes edit) (record : Entries) :
    Overridden changes record record where
  sid := rfl
  changed edit _ _ hedit := absurd hedit (hnone edit)
  kept _ _ _ := rfl
  moved edit _ _ hedit := absurd hedit (hnone edit)
  stayed _ _ := rfl

/-- Edits that come after others keep what those have changed, if they change nothing of the
same. -/
theorem Overridden.trans (hfirst : Overridden changes before middle)
    (hlast : Overridden others middle after)
    (hapart : ∀ edit other, changes edit → others other → ChangeApart edit other) :
    Overridden (fun edit => changes edit ∨ others edit) before after where
  sid := hlast.sid.trans hfirst.sid
  changed edit t value hedit ht hvalue := by
    rcases hedit with hedit | hedit
    · refine (hlast.kept t ht fun other hother => ?_).trans
        (hfirst.changed edit t value hedit ht hvalue)
      refine ((hapart edit other hedit hother).fields t ht).resolve_left fun hnone => ?_
      cases hvalue.symm.trans hnone
    · exact hlast.changed edit t value hedit ht hvalue
  kept t ht hnone := (hlast.kept t ht fun edit hedit => hnone edit (.inr hedit)).trans
    (hfirst.kept t ht fun edit hedit => hnone edit (.inl hedit))
  moved edit t position hedit hposition := by
    rcases hedit with hedit | hedit
    · refine (hlast.stayed t fun other hother => ?_).trans
        (hfirst.moved edit t position hedit hposition)
      refine ((hapart edit other hedit hother).motors t).resolve_left fun hnone => ?_
      cases hposition.symm.trans hnone
    · exact hlast.moved edit t position hedit hposition
  stayed t hnone := (hlast.stayed t fun edit hedit => hnone edit (.inr hedit)).trans
    (hfirst.stayed t fun edit hedit => hnone edit (.inl hedit))

/-- There is one record with the changes of some edits. -/
theorem Overridden.sameRecord {record other : Entries} (hrecord : Overridden changes before record)
    (hother : Overridden changes before other) : SameRecord record other where
  fields t ht := by
    by_cases hreserved : isReserved (.text t) = true
    · rw [((isReserved_text t).mp hreserved).resolve_right ht, hrecord.sid, hother.sid]
    have hreserved := Bool.eq_false_iff.mpr hreserved
    by_cases hsome : ∃ edit value, changes edit ∧ edit.get? (.text t) = some value
    · obtain ⟨edit, value, hedit, hvalue⟩ := hsome
      rw [hrecord.changed edit t value hedit hreserved hvalue,
        hother.changed edit t value hedit hreserved hvalue]
    · have hnone : ∀ edit, changes edit → edit.get? (.text t) = none := fun edit hedit =>
        Option.eq_none_iff_forall_ne_some.mpr fun value hvalue => hsome ⟨edit, value, hedit, hvalue⟩
      rw [hrecord.kept t hreserved hnone, hother.kept t hreserved hnone]
  motors t := by
    by_cases hsome : ∃ edit position, changes edit ∧ edit.motorAt? t = some position
    · obtain ⟨edit, position, hedit, hposition⟩ := hsome
      rw [hrecord.moved edit t position hedit hposition,
        hother.moved edit t position hedit hposition]
    · have hnone : ∀ edit, changes edit → edit.motorAt? t = none := fun edit hedit =>
        Option.eq_none_iff_forall_ne_some.mpr fun value hvalue => hsome ⟨edit, value, hedit, hvalue⟩
      rw [hrecord.stayed t hnone, hother.stayed t hnone]

/-! ### One edit -/

/-- The fields that an edit changes are its own, if it names its scan by the sid. -/
theorem get?_plainChanges (sid : Value) (edit : Entries) {t : Text}
    (ht : isReserved (.text t) = false) :
    (plainChanges [(sidKey, sid)] edit).get? (.text t) = edit.get? (.text t) := by
  rw [← Bool.not_eq_true, isReserved_text, not_or] at ht
  unfold plainChanges
  refine (get?_filter fun e _ hkey => ?_).trans (get?_filter fun e _ hkey => ?_)
  · rw [hkey, Bool.not_eq_true', ← Bool.not_eq_true, Value.same_text_iff]
    exact Ne.symm ht.2
  · have hsid : (Value.text t).same sidKey = false := by
      rw [← Bool.not_eq_true, Value.same_text_iff]
      exact ht.1
    rw [hkey, has_cons, hsid]
    rfl

/-- The motors of a record that is put together are those of its scan. -/
theorem motorAt?_set (document motors : Entries) (t : Text) :
    motorAt? (document.set motorsKey (.map motors)) t = motors.get? (.text t) := by
  unfold motorAt? Entries.get
  rw [get?_set_self]
  rfl

/-- A document and motors that an edit changes make the record with its changes. -/
theorem overridden_edit (hedit : edit.IsRecord) (document motors : Entries) (sid : Value) :
    Overridden (· = edit) (document.set motorsKey (.map motors))
      ((document.update (plainChanges [(sidKey, sid)] edit)).set motorsKey
        (.map (motors.update edit.storedMotors))) := by
  have hplain := plainChanges_distinct hedit.distinct [(sidKey, sid)]
  have hstored : edit.storedMotors.Distinct := Distinct.mapValues hedit.mnemonics Value.asStored
  have hposition (t : Text) : edit.storedMotors.get? (.text t) =
      (edit.motorAt? t).map Value.asStored := get?_mapValues _ _ _
  have hfield {t : Text} (ht : isReserved (.text t) = false) :
      Entries.get? ((document.update (plainChanges [(sidKey, sid)] edit)).set motorsKey
          (.map (motors.update edit.storedMotors))) (.text t) =
        (edit.get? (.text t)).or ((document.set motorsKey (.map motors)).get? (.text t)) := by
    have hne : motorsKey ≠ .text t := fun hkey => absurd (hkey ▸ ht) (by decide)
    rw [get?_set_of_ne hne, get?_set_of_ne hne, get?_update _ hplain, get?_plainChanges sid edit ht]
  refine ⟨?_, ?_, ?_, ?_, ?_⟩
  · rw [get?_set_of_ne (by decide), get?_set_of_ne (by decide),
      get?_update_of_ne (has_text_eq_false_iff.mp (plainChanges_sid _ edit))]
  · rintro _ t value rfl ht hvalue
    rw [hfield ht, hvalue]
    rfl
  · intro t ht hnone
    rw [hfield ht, hnone edit rfl]
    rfl
  · rintro _ t position rfl hvalue
    rw [motorAt?_set, get?_update _ hstored, hposition, hvalue]
    rfl
  · intro t hnone
    rw [motorAt?_set, motorAt?_set, get?_update _ hstored, hposition, hnone edit rfl]
    rfl

/-- The edit names the scan of a sid, by a number that is equal to it. -/
def NamesSid (edit : Entries) (x : Binary64) : Prop :=
  (Value.float x).same (edit.get sidKey) = true

/-- An edit names the scans whose sids are equal to one that it names. -/
theorem NamesSid.iff_same {x y : Binary64} (h : edit.NamesSid x) :
    edit.NamesSid y ↔ y.same x = true := by
  unfold NamesSid at h ⊢
  constructor
  · intro hy
    rw [← Value.same_float, ← Value.same_of_float_same hy, Value.same_float_comm]
    exact h
  · intro hyx
    have hsame : (Value.float y).same (.float x) = true := hyx
    rw [← Value.same_of_float_same hsame]
    exact h

/-- An edit of one scan changes the document and the motors of a sid just if it names that
sid. -/
theorem overridden_edit_of_named {x : Binary64} (hedit : edit.IsRecord) (hnames : edit.NamesSid x)
    (y : Binary64) (document motors : Entries) :
    Overridden (fun e => e = edit ∧ edit.NamesSid y) (document.set motorsKey (.map motors))
      ((if y.same x then document.update (plainChanges [(sidKey, edit.get sidKey)] edit)
        else document).set motorsKey
          (.map (if y.same x then motors.update edit.storedMotors else motors))) := by
  by_cases hnamesY : edit.NamesSid y
  · have hyx := hnames.iff_same.mp hnamesY
    rw [if_pos hyx, if_pos hyx]
    refine (overridden_edit hedit document motors (edit.get sidKey)).congr fun e => ?_
    rw [and_iff_left hnamesY]
  · have hyx : ¬ y.same x = true := fun hyx => hnamesY (hnames.iff_same.mpr hyx)
    rw [if_neg hyx, if_neg hyx]
    exact .refl (fun _ he => hnamesY he.2) _

end Entries

/-- The record of a sid: its document with the motors of its scan. -/
def CatalogState.recordOf? (collection : Text) (state : CatalogState TableServer Collections)
    (x : Binary64) : Option Entries :=
  ((state.documents.documents collection).find? fun d =>
    (Entries.get d sidKey).same (.float x)).bind fun d => d.completed? state.motors.records

namespace CatalogState

variable {collection : Text} {state state' : CatalogState TableServer Collections} {h : Holdings}
  {edit : Entries} {x : Binary64}

/-- There is a record of a sid before and after, and it is overridden by some edits, or there is
none before or after. -/
def Overrides (collection : Text) (changes : Entries → Prop)
    (state state' : CatalogState TableServer Collections) (x : Binary64) : Prop :=
  Option.Rel (Entries.Overridden changes) (state.recordOf? collection x)
    (state'.recordOf? collection x)

variable {changes others : Entries → Prop} {middle other : CatalogState TableServer Collections}

theorem Overrides.congr (h : Overrides collection changes state state' x)
    (hchanges : ∀ edit, changes edit ↔ others edit) :
    Overrides collection others state state' x := by
  rwa [← funext fun edit => propext (hchanges edit)]

/-- Records are as they were if both stores are. -/
theorem Overrides.refl
    (hdocuments : state'.documents.documents collection = state.documents.documents collection)
    (hrecords : state'.motors.records = state.motors.records)
    (hnone : ∀ edit, ¬ changes edit) : Overrides collection changes state state' x := by
  have hsame : state'.recordOf? collection x = state.recordOf? collection x := by
    unfold recordOf?
    rw [hdocuments, hrecords]
  unfold Overrides
  rw [hsame]
  cases state.recordOf? collection x with
  | none => exact .none
  | some record => exact .some (.refl hnone record)

theorem Overrides.trans (hfirst : Overrides collection changes state middle x)
    (hlast : Overrides collection others middle state' x)
    (hapart : ∀ edit other, changes edit → others other → Entries.ChangeApart edit other) :
    Overrides collection (fun edit => changes edit ∨ others edit) state state' x := by
  unfold Overrides at hfirst hlast ⊢
  generalize state.recordOf? collection x = before at *
  generalize state'.recordOf? collection x = after at *
  generalize middle.recordOf? collection x = between at *
  cases hfirst with
  | none =>
    cases hlast
    exact .none
  | some hfirst =>
    cases hlast with
    | some hlast => exact .some (hfirst.trans hlast hapart)

/-- There is one record with the changes of some edits, or none. -/
theorem Overrides.sameRecord (h : Overrides collection changes state state' x)
    (hother : Overrides collection changes state other x) :
    Option.Rel Entries.SameRecord (state'.recordOf? collection x)
      (other.recordOf? collection x) := by
  unfold Overrides at h hother
  generalize state.recordOf? collection x = before at *
  generalize state'.recordOf? collection x = after at *
  generalize other.recordOf? collection x = record at *
  cases h with
  | none =>
    cases hother
    exact .none
  | some h =>
    cases hother with
    | some hother => exact .some (h.sameRecord hother)

/-- A document keeps its sid, whether an edit changes its fields or not. -/
theorem get_editedDocument (document lookup edit : Entries) (sid : Value) :
    Entries.get (if (Entries.get document sidKey).same sid then
      document.update (Entries.plainChanges lookup edit) else document) sidKey =
        document.get sidKey := by
  split
  · unfold Entries.get
    rw [Entries.get?_update_of_ne
      (Entries.has_text_eq_false_iff.mp (Entries.plainChanges_sid lookup edit))]
  · rfl

/-- The document of a sid is found in the same place after an edit. -/
theorem find?_editedDocuments (documents : List Entries) (sid found : Value)
    (lookup edit : Entries) :
    ((editedDocuments sid (Entries.plainChanges lookup edit) documents).find? fun d =>
        (Entries.get d sidKey).same found) =
      (documents.find? fun d => (Entries.get d sidKey).same found).map fun d =>
        if (Entries.get d sidKey).same sid then d.update (Entries.plainChanges lookup edit)
        else d := by
  rw [editedDocuments, List.find?_map]
  have hsids : ((fun d : Entries => (Entries.get d sidKey).same found) ∘ fun d =>
      if (Entries.get d sidKey).same sid then d.update (Entries.plainChanges lookup edit) else d) =
      fun d => (Entries.get d sidKey).same found := by
    funext d
    rw [Function.comp_apply, get_editedDocument]
  rw [hsids]

/-- A document is completed by the motors of its scan also after an edit. -/
theorem completed?_editedRecords (document : Entries) (sid : Value) (edit : Entries)
    (records : List MotorRecord) :
    document.completed? (editedRecords sid edit records) =
      (records.find? fun r => (document.get sidKey).same r.sid).map fun r =>
        document.set motorsKey
          (.map (if r.sid.same sid then r.motors.update edit.storedMotors else r.motors)) := by
  unfold Entries.completed? editedRecords
  rw [List.find?_map, Option.map_map]
  have hsids : ((fun r => (document.get sidKey).same r.sid) ∘ fun r : MotorRecord =>
      if r.sid.same sid then ⟨r.sid, r.motors.update edit.storedMotors⟩ else r) =
      fun r => (document.get sidKey).same r.sid := by
    funext r
    rw [Function.comp_apply]
    split <;> rfl
  rw [hsids]
  refine congrArg (Option.map · _) (funext fun r => ?_)
  rw [Function.comp_apply]
  split <;> rfl

/-- An edit of a scan changes the record of its sid as it says, and no other. -/
theorem overrides_edited (hs : state.Paired collection h) (hedit : edit.IsRecord)
    (hnames : edit.NamesSid x)
    (hdocuments : state'.documents.documents collection = editedDocuments (.float x)
      (Entries.plainChanges [(sidKey, edit.get sidKey)] edit)
      (state.documents.documents collection))
    (hrecords : state'.motors.records = editedRecords (.float x) edit state.motors.records)
    (y : Binary64) :
    Overrides collection (fun e => e = edit ∧ edit.NamesSid y) state state' y := by
  unfold Overrides recordOf?
  rw [hdocuments, hrecords, find?_editedDocuments]
  cases hfind : (state.documents.documents collection).find? fun d =>
    (Entries.get d sidKey).same (.float y) with
  | none => exact .none
  | some d =>
    obtain ⟨z, hz, -⟩ := hs.keyed.isDocument d (List.mem_of_find?_eq_some hfind)
    have hzy : z.same y = true := by
      have hsame := List.find?_some hfind
      rw [hz.get] at hsame
      exact hsame
    rw [Option.map_some, Option.bind_some, Option.bind_some, completed?_editedRecords]
    unfold Entries.completed?
    rw [get_editedDocument]
    cases hrecord : state.motors.records.find? fun r => (d.get sidKey).same r.sid with
    | none => exact .none
    | some r =>
      obtain ⟨w, hw⟩ := hs.shows.sound.keyed.real r
        (hs.shows.records ▸ List.mem_of_find?_eq_some hrecord)
      have hzw : z.same w = true := by
        have hsame := List.find?_some hrecord
        rw [hz.get, hw] at hsame
        exact hsame
      -- the document, the scan and the sid that is asked for are equal as numbers
      have hdocument : (d.get sidKey).same (.float x) = y.same x := by
        rw [hz.get]
        exact Binary64.same_congr_left hzy x
      have hscan : r.sid.same (.float x) = y.same x := by
        rw [← hdocument, hz.get, hw]
        exact (Binary64.same_congr_left hzw x).symm
      refine .some ?_
      dsimp only
      rw [hdocument, hscan]
      exact Entries.overridden_edit_of_named hedit hnames y d r.motors

end CatalogState

end ScanCatalog
