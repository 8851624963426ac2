import ScanCatalog.Proofs.Catalog.Paired

/-!
# What an edit makes of a record

An edit changes fields of its record and merges its motors into those of the record. The sid
stays, and so do the fields by which the record is named.

## Main definitions

* `Entries.plainChanges`, `Entries.motorChanges`: what an edit changes;
* `Entries.merged`: a record with an edit merged in.

## Main statements

* `Catalog.editLookup_eq_ok`: how an edit names its record;
* `Catalog.applyChanges_eq_ok`: the record that an edit makes of a stored one;
* `Catalog.checkMotors_merged`, `Catalog.storedMotors_merged`: the merged motors.
-/

namespace ScanCatalog

namespace Entries

/-- The fields of an edit that neither name its record nor are its motors. -/
def plainChanges (lookup edit : Entries) : Entries :=
  (Catalog.changesOf lookup edit).erase motorsKey

/-- The motors of an edit. -/
def motorChanges (edit : Entries) : Entries := (edit.get motorsKey).entries?.getD []

/-- The motors of an edit are a mapping, if it has any. -/
def MotorsAreMapping (edit : Entries) : Prop :=
  ∀ v, edit.get? motorsKey = some v → ∃ changes, v = .map changes

/-- The record of a document and motors, with an edit merged in. -/
def merged (document motors lookup edit : Entries) : Entries :=
  Entries.update (document.set motorsKey (.map (motors.update edit.motorChanges)))
    (plainChanges lookup edit)

variable {document motors lookup edit : Entries} {x : Binary64}

theorem plainChanges_textKeys (hedit : edit.TextKeys) (lookup : Entries) :
    (plainChanges lookup edit).TextKeys := (hedit.filter _).filter _

theorem plainChanges_sid (lookup edit : Entries) :
    (plainChanges lookup edit).has sidKey = false := by
  refine has_text_eq_false_iff.mpr fun e he hkey => ?_
  have hcondition := (List.mem_filter.mp (List.mem_filter.mp he).1).2
  rw [hkey, Bool.and_eq_true] at hcondition
  exact absurd hcondition.2 (by decide)

theorem plainChanges_motors (lookup edit : Entries) :
    (plainChanges lookup edit).has motorsKey = false := has_erase_self _ _

/-- The motors of a merged record. -/
theorem get_merged (document motors lookup edit : Entries) :
    (merged document motors lookup edit).get motorsKey =
      .map (motors.update edit.motorChanges) := by
  unfold merged Entries.get
  rw [get?_update_of_ne (has_text_eq_false_iff.mp (plainChanges_motors lookup edit)),
    get?_set_self]
  rfl

/-- The document of a merged record is the old one with the plain changes. -/
theorem update_merged (hd : document.IsDocument x) (hedit : edit.TextKeys) :
    document.update ((merged document motors lookup edit).erase motorsKey) =
      document.update (plainChanges lookup edit) := by
  have herase : (merged document motors lookup edit).erase motorsKey =
      document.update (plainChanges lookup edit) := by
    unfold merged
    rw [erase_update _ (plainChanges_textKeys hedit lookup) (plainChanges_motors lookup edit),
      erase_set_self, erase_of_not_has hd.motors]
  rw [herase, update_update hd.texts hd.distinct]

end Entries

namespace Catalog

/-- An edit names its record by its sid, or by its file and number. -/
theorem editLookup_eq_ok {edit lookup : Entries} (h : editLookup edit = .ok lookup) :
    lookup = [(sidKey, edit.get sidKey)] ∨
      lookup = lookupKeys.map fun key => (key, edit.get key) := by
  unfold editLookup at h
  dsimp only at h
  split at h
  · cases h
    exact .inl rfl
  · split at h
    · cases h
      exact .inr rfl
    · cases h

theorem has_motors_of_editLookup {edit lookup : Entries} (h : editLookup edit = .ok lookup) :
    lookup.has motorsKey = false := by
  rcases editLookup_eq_ok h with rfl | rfl <;> rfl

section

variable {document motors lookup edit record : Entries}

/-- The changes of an edit have its motors. -/
theorem get?_changesOf (hlookup : lookup.has motorsKey = false) (edit : Entries) :
    (changesOf lookup edit).get? motorsKey = edit.get? motorsKey := by
  refine Entries.get?_filter fun e _ hkey => ?_
  rw [hkey, hlookup]
  rfl

/-- An edit can be merged in if its motors are a mapping. -/
theorem applyChanges_eq_ok (hlookup : lookup.has motorsKey = false) :
    applyChanges (document.set motorsKey (.map motors)) (changesOf lookup edit) = .ok record ↔
      edit.MotorsAreMapping ∧ record = Entries.merged document motors lookup edit := by
  have hget := get?_changesOf hlookup edit
  unfold applyChanges Entries.MotorsAreMapping Entries.merged Entries.motorChanges Entries.get
  rw [hget]
  cases hmotors : edit.get? motorsKey with
  | none =>
    have hplain : Entries.plainChanges lookup edit = changesOf lookup edit := by
      refine Entries.erase_of_not_has ?_
      rw [Entries.has_eq_isSome, hget, hmotors]
      rfl
    rw [hplain]
    constructor
    · intro h
      cases h
      exact ⟨nofun, rfl⟩
    · rintro ⟨-, rfl⟩
      rfl
  | some v =>
    have hrecord : (document.set motorsKey (.map motors)).get motorsKey = .map motors := by
      rw [Entries.get, Entries.get?_set_self]
      rfl
    dsimp only
    unfold mergedMotors
    rw [hrecord]
    constructor
    · intro h
      cases v with
      | map changes =>
        rw [Outcome.ok_bind, Entries.set_set] at h
        cases h
        refine ⟨fun w hw => ?_, rfl⟩
        cases hw
        exact ⟨changes, rfl⟩
      | _ => cases h
    · rintro ⟨hmapping, rfl⟩
      obtain ⟨changes, rfl⟩ := hmapping v rfl
      dsimp only
      rw [Outcome.ok_bind, Entries.set_set]
      rfl

end

/-! ### Merged motors -/

variable {schema : Schema} {h : Holdings} {document edit lookup : Entries}

/-- The mnemonics of a scan come once. -/
theorem positionsOf_distinct (hh : h.Sound) (scanId : Nat) :
    (h.positionsOf scanId).toEntries.Distinct := by
  have hmotors : (h.ofScan scanId).Pairwise fun m n => m.mnemonic ≠ n.mnemonic := by
    refine List.Pairwise.imp_of_mem (fun {m n} hm hn hne => hne ?_)
      (hh.mnemonics.filter fun m => decide (m.scanId = scanId))
    have hm : m.scanId = scanId := of_decide_eq_true (List.mem_filter.mp hm).2
    have hn : n.scanId = scanId := of_decide_eq_true (List.mem_filter.mp hn).2
    rw [hm, hn]
  refine List.pairwise_map.mpr (List.pairwise_map.mpr (hmotors.imp fun {m n} hne => ?_))
  change (Value.text n.mnemonic).same (.text m.mnemonic) = false
  rw [Value.same_text]
  exact beq_false_of_ne hne.symm

theorem mergedMotors_encodable (hh : h.Sound) (scanId : Nat) (hedit : edit.IsRecord) :
    (Value.map ((h.positionsOf scanId).toEntries.update edit.motorChanges)).EncodableKeys := by
  intro e he t ht
  have hkey : e.1 ∈ ((h.positionsOf scanId).toEntries.update edit.motorChanges).keys :=
    List.mem_map_of_mem he
  rcases Entries.mem_keys_update hkey with hkey | hkey
  · rw [Positions.keys_toEntries] at hkey
    obtain ⟨p, hp, hpt⟩ := List.mem_map.mp hkey
    obtain ⟨m, hm, rfl⟩ := List.mem_map.mp hp
    rw [← Value.text.inj (hpt.trans ht)]
    exact hh.encodable m (List.mem_filter.mp hm).1
  · obtain ⟨e', he', hkey⟩ := List.mem_map.mp hkey
    exact hedit.encodable e' he' t (hkey.trans ht)

/-- Motors merged with those of an edit are stored as the old ones with those of the edit. -/
theorem storedMotors_merged (hh : h.Unsigned) (scanId : Nat) (edit : Entries) :
    (Value.map ((h.positionsOf scanId).toEntries.update edit.motorChanges)).storedMotors =
      (h.positionsOf scanId).toEntries.update edit.storedMotors := by
  have hold : Entries.mapValues Value.asStored (h.positionsOf scanId).toEntries =
      (h.positionsOf scanId).toEntries := hh.storedMotors scanId
  change Entries.mapValues Value.asStored
    ((h.positionsOf scanId).toEntries.update edit.motorChanges) = _
  rw [Entries.mapValues_update, hold]
  rfl

/-- The motors of a merged record that passes the checks pass the check of the motor store. -/
theorem checkMotors_merged {motors : Entries}
    (hvalid : schema.validate (.map (Entries.merged document motors lookup edit)) = .ok ()) :
    ∃ checked, checkMotors (.map (motors.update edit.motorChanges)) = .ok checked := by
  rcases Schema.motors_of_validate hvalid with hnull | ⟨entries, checked, hmap, hchecked⟩
  · cases (Entries.get_merged document motors lookup edit).symm.trans hnull
  · cases (Entries.get_merged document motors lookup edit).symm.trans hmap
    exact ⟨checked, (checkMotors_map _).trans hchecked⟩

end Catalog

end ScanCatalog
