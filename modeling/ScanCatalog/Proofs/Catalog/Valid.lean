import ScanCatalog.Proofs.Catalog.Counted
import ScanCatalog.Proofs.Catalog.Named
import ScanCatalog.Proofs.Catalog.Paged
import ScanCatalog.Proofs.Record.Permitted
import ScanCatalog.Proofs.Value.Numbers

/-!
# Stored records stay valid

What is checked is not what is stored: a record is checked before it has its sid and its
motors are numbers, and an edit is checked merged with what both stores hold. Still every
record that is stored passes the checks, so an edit can only be refused for what it changes
itself.

## Main definitions

* `Entries.Fits`: documents that lack nothing and have nothing that is not permitted;
* `Schema.PermitsManaged`: schemas that permit what the catalog puts under its own keys;
* `Schema.Accepts`: edits whose own entries are acceptable.

## Main statements

* `Schema.Accepts.validate_merged`, `Schema.permits_of_validate_merged`: an edited record passes
  the checks just if the edit is acceptable;
* `CatalogState.Reached.fits`: both parts of what is stored fit;
* `CatalogState.Reached.stored_valid`: stored records pass the checks.
-/

namespace ScanCatalog

open ScanCatalog.Action MotorStore Catalog

/-! ### Edited records and the checks -/

theorem isReserved_text (t : Text) :
    isReserved (.text t) = true ↔ Value.text t = sidKey ∨ Value.text t = motorsKey := by
  unfold isReserved Value.isIn
  rw [List.any_cons, List.any_cons, List.any_nil, Bool.or_false, Bool.or_eq_true,
    Value.same_text_iff, Value.same_text_iff]

namespace Entries

/-- A document that has the keys that a schema requires, and under each key a value that the
schema permits. The keys that the catalog manages itself are left out. -/
structure Fits (schema : Schema) (document : Entries) : Prop where
  has : ∀ t, isReserved (.text t) = false → schema.Requires t → document.has (.text t) = true
  permits : ∀ t value, isReserved (.text t) = false → document.get? (.text t) = some value →
    schema.Permits (.text t) value

variable {document motors lookup edit : Entries} {x : Binary64} {t : Text}

/-- The mnemonics of an edit that is an object of JSON are texts. -/
theorem motorChanges_textKeys (hedit : (Value.map edit).IsJson) : edit.motorChanges.TextKeys := by
  have hmotors := hedit.get "motors"
  unfold motorChanges
  cases hvalue : edit.get motorsKey with
  | map entries =>
    rw [hvalue] at hmotors
    exact hmotors.texts
  | _ => exact nofun

theorem plainChanges_distinct (hedit : edit.Distinct) (lookup : Entries) :
    (plainChanges lookup edit).Distinct := (hedit.filter _).filter _

/-- A field of a merged record is one of the edit, or else one of the document. -/
theorem get?_merged (hedit : edit.Distinct) (hmotors : Value.text t ≠ motorsKey) :
    (merged document motors lookup edit).get? (.text t) =
      ((plainChanges lookup edit).get? (.text t)).or (document.get? (.text t)) := by
  unfold merged
  rw [get?_update _ (plainChanges_distinct hedit lookup), get?_set_of_ne hmotors.symm]

theorem get?_merged_motors :
    (merged document motors lookup edit).get? motorsKey =
      some (.map (motors.update edit.motorChanges)) := by
  unfold merged
  rw [get?_update_of_ne (has_text_eq_false_iff.mp (plainChanges_motors lookup edit)),
    get?_set_self]

theorem get?_merged_sid (hd : document.IsDocument x) (hedit : edit.Distinct) :
    (merged document motors lookup edit).get? sidKey = some (.float x) := by
  have hnone : (plainChanges lookup edit).get? sidKey = none := by
    rw [← Option.not_isSome_iff_eq_none, ← has_eq_isSome, plainChanges_sid]
    exact Bool.false_ne_true
  rw [get?_merged hedit (by decide), hnone, hd.sid]
  rfl

theorem merged_textKeys (hd : document.IsDocument x) (hedit : edit.TextKeys) (motors : Entries) :
    (merged document motors lookup edit).TextKeys :=
  (hd.texts.set _ _).update (plainChanges_textKeys hedit lookup)

theorem merged_distinct (hd : document.IsDocument x) (motors edit : Entries) :
    (merged document motors lookup edit).Distinct := (hd.distinct.set _ _).update _

/-- The document of a record that passes the checks fits. -/
theorem fits_documentOf {schema : Schema} {record : Entries}
    (hvalid : schema.validate (.map record) = .ok ()) (x : Binary64) :
    (documentOf record x).Fits schema := by
  obtain ⟨-, hrequired, hpermitted⟩ := Schema.validate_eq_ok_iff.mp hvalid
  have hget : ∀ t, isReserved (.text t) = false →
      (documentOf record x).get? (.text t) = record.get? (.text t) := by
    intro t ht
    rw [← Bool.not_eq_true, isReserved_text, not_or] at ht
    unfold documentOf
    rw [get?_set_of_ne (Ne.symm ht.1)]
    refine get?_filter fun e _ hkey => ?_
    rw [hkey, Bool.not_eq_true', ← Bool.not_eq_true, Value.same_text_iff]
    exact Ne.symm ht.2
  refine ⟨fun t ht hrequires => ?_, fun t value ht hvalue => ?_⟩
  · rw [has_of_get?_eq (hget t ht)]
    exact hrequired t hrequires
  · rw [hget t ht] at hvalue
    exact hpermitted _ (get?_eq_some_mem hvalue)

/-- A document fits with changes that are permitted. -/
theorem Fits.update {schema : Schema} (hfits : document.Fits schema) (hedit : edit.Distinct)
    (hpermitted : ∀ e ∈ plainChanges lookup edit, schema.Permits e.1 e.2) :
    (document.update (plainChanges lookup edit)).Fits schema := by
  have hget := fun t => get?_update document (plainChanges_distinct hedit lookup) t
  refine ⟨fun t ht hrequires => ?_, fun t value ht hvalue => ?_⟩
  · have hhas := hfits.has t ht hrequires
    rw [has_eq_isSome] at hhas ⊢
    rw [hget, Option.isSome_or, hhas, Bool.or_true]
  · rw [hget, Option.or_eq_some_iff] at hvalue
    rcases hvalue with hchange | ⟨-, hold⟩
    · exact hpermitted _ (get?_eq_some_mem hchange)
    · exact hfits.permits t value ht hold

end Entries

namespace Schema

variable {schema : Schema} {document motors lookup edit : Entries} {x : Binary64}

/-- A schema that permits a number for the sid, and a mapping for the motors. -/
structure PermitsManaged (schema : Schema) : Prop where
  sid : schema.Permits sidKey (.float .zero)
  motors : schema.Permits motorsKey (.map [])

/-- A schema that does not speak of the managed keys permits what is put under them. -/
theorem permitsManaged_of_find? (hsid : schema.find? sidKey = none)
    (hmotors : schema.find? motorsKey = none) : schema.PermitsManaged :=
  ⟨permits_of_find?_eq_none hsid rfl _, permits_of_find?_eq_none hmotors rfl _⟩

/-- An edit whose own entries are acceptable: its motors, if it has any, are a mapping without
problems, and the schema permits its other fields. -/
structure Accepts (schema : Schema) (lookup edit : Entries) : Prop where
  mapping : edit.MotorsAreMapping
  motors : motorProblems edit.motorChanges = .ok []
  fields : ∀ e ∈ Entries.plainChanges lookup edit, schema.Permits e.1 e.2

/-- Motors that are changed by motors are motors. -/
theorem isMotor_of_mem_update (hmotors : ∀ e ∈ motors, IsMotor e) {changes : Entries}
    (hchanges : ∀ e ∈ changes, IsMotor e) : ∀ e ∈ motors.update changes, IsMotor e := by
  intro e he
  have hkey : e.1 ∈ (motors.update changes).keys := List.mem_map_of_mem he
  have hmnemonic : ∃ t, e.1 = .text t ∧ t.isEmpty = false := by
    rcases Entries.mem_keys_update hkey with hkey | hkey
    · obtain ⟨e', he', hkey⟩ := List.mem_map.mp hkey
      obtain ⟨t, ht, hempty, -⟩ := hmotors e' he'
      exact ⟨t, hkey.symm.trans ht, hempty⟩
    · obtain ⟨e', he', hkey⟩ := List.mem_map.mp hkey
      obtain ⟨t, ht, hempty, -⟩ := hchanges e' he'
      exact ⟨t, hkey.symm.trans ht, hempty⟩
  have hposition : isPosition e.2 = .ok true := by
    rcases Entries.mem_update_value he with he | ⟨c, hc, hvalue⟩
    · obtain ⟨-, -, -, hposition⟩ := hmotors e he
      exact hposition
    · obtain ⟨-, -, -, hposition⟩ := hchanges c hc
      exact hvalue ▸ hposition
  obtain ⟨t, ht, hempty⟩ := hmnemonic
  exact ⟨t, ht, hempty, hposition⟩

/-- An acceptable edit makes a record that passes the checks, whatever else is stored. -/
theorem Accepts.validate_merged (haccepts : schema.Accepts lookup edit)
    (hmanaged : schema.PermitsManaged) (hd : document.IsDocument x) (hfits : document.Fits schema)
    (hmotors : ∀ e ∈ motors, IsMotor e) (htexts : edit.TextKeys) (hedit : edit.Distinct) :
    schema.validate (.map (Entries.merged document motors lookup edit)) = .ok () := by
  refine validate_eq_ok_iff.mpr ⟨.inr ⟨_, Entries.get_merged _ _ _ _, ?_⟩, fun t hrequires => ?_, ?_⟩
  · exact isMotor_of_mem_update hmotors (motorProblems_eq_nil_iff.mp haccepts.motors)
  · rw [Entries.has_eq_isSome]
    by_cases hreserved : isReserved (.text t) = true
    · rcases (isReserved_text t).mp hreserved with ht | ht
      · rw [ht, Entries.get?_merged_sid hd hedit]
        rfl
      · rw [ht, Entries.get?_merged_motors]
        rfl
    · rw [Entries.get?_merged hedit fun ht => hreserved ((isReserved_text t).mpr (.inr ht)),
        Option.isSome_or, ← Entries.has_eq_isSome document,
        hfits.has t (Bool.eq_false_iff.mpr hreserved) hrequires, Bool.or_true]
  · rw [forall_permits_iff (Entries.merged_textKeys hd htexts _) (Entries.merged_distinct hd _ _)]
    intro t value hvalue
    -- a managed key has what the catalog puts there, any other has a change or the old value
    by_cases hreserved : isReserved (.text t) = true
    · rcases (isReserved_text t).mp hreserved with ht | ht
      · rw [ht, Entries.get?_merged_sid hd hedit] at hvalue
        rw [ht, ← Option.some.inj hvalue]
        exact hmanaged.sid.float x
      · rw [ht, Entries.get?_merged_motors] at hvalue
        rw [ht, ← Option.some.inj hvalue]
        exact hmanaged.motors.map _
    · rw [Entries.get?_merged hedit fun ht => hreserved ((isReserved_text t).mpr (.inr ht)),
        Option.or_eq_some_iff] at hvalue
      rcases hvalue with hchange | ⟨-, hold⟩
      · exact haccepts.fields _ (Entries.get?_eq_some_mem hchange)
      · exact hfits.permits t value (Bool.eq_false_iff.mpr hreserved) hold

/-- A merged record that passes the checks has changes that are permitted, and a sid and motors
that are. -/
theorem permits_of_validate_merged (hd : document.IsDocument x) (htexts : edit.TextKeys)
    (hedit : edit.Distinct)
    (hvalid : schema.validate (.map (Entries.merged document motors lookup edit)) = .ok ()) :
    schema.PermitsManaged ∧ (∀ e ∈ motors.update edit.motorChanges, IsMotor e) ∧
      ∀ e ∈ Entries.plainChanges lookup edit, schema.Permits e.1 e.2 := by
  obtain ⟨hmotors, -, hpermitted⟩ := validate_eq_ok_iff.mp hvalid
  rw [forall_permits_iff (Entries.merged_textKeys hd htexts _) (Entries.merged_distinct hd _ _)]
    at hpermitted
  refine ⟨⟨?_, ?_⟩, ?_, ?_⟩
  · exact (hpermitted _ _ (Entries.get?_merged_sid hd hedit)).float _
  · exact (hpermitted _ _ Entries.get?_merged_motors).map _
  · have hmerged := hmotors.isMotor
    rw [Entries.get_merged] at hmerged
    exact hmerged
  · rw [forall_permits_iff (Entries.plainChanges_textKeys htexts lookup)
      (Entries.plainChanges_distinct hedit lookup)]
    intro t value hchange
    have hne : Value.text t ≠ motorsKey := fun ht =>
      Entries.has_text_eq_false_iff.mp (Entries.plainChanges_motors lookup edit) _
        (Entries.get?_eq_some_mem hchange) ht
    refine hpermitted t value ?_
    rw [Entries.get?_merged hedit hne, hchange]
    rfl

end Schema

/-! ### Scans that are named by their sids -/

namespace Entries.Keyed

variable {documents : List Entries} {document : Entries} {sid : Value}

/-- A document is asked for by a number that is equal to its sid. -/
theorem satisfies_number_iff (hs : Keyed documents) (hnumber : sid.isNumber = true)
    (hd : document ∈ documents) :
    document.Satisfies [(sidKey, sid)] ↔ (document.get sidKey).same sid = true := by
  obtain ⟨x, hx, -⟩ := hs.isDocument document hd
  have hscalar : sid.isScalar = true := by cases sid <;> first | rfl | cases hnumber
  rw [Entries.Satisfies, documentSatisfies_sid document (holds_scalar hscalar _), hx.sid, hx.get,
    Except.ok.injEq]
  rfl

/-- Documents with the same number for a sid are one. -/
theorem filter_number (hs : Keyed documents) (hnumber : sid.isNumber = true)
    (hd : document ∈ documents) (hsame : (document.get sidKey).same sid = true) :
    (documents.filter fun d => Entries.Satisfies d [(sidKey, sid)]) = [document] := by
  refine filter_eq_singleton hd (decide_eq_true ((hs.satisfies_number_iff hnumber hd).mpr hsame)) ?_
  refine List.Pairwise.imp_of_mem (fun {a b} ha hb hdistinct hsatisfied => ?_) hs.pairwise
  have ha' := (hs.satisfies_number_iff hnumber ha).mp (of_decide_eq_true hsatisfied)
  refine decide_eq_false fun hsatisfied' => ?_
  have hb' := (hs.satisfies_number_iff hnumber hb).mp hsatisfied'
  obtain ⟨x, hx, -⟩ := hs.isDocument a ha
  obtain ⟨y, hy, -⟩ := hs.isDocument b hb
  rw [hx.get] at ha' hdistinct
  rw [hy.get] at hb' hdistinct
  rw [← Value.same_of_float_same ha', Value.same_float_comm, hb'] at hdistinct
  cases hdistinct

end Entries.Keyed

/-! ### What is stored -/

/-- The documents fit, and the motor records have motors as records may have them. -/
structure CatalogState.Fits (schema : Schema) (collection : Text)
    (state : CatalogState TableServer Collections) : Prop where
  documents : ∀ d ∈ state.documents.documents collection, d.Fits schema
  motors : ∀ r ∈ state.motors.records, ∀ e ∈ r.motors, IsMotor e

variable {config : MotorsConfig} {router : Router} {schema : Schema}
  {collection serviceName : Text} {state state' : CatalogState TableServer Collections} {n : Nat}
  {h : Holdings} {record document edit lookup : Entries} {outcome : Except Fault Entries}

namespace Catalog

/-- A record that is added fits as it is stored. -/
theorem Added.fits (hs : state.Paired collection h) (hfits : state.Fits schema collection)
    (hadded : Added schema collection state h record outcome state') :
    state'.Fits schema collection := by
  obtain ⟨hdocumentsFit, hmotorsFit⟩ := hfits
  rw [hs.shows.records] at hmotorsFit
  cases hadded with
  | @stored _ x ps hvalid _ _ hstored _ hdocuments hshows =>
    refine ⟨?_, ?_⟩
    · rw [hdocuments, List.forall_mem_append, List.forall_mem_singleton]
      exact ⟨hdocumentsFit, Entries.fits_documentOf hvalid x⟩
    · rw [hshows.records, hs.shows.sound.records_insert, hstored, List.forall_mem_append,
        List.forall_mem_singleton]
      exact ⟨hmotorsFit, (Schema.validate_eq_ok_iff.mp hvalid).1.storedMotors⟩
  | failed _ _ hdocuments hshows =>
    refine ⟨?_, ?_⟩
    · rw [hdocuments]
      exact hdocumentsFit
    · rw [hshows.records]
      exact hmotorsFit

/-- A record that is edited fits as it is stored. The motors that were checked are those that
are stored, but for the kind of their numbers. -/
theorem Edited.fits (hs : state.Paired collection h) (hedit : edit.IsRecord)
    (hfits : state.Fits schema collection)
    (hedited : Edited schema collection state h edit outcome state') :
    state'.Fits schema collection := by
  obtain ⟨hdocumentsFit, hmotorsFit⟩ := hfits
  rw [hs.shows.records] at hmotorsFit
  cases hedited with
  | @stored _ h' lookup document s x heditable hdocument _ hdocuments hshows _ _ hrecords =>
    obtain ⟨-, hmotors, hpermitted⟩ := Schema.permits_of_validate_merged hdocument hedit.texts
      hedit.distinct heditable.valid
    refine ⟨?_, ?_⟩
    · rw [hdocuments, editedDocuments, List.forall_mem_map]
      intro d hd
      split
      · exact (hdocumentsFit d hd).update hedit.distinct hpermitted
      · exact hdocumentsFit d hd
    · rw [hshows.records, hrecords, editedRecords, List.forall_mem_map]
      intro r hr
      split
      · next hsame =>
        -- the record of the sid is that of the scan to which the document belongs
        obtain ⟨t, ht, rfl⟩ := List.mem_map.mp hr
        have hsid := heditable.belongs.sid_eq hdocument
        have hscan := hs.shows.sound.eq_of_sid ht heditable.scan
          (Binary64.same_of_same hsame (hs.shows.sound.same_of_sid heditable.scan hsid).1)
        change ∀ e ∈ (h.positionsOf t.scanId).toEntries.update edit.storedMotors, IsMotor e
        rw [hscan, ← storedMotors_merged hs.unsigned s.scanId edit]
        exact isMotor_of_mem_mapValues hmotors
      · exact hmotorsFit r hr
  | failed _ _ hdocuments hshows =>
    refine ⟨?_, ?_⟩
    · rw [hdocuments]
      exact hdocumentsFit
    · rw [hshows.records]
      exact hmotorsFit

end Catalog

/-- What is stored fits, whatever records a catalog was given. -/
theorem CatalogState.Reached.fits
    (hs : state.Reached config router schema collection serviceName n) :
    state.Fits schema collection := by
  induction hs with
  | connected readings hdisk hrun =>
    obtain ⟨hpaired, -⟩ := connect_eq_ok hdisk hrun
    have hdocuments := List.forall₂_nil_right_iff.mp hpaired.belong
    refine ⟨?_, ?_⟩
    · rw [hdocuments]
      exact nofun
    · rw [hpaired.shows.records]
      exact nofun
  | added hs hrecord hrun ih =>
    obtain ⟨h, hpaired, -, -⟩ := hs.paired
    exact (addRecord_cases hpaired hrecord hrun).fits hpaired ih
  | edited hs hedit hrun ih =>
    obtain ⟨h, hpaired, -, -⟩ := hs.paired
    exact (editRecord_cases hpaired hedit hrun).fits hpaired hedit ih

namespace CatalogState

/-- A document with the motors of a scan passes the checks. -/
theorem Fits.validate_completed (hfits : state.Fits schema collection)
    (hs : state.Paired collection h) (hmanaged : schema.PermitsManaged)
    (hd : document ∈ state.documents.documents collection) {r : MotorRecord}
    (hr : r ∈ state.motors.records) :
    schema.validate (.map (document.set motorsKey (.map r.motors))) = .ok () := by
  obtain ⟨x, hx, -⟩ := hs.keyed.isDocument document hd
  have hnothing : schema.Accepts [] [] := ⟨nofun, rfl, nofun⟩
  exact hnothing.validate_merged hmanaged hx (hfits.documents document hd) (hfits.motors r hr)
    nofun List.Pairwise.nil

/-- What a search gives are documents with the motors of scans. -/
theorem Paired.mem_search (hs : state.Paired collection h) {query : Value} {idx limit : Int}
    {results : List Entries}
    (hrun : ((embedded config router schema collection serviceName).search query idx limit).run
      state = (.ok results, state')) :
    ∀ record ∈ results, ∃ d ∈ state.documents.documents collection,
      ∃ r ∈ state.motors.records, record = d.set motorsKey (.map r.motors) := by
  unfold Catalog.search at hrun
  split at hrun
  · cases hrun
  · obtain ⟨expression, _, hdecodeRun, hrun⟩ := run_bind_eq_ok.mp hrun
    obtain ⟨-, rfl⟩ := run_ofExcept_eq hdecodeRun
    have hoffers : Offers state ⟨state.documents, h⟩ := ⟨rfl, h, hs.shows⟩
    obtain ⟨found, scans, _, hfound, hscans, hcompletes⟩ :=
      searchExpression_completes hoffers hs.keyed.realSid hrun
    rw [(hcompletes.eq_of_run hoffers hrun).2, hs.shows.records]
    intro record hrecord
    obtain ⟨d, hd, hcompleted⟩ := List.mem_filterMap.mp hrecord
    obtain ⟨r, hr, rfl⟩ := Option.map_eq_some_iff.mp hcompleted
    exact ⟨d, hfound.subset (mem_of_mem_slice hd), r, hscans.subset (List.mem_of_find?_eq_some hr),
      rfl⟩

/-- A search for everything gives a record for each document of a page, if a statement can have so
many parameters. -/
theorem Paired.search_all (hs : state.Paired collection h) {idx limit : Int} (hidx : 0 ≤ idx)
    (hlimit : 0 ≤ limit)
    (hfew : (slice (state.documents.documents collection) idx limit).length ≤
      Statement.parameterLimit) :
    ∃ results, (((embedded config router schema collection serviceName).search .null idx
        limit).run state).1 = .ok results ∧
      results.length = (slice (state.documents.documents collection) idx limit).length := by
  have hroute : router.route serviceName (.map []) = .ok ⟨[], [], []⟩ := by
    cases hstrict : router.strict <;> simp [Router.route, hstrict] <;> rfl
  refine ⟨_, (hs.search_documents rfl hroute (findDocuments_nil _) hidx hlimit).trans
    (if_pos hfew), ?_⟩
  exact hs.length_completed (slice_sublist _ idx limit)

/-- The document of a number that is equal to its sid is found, with the motor record of its
scan. -/
theorem Paired.finds_number (hs : state.Paired collection h) {sid : Value}
    (hnumber : sid.isNumber = true) (hd : document ∈ state.documents.documents collection)
    (hsame : (document.get sidKey).same sid = true) :
    ∃ r, state.Finds collection [(sidKey, sid)] document r := by
  obtain ⟨s, hmem, hbelongs⟩ := hs.exists_scan hd
  exact ⟨_, hs.finds (hs.keyed.filter_number hnumber hd hsame) hmem hbelongs⟩

/-- Every record that is stored passes the checks as a search gives it, and a search for
everything gives one for each document, on pages of as many documents as a statement can have
parameters. So an edit that names a stored scan by its sid is made if its own entries are
acceptable. -/
theorem Reached.stored_valid (hs : state.Reached config router schema collection serviceName n)
    (hsid : schema.find? sidKey = none) (hmotors : schema.find? motorsKey = none) :
    (∀ query idx limit results state',
      ((embedded config router schema collection serviceName).search query idx limit).run state =
        (.ok results, state') →
      ∀ record ∈ results, schema.validate (.map record) = .ok ()) ∧
    (∀ idx limit : Int, 0 ≤ idx → 0 ≤ limit →
      (slice (state.documents.documents collection) idx limit).length ≤ Statement.parameterLimit →
      ∃ results, (((embedded config router schema collection serviceName).search .null idx
          limit).run state).1 = .ok results ∧
        results.length = (slice (state.documents.documents collection) idx limit).length) ∧
    ∀ edit : Entries, edit.IsRecord → (edit.get sidKey).isNumber = true →
      (∃ d ∈ state.documents.documents collection,
        (Entries.get d sidKey).same (edit.get sidKey) = true) →
      schema.Accepts [(sidKey, edit.get sidKey)] edit →
      (∀ r ∈ state.motors.records,
        state.motors.HasRoom 0 (r.motors.length + edit.motorCount)) →
      (((embedded config router schema collection serviceName).editRecord edit).run
        state).1.isOk = true := by
  obtain ⟨h, hpaired, -, -⟩ := hs.paired
  have hfits := hs.fits
  have hmanaged := Schema.permitsManaged_of_find? hsid hmotors
  refine ⟨?_, fun idx limit => hpaired.search_all, ?_⟩
  · intro query idx limit results state' hrun record hrecord
    obtain ⟨d, hd, r, hr, rfl⟩ := hpaired.mem_search hrun record hrecord
    exact hfits.validate_completed hpaired hmanaged hd hr
  · rintro edit hedit hnumber ⟨d, hd, hsame⟩ haccepts hroom
    obtain ⟨r, hfinds⟩ := hpaired.finds_number hnumber hd hsame
    obtain ⟨x, hx, -⟩ := hpaired.keyed.isDocument d hd
    have hrun : ((embedded config router schema collection serviceName).editRecord edit).run state =
        (_, _) := run_eq_of_fst rfl
    have hmade := (editRecord_cases hpaired hedit hrun).makesEdit hpaired (.sid hnumber) hroom
    refine hmade.succeeds.mpr ⟨d, r, hfinds, haccepts.mapping, ?_⟩
    exact haccepts.validate_merged hmanaged hx (hfits.documents d hd) (hfits.motors r hfinds.mem)
      hedit.texts hedit.distinct

end CatalogState

namespace Catalog

/-- A schema that requires a start time and knows of a title. -/
def timedSchema : Schema := ⟨[⟨"start_time", .float, false⟩, ⟨"title", .string, true⟩]⟩

/-- A catalog with that schema. -/
def timed : Catalog TableServer Collections :=
  embedded .inMemory builtInRouter timedSchema "scans" "SpecScans"

/-- That catalog with one record. -/
def timedState : CatalogState TableServer Collections :=
  ((timed.addRecord oneRecord).run (timed.connect.run unconnected).2).2

theorem timedState_reached :
    timedState.Reached .inMemory builtInRouter timedSchema "scans" "SpecScans" 1 := by
  have hrun : (timed.connect.run unconnected).1 = .ok () := by decide
  exact .added (.connected [] rfl (run_eq_of_fst hrun)) oneRecord_isRecord (run_eq_of_fst rfl)

theorem oneEdit_accepted : timedSchema.Accepts [(sidKey, .int 0)] oneEdit where
  mapping := by
    intro v hv
    cases hv
    exact ⟨_, rfl⟩
  motors := by decide +kernel
  fields := by
    have hfields : Entries.plainChanges [(sidKey, .int 0)] oneEdit =
        ([("title", "t")] : Entries) := by
      decide
    rw [hfields]
    exact List.forall_mem_singleton.mpr (.inr (by decide))

end Catalog

/-- The record of the catalog is found and is valid, and an acceptable edit of it is made. -/
theorem CatalogState.Reached.stored_valid_timedState :
    timedSchema.find? sidKey = none ∧ timedSchema.find? motorsKey = none ∧
      (∃ results, ((timed.search .null 0 0).run timedState).1 = .ok results ∧ results.length = 1 ∧
        ∀ record ∈ results, timedSchema.validate (.map record) = .ok ()) ∧
      ((timed.editRecord oneEdit).run timedState).1.isOk = true := by
  have hsid : timedSchema.find? sidKey = none := by decide
  have hmotors : timedSchema.find? motorsKey = none := by decide
  have hdocuments : timedState.documents.documents "scans" =
      [[(startTimeKey, .float .zero), (sidKey, .float .zero)]] := by decide
  have hrecords : timedState.motors.records = [⟨.float .zero, [("b", .float .zero)]⟩] := by
    decide +kernel
  obtain ⟨hvalid, hsearches, hedits⟩ :=
    CatalogState.Reached.stored_valid timedState_reached hsid hmotors
  have hpage : slice (timedState.documents.documents "scans") 0 0 =
      [[(startTimeKey, .float .zero), (sidKey, .float .zero)]] :=
    (slice_zero _).trans hdocuments
  obtain ⟨results, hresults, hlength⟩ := hsearches 0 0 (Int.le_refl 0) (Int.le_refl 0) (by
    rw [hpage]
    decide)
  refine ⟨hsid, hmotors, ⟨results, hresults, ?_, ?_⟩, ?_⟩
  · rw [hlength, hpage]
    rfl
  · exact hvalid .null 0 0 results _ (run_eq_of_fst hresults)
  · refine hedits oneEdit oneEdit_isRecord rfl ?_ oneEdit_accepted ?_
    · rw [hdocuments]
      exact ⟨_, List.mem_singleton_self _, by decide +kernel⟩
    · rw [hrecords]
      exact List.forall_mem_singleton.mpr ⟨by decide, by decide⟩

end ScanCatalog
