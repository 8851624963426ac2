import Mathlib.Data.List.Forall2
import ScanCatalog.Proofs.Catalog.Search
import ScanCatalog.Proofs.Document.Change
import ScanCatalog.Proofs.Record.Validated
import ScanCatalog.Proofs.Value.Updates
import ScanCatalog.Service

/-!
# Documents and scans in pairs

There is no transaction over both stores, and still each document has its scan: a record is
stored in both or in neither.

## Main definitions

* `Entries.IsDocument`, `Entries.Keyed`: documents by their sids;
* `CatalogState.Paired`: documents and scans, one for one;
* `Catalog.AddSteps`: how far adding a record gets;
* `Catalog.Added`: what adding a record does.

## Main statements

* `Catalog.addRecord_steps`: adding a record goes so far;
* `Catalog.addRecord_cases`: what adding a record does, and when it fails;
* `Catalog.Added.paired`: documents and scans stay in pairs.
-/

namespace ScanCatalog

open ScanCatalog.Action MotorStore

namespace Holdings

variable {h : Holdings}

/-- No position has the sign of a zero. -/
def Unsigned (h : Holdings) : Prop := ∀ m ∈ h.motors, m.position.dropZeroSign = m.position

theorem Unsigned.addScan (hh : h.Unsigned) (sid : Binary64) : (h.addScan sid).Unsigned := hh

theorem Unsigned.addMotors (hh : h.Unsigned) (scanId : Nat) (ps : Positions) :
    (h.addMotors scanId ps).Unsigned := by
  induction ps generalizing h with
  | nil => exact hh
  | cons p ps ih =>
    refine ih fun m hm => ?_
    rcases List.mem_append.mp hm with hm | hm
    · exact hh m hm
    · rw [List.mem_singleton.mp hm]
      exact Binary64.dropZeroSign_dropZeroSign p.2

theorem Unsigned.dropMotors (hh : h.Unsigned) (scanId : Nat) : (h.dropMotors scanId).Unsigned :=
  fun m hm => hh m (List.mem_filter.mp hm).1

/-- Positions from the tables are stored as they are. -/
theorem Unsigned.storedMotors (hh : h.Unsigned) (scanId : Nat) :
    (Value.map (h.positionsOf scanId).toEntries).storedMotors =
      (h.positionsOf scanId).toEntries := by
  unfold Holdings.positionsOf Positions.toEntries Value.storedMotors
  change List.map _ (List.map _ (List.map _ _)) = _
  rw [List.map_map, List.map_map, List.map_map]
  refine List.map_congr_left fun m hm => ?_
  have hunsigned := hh m (List.mem_filter.mp hm).1
  change (Value.text m.mnemonic, Value.float m.position.dropZeroSign) = _
  rw [hunsigned]
  rfl

end Holdings

/-- A scan has the sid of which it keeps no sign of a zero, and that is a number. -/
theorem Holdings.Sound.same_of_sid {h : Holdings} (hh : h.Sound) {s : StoredScan}
    (hmem : s ∈ h.scans) {x : Binary64} (hsid : s.sid = x.dropZeroSign) :
    s.sid.same x = true ∧ x.same x = true := by
  have hself := hh.sid_same s hmem
  rw [hsid, Binary64.same_dropZeroSign] at hself
  refine ⟨hsid ▸ hself, ?_⟩
  rwa [Binary64.dropZeroSign_same] at hself

/-- The sid of a scan that was put in is a number. -/
theorem Holdings.same_self_of_addScan {h : Holdings} {x : Binary64} {scanId : Nat} {ps : Positions}
    (hs : ((h.addScan x).addMotors scanId ps).Sound) : x.same x = true := by
  have hmem : ⟨h.lastScan + 1, x.dropZeroSign⟩ ∈ ((h.addScan x).addMotors scanId ps).scans := by
    rw [Holdings.scans_addMotors]
    exact List.mem_append_right _ List.mem_cons_self
  exact (hs.same_of_sid hmem rfl).2

namespace Entries

/-- A document of the given sid: a mapping without motors. -/
structure IsDocument (document : Entries) (x : Binary64) : Prop where
  sid : document.get? sidKey = some (.float x)
  motors : document.has motorsKey = false
  texts : document.TextKeys
  distinct : document.Distinct

/-- The document of a scan has its sid. The tables keep no sign of a zero. -/
def BelongsTo (document : Entries) (s : StoredScan) : Prop :=
  ∃ x, document.IsDocument x ∧ s.sid = x.dropZeroSign

variable {record document changes : Entries} {x : Binary64}

theorem IsDocument.get (hd : document.IsDocument x) : document.get sidKey = .float x := by
  rw [Entries.get, hd.sid]
  rfl

/-- A document has one sid. -/
theorem IsDocument.unique {y : Binary64} (hd : document.IsDocument x)
    (hd' : document.IsDocument y) : x = y :=
  Value.float.inj (Option.some.inj (hd.sid.symm.trans hd'.sid))

/-- The document of a record. -/
theorem documentOf_isDocument (htexts : record.TextKeys) (hdistinct : record.Distinct)
    (x : Binary64) : (documentOf record x).IsDocument x where
  sid := get?_set_self _ _ _
  motors := by
    have hget : (documentOf record x).get? motorsKey = (record.erase motorsKey).get? motorsKey :=
      get?_set_of_ne (by decide)
    rw [has_of_get?_eq hget]
    exact has_erase_self record _
  texts := TextKeys.set (htexts.filter _) _ _
  distinct := Distinct.set (hdistinct.filter _) _ _

/-- The scan of a document has its sid. -/
theorem BelongsTo.sid_eq {s : StoredScan} (h : document.BelongsTo s) (hd : document.IsDocument x) :
    s.sid = x.dropZeroSign := by
  obtain ⟨y, hy, hsid⟩ := h
  exact hy.unique hd ▸ hsid

/-- A document stays one of its sid under changes of other fields. -/
theorem IsDocument.update (hd : document.IsDocument x) (htexts : changes.TextKeys)
    (hsid : changes.has sidKey = false) (hmotors : changes.has motorsKey = false) :
    (document.update changes).IsDocument x where
  sid := (get?_update_of_ne (has_text_eq_false_iff.mp hsid)).trans hd.sid
  motors := (has_of_get?_eq (get?_update_of_ne (has_text_eq_false_iff.mp hmotors))).trans hd.motors
  texts := hd.texts.update htexts
  distinct := hd.distinct.update changes

end Entries

/-- Documents by their sids: each has a number for one, and no two have the same. -/
structure Entries.Keyed (documents : List Entries) : Prop where
  isDocument : ∀ d ∈ documents, ∃ x, Entries.IsDocument d x ∧ x.same x = true
  pairwise : documents.Pairwise fun d d' =>
    (Entries.get d sidKey).same (Entries.get d' sidKey) = false

namespace Entries.Keyed

variable {documents found : List Entries} {document : Entries} {x : Binary64}

theorem isHashable (hs : Keyed documents) (hd : document ∈ documents) :
    (document.get sidKey).isHashable = true := by
  obtain ⟨x, hx, -⟩ := hs.isDocument document hd
  rw [hx.get]
  rfl

theorem same_self (hs : Keyed documents) (hd : document ∈ documents) (hx : document.IsDocument x) :
    x.same x = true := by
  obtain ⟨y, hy, hreal⟩ := hs.isDocument document hd
  exact hy.unique hx ▸ hreal

theorem realSid (hs : Keyed documents) : ∀ d ∈ documents, RealSid d := by
  intro d hd
  obtain ⟨x, hx, hreal⟩ := hs.isDocument d hd
  exact .inr ⟨x, hx.get, hreal⟩

theorem sublist (hs : Keyed documents) (h : found.Sublist documents) : Keyed found :=
  ⟨fun d hd => hs.isDocument d (h.subset hd), hs.pairwise.sublist h⟩

/-- There are as many different sids as documents. -/
theorem sidCount_sidsOf (hs : Keyed documents) :
    sidCount (Catalog.sidsOf documents) = documents.length := by
  have hsids : Catalog.sidsOf documents = documents.map fun d => Entries.get d sidKey := by
    refine List.filter_eq_self.mpr (List.forall_mem_map.mpr fun d hd => ?_)
    obtain ⟨x, hx, -⟩ := hs.isDocument d hd
    rw [hx.get]
    rfl
  have hdifferent : (documents.map fun d => Entries.get d sidKey).Pairwise
      fun s t => t.same s = false := by
    refine List.pairwise_map.mpr (hs.pairwise.imp_of_mem fun {d d'} hd hd' hne => ?_)
    obtain ⟨x, hx, -⟩ := hs.isDocument d hd
    obtain ⟨y, hy, -⟩ := hs.isDocument d' hd'
    rw [hx.get, hy.get] at hne
    rw [hx.get, hy.get]
    exact (Binary64.same_comm _ _).trans hne
  rw [hsids, sidCount_of_pairwise (List.forall_mem_map.mpr fun d hd => hs.isHashable hd) hdifferent,
    List.length_map]

theorem askable_iff (hs : Keyed documents) :
    Catalog.Askable documents ↔ documents.length ≤ Statement.parameterLimit := by
  rw [Catalog.Askable, hs.sidCount_sidsOf]

end Entries.Keyed

/-- The documents of a collection belong to the scans, one to each and in the same order, and
no row is pending. -/
structure CatalogState.Paired (state : CatalogState TableServer Collections) (collection : Text)
    (h : Holdings) : Prop where
  shows : state.motors.Shows h h
  unsigned : h.Unsigned
  belong : List.Forall₂ Entries.BelongsTo (state.documents.documents collection) h.scans

namespace CatalogState.Paired

variable {state : CatalogState TableServer Collections} {collection : Text} {h : Holdings}
  {document : Entries} {x : Binary64}

theorem exists_scan (hs : state.Paired collection h)
    (hd : document ∈ state.documents.documents collection) :
    ∃ s ∈ h.scans, document.BelongsTo s := by
  obtain ⟨i, hi, rfl⟩ := List.getElem_of_mem hd
  have hi' : i < h.scans.length := hs.belong.length_eq ▸ hi
  exact ⟨h.scans[i], List.getElem_mem hi', hs.belong.get hi hi'⟩

/-- A sid that no scan has is that of no document. -/
theorem same_eq_false (hs : state.Paired collection h)
    (hnew : ∀ s ∈ h.scans, s.sid.same x = false)
    (hd : document ∈ state.documents.documents collection) :
    (Value.float x).same (document.get sidKey) = false := by
  obtain ⟨s, hmem, y, hy, hsid⟩ := hs.exists_scan hd
  have hsame := hnew s hmem
  rw [hsid, Binary64.dropZeroSign_same, Binary64.same_comm] at hsame
  rw [hy.get]
  exact hsame

/-- The sids of the scans are those of the documents. -/
theorem keyed (hs : state.Paired collection h) :
    Entries.Keyed (state.documents.documents collection) where
  isDocument := fun d hd => by
    obtain ⟨s, hmem, x, hx, hsid⟩ := hs.exists_scan hd
    exact ⟨x, hx, (hs.shows.sound.same_of_sid hmem hsid).2⟩
  pairwise := by
    rw [List.pairwise_iff_getElem]
    intro i j hi hj hlt
    have hlength := hs.belong.length_eq
    obtain ⟨x, hx, hsid⟩ := hs.belong.get hi (hlength ▸ hi)
    obtain ⟨y, hy, hsid'⟩ := hs.belong.get hj (hlength ▸ hj)
    have hdistinct := List.pairwise_iff_getElem.mp hs.shows.sound.sids i j (hlength ▸ hi)
      (hlength ▸ hj) hlt
    rw [List.get_eq_getElem] at hx hsid hy hsid'
    rw [hx.get, hy.get]
    change x.same y = false
    rw [← Binary64.same_dropZeroSign, ← Binary64.dropZeroSign_same]
    exact hsid ▸ hsid' ▸ hdistinct

end CatalogState.Paired

namespace Catalog

variable {config : MotorsConfig} {router : Router} {schema : Schema}
  {collection serviceName : Text} {state state' : CatalogState TableServer Collections}
  {h : Holdings} {record : Entries} {outcome : Except Fault Entries}

/-- The last steps of adding a record: its document is stored, and the record is given. -/
def insertDocument (collection : Text) (record : Entries) (x : Binary64) (motors : Entries) :
    Action (CatalogState TableServer Collections) Entries := do
  let _ ← onDocuments (Collections.store.insert collection [documentOf record x])
  Action.ofExcept (complete (documentOf record x) ⟨.float x, motors⟩)

/-- How far adding a record gets. The record is refused before anything is stored, its scan is not
inserted, or its document is stored after the scan. -/
inductive AddSteps (config : MotorsConfig) (schema : Schema) (collection : Text)
    (state : CatalogState TableServer Collections) (record : Entries) :
    Except Fault Entries → CatalogState TableServer Collections → Prop
  | refused {fault : Fault} {clock : SidClock}
    (hnot : ∀ x motors, schema.validate (.map record) = .ok () →
      ((deriveSid record).run state.sidClock).1 = .ok x → motorsOf record ≠ .ok motors)
    (hclock : clock = state.sidClock ∨ clock = ((deriveSid record).run state.sidClock).2) :
    AddSteps config schema collection state record (.error fault) { state with sidClock := clock }
  | notInserted {x : Binary64} {motors : Entries} {clock : SidClock} {fault : Fault}
    {session : Session TableServer}
    (hvalid : schema.validate (.map record) = .ok ())
    (hsid : (deriveSid record).run state.sidClock = (.ok x, clock))
    (hmotors : motorsOf record = .ok motors)
    (hinsert : ((onTables config).insert (.float x) (.map motors)).run state.motors =
      (.error fault, session)) :
    AddSteps config schema collection state record (.error fault)
      { state with motors := session, sidClock := clock }
  | inserted {x : Binary64} {motors : Entries} {clock : SidClock} {scanId : Value}
    {session : Session TableServer} {outcome : Except Fault Entries}
    {state' : CatalogState TableServer Collections}
    (hvalid : schema.validate (.map record) = .ok ())
    (hsid : (deriveSid record).run state.sidClock = (.ok x, clock))
    (hmotors : motorsOf record = .ok motors)
    (hinsert : ((onTables config).insert (.float x) (.map motors)).run state.motors =
      (.ok scanId, session))
    (hrun : (insertDocument collection record x motors).run
      { state with motors := session, sidClock := clock } = (outcome, state')) :
    AddSteps config schema collection state record outcome state'

theorem addRecord_steps
    (hrun : ((embedded config router schema collection serviceName).addRecord record).run state =
      (outcome, state')) : AddSteps config schema collection state record outcome state' := by
  -- the checks, the split and the insertion fail one after the other
  rcases run_bind_cases hrun with ⟨fault, hvalidate, rfl⟩ | ⟨_, _, hvalidate, hrun⟩
  · obtain ⟨hinvalid, rfl⟩ := run_ofExcept_eq hvalidate
    refine .refused (fun x motors hvalid => ?_) (.inl rfl)
    cases hinvalid.symm.trans hvalid
  obtain ⟨hvalid, rfl⟩ := run_ofExcept_eq hvalidate
  rcases run_bind_cases hrun with ⟨fault, hsplit, rfl⟩ | ⟨⟨document, motorRecord⟩, _, hsplit, hrun⟩
  · obtain ⟨clock, hclock, rfl⟩ := run_zoom_eq hsplit
    refine .refused (fun x motors _ hsid hmotors => ?_) (.inr ?_)
    · have hsplit := decompose_eq_ok.mpr ⟨x, motors, run_eq_of_fst hsid, hmotors, rfl, rfl⟩
      cases hclock.symm.trans hsplit
    · rw [← decompose_clock, hclock]
  obtain ⟨clock, hclock, rfl⟩ := run_zoom_eq hsplit
  obtain ⟨x, motors, hsid, hmotors, rfl, rfl⟩ := decompose_eq_ok.mp hclock
  rcases run_bind_cases hrun with ⟨fault, hinsert, rfl⟩ | ⟨_, _, hinsert, hrun⟩
  · obtain ⟨session, hsession, rfl⟩ := run_zoom_eq hinsert
    exact .notInserted hvalid hsid hmotors hsession
  · obtain ⟨session, hsession, rfl⟩ := run_zoom_eq hinsert
    exact .inserted hvalid hsid hmotors hsession hrun

/-- A record that can be stored: it passes the checks, its sid is taken, and there are numbers
left for its motors. -/
structure Storable (schema : Schema) (clock : SidClock) (h : Holdings) (record : Entries)
    (x : Binary64) : Prop where
  valid : schema.validate (.map record) = .ok ()
  sid : ((deriveSid record).run clock).1 = .ok x
  takes : h.Takes x
  room : h.lastMotor + record.motorCount ≤ Tables.lastNumber

/-- What adding a record does. -/
inductive Added (schema : Schema) (collection : Text)
    (state : CatalogState TableServer Collections) (h : Holdings) (record : Entries) :
    Except Fault Entries → CatalogState TableServer Collections → Prop
  | stored {state' : CatalogState TableServer Collections} {x : Binary64} {ps : Positions}
    (hvalid : schema.validate (.map record) = .ok ())
    (hsid : (deriveSid record).run state.sidClock = (.ok x, state'.sidClock))
    (hmotors : motorsOf record = .ok ps.toEntries)
    (hstored : ps.stored.toEntries = record.storedMotors)
    (hnew : ∀ s ∈ h.scans, s.sid.same x = false)
    (hdocuments : state'.documents.documents collection =
      state.documents.documents collection ++ [documentOf record x])
    (hshows : state'.motors.Shows ((h.addScan x).addMotors (h.lastScan + 1) ps)
      ((h.addScan x).addMotors (h.lastScan + 1) ps)) :
    Added schema collection state h record
      (.ok ((documentOf record x).set motorsKey (.map ps.toEntries))) state'
  | failed {state' : CatalogState TableServer Collections} {fault : Fault}
    (hnot : ∀ x, ¬ Storable schema state.sidClock h record x)
    (hclock : state'.sidClock = state.sidClock ∨
      state'.sidClock = ((deriveSid record).run state.sidClock).2)
    (hdocuments : state'.documents = state.documents) (hshows : state'.motors.Shows h h) :
    Added schema collection state h record (.error fault) state'

/-- The scan of a record is inserted with its motors, or there is no room for them. -/
theorem insert_positions {session session' : Session TableServer} (hs : session.Shows h h)
    {ps : Positions} (hcheck : checkMotors (.map ps.toEntries) = .ok ps.toEntries)
    (hvalid : ps.Valid) (hencodable : ps.Encodable) {x : Binary64}
    {inserted : Except Fault Value}
    (hrun : ((onTables config).insert (.float x) (.map ps.toEntries)).run session =
      (inserted, session')) :
    (∃ scanId, inserted = .ok scanId ∧ (∀ s ∈ h.scans, s.sid.same x = false) ∧
        session'.Shows ((h.addScan x).addMotors (h.lastScan + 1) ps)
          ((h.addScan x).addMotors (h.lastScan + 1) ps)) ∨
      ∃ fault, inserted = .error fault ∧ session'.Shows h h ∧
        (h.Takes x → ¬ h.lastMotor + ps.length ≤ Tables.lastNumber) := by
  have hkeys : (Value.map ps.toEntries).DistinctKeys := hvalid.distinctKeys
  rcases hs.insert hkeys x hrun with
    ⟨ps', hcheck', houtcome, hnew, hshows⟩ | ⟨fault, left, rfl, hshows, hleft⟩
  · obtain rfl : ps = ps' :=
      Positions.toEntries_injective (Except.ok.inj (hcheck.symm.trans hcheck'))
    exact .inl ⟨_, houtcome, hnew, hshows⟩
  · refine .inr ⟨fault, rfl, hleft.eq hencodable.encodableKeys ▸ hshows, fun htakes hroom => ?_⟩
    obtain ⟨_, _, hfits⟩ := hs.insert_fits config hkeys hcheck htakes ⟨hencodable, hroom⟩
    cases hrun.symm.trans hfits

/-- A record whose scan is inserted is stored: no document has a sid that no scan has. -/
theorem Added.finish (hs : state.Paired collection h) (hrecord : record.IsRecord)
    (hvalid : schema.validate (.map record) = .ok ()) {x : Binary64} {clock : SidClock}
    (hsid : (deriveSid record).run state.sidClock = (.ok x, clock)) {ps : Positions}
    (hmotors : motorsOf record = .ok ps.toEntries)
    (hstored : ps.stored.toEntries = record.storedMotors)
    (hnew : ∀ s ∈ h.scans, s.sid.same x = false) {session : Session TableServer}
    (hshows : session.Shows ((h.addScan x).addMotors (h.lastScan + 1) ps)
      ((h.addScan x).addMotors (h.lastScan + 1) ps))
    (hrun : (insertDocument collection record x ps.toEntries).run
      { state with motors := session, sidClock := clock } = (outcome, state')) :
    Added schema collection state h record outcome state' := by
  have hsame : x.same x = true := Holdings.same_self_of_addScan hshows.sound
  have hget : (documentOf record x).get sidKey = .float x :=
    (Entries.documentOf_isDocument hrecord.texts hrecord.distinct x).get
  have hstore : (Collections.store.insert collection [documentOf record x]).run state.documents =
      (.ok 1, state.documents.put collection
        (state.documents.documents collection ++ [documentOf record x])) := by
    refine Collections.insert_run (fun d hd => hs.keyed.isHashable hd) ?_ fun d hd => ?_
    · rw [hget]
      rfl
    · rw [hget]
      exact hs.same_eq_false hnew hd
  have hcomplete : complete (documentOf record x) ⟨.float x, ps.toEntries⟩ =
      .ok ((documentOf record x).set motorsKey (.map ps.toEntries)) := by
    unfold complete
    dsimp only
    rw [hget, Value.same_float, if_pos hsame]
  unfold insertDocument at hrun
  rw [run_bind, onDocuments, run_zoom, hstore, hcomplete] at hrun
  cases hrun
  exact .stored hvalid hsid hmotors hstored hnew (Collections.documents_put _ _ _) hshows

/-- A record that is added is stored in both stores, or in neither and could not be. -/
theorem addRecord_cases (hs : state.Paired collection h) (hrecord : record.IsRecord)
    (hrun : ((embedded config router schema collection serviceName).addRecord record).run state =
      (outcome, state')) :
    Added schema collection state h record outcome state' := by
  cases addRecord_steps hrun with
  | refused hnot hclock =>
    refine .failed (fun x hx => ?_) hclock rfl hs.shows
    obtain ⟨ps, hps, -⟩ := Schema.motorsOf_of_validate hx.valid hrecord
    exact hnot x _ hx.valid hx.sid hps
  | notInserted hvalid hsid hmotors hinsert =>
    obtain ⟨ps, hps, hcheck, hpsValid, hencodable, -, hcount⟩ :=
      Schema.motorsOf_of_validate hvalid hrecord
    obtain rfl := Except.ok.inj (hmotors.symm.trans hps)
    rcases insert_positions hs.shows hcheck hpsValid hencodable hinsert with
      ⟨_, houtcome, -, -⟩ | ⟨_, -, hshows, hnoRoom⟩
    · cases houtcome
    · refine .failed (fun y hy => ?_) (.inr ?_) rfl hshows
      · have hyx := hy.sid
        rw [hsid] at hyx
        obtain rfl := Except.ok.inj hyx
        rw [hcount] at hnoRoom
        exact hnoRoom hy.takes hy.room
      · rw [hsid]
  | inserted hvalid hsid hmotors hinsert hrun =>
    obtain ⟨ps, hps, hcheck, hpsValid, hencodable, hstored, -⟩ :=
      Schema.motorsOf_of_validate hvalid hrecord
    obtain rfl := Except.ok.inj (hmotors.symm.trans hps)
    rcases insert_positions hs.shows hcheck hpsValid hencodable hinsert with
      ⟨_, -, hnew, hshows⟩ | ⟨_, houtcome, -, -⟩
    · exact .finish hs hrecord hvalid hsid hmotors hstored hnew hshows hrun
    · cases houtcome

/-- Adding a record keeps documents and scans in pairs. A scan that is new has the sid of the
record. -/
theorem Added.paired (hs : state.Paired collection h) (hrecord : record.IsRecord)
    (hadded : Added schema collection state h record outcome state') :
    ∃ h', state'.Paired collection h' ∧ ∀ s ∈ h'.scans, s ∈ h.scans ∨
      ∃ x, ((deriveSid record).run state.sidClock).1 = .ok x ∧ s.sid = x.dropZeroSign := by
  cases hadded with
  | @stored _ x _ _ hsid _ _ _ hdocuments hshows =>
    refine ⟨_, ⟨hshows, (hs.unsigned.addScan _).addMotors _ _, ?_⟩, fun s hmem => ?_⟩
    · rw [hdocuments, Holdings.scans_addMotors]
      refine List.rel_append hs.belong (.cons ?_ .nil)
      exact ⟨_, Entries.documentOf_isDocument hrecord.texts hrecord.distinct _, rfl⟩
    · rw [Holdings.scans_addMotors] at hmem
      rcases List.mem_append.mp hmem with hmem | hmem
      · exact .inl hmem
      · rw [List.mem_singleton.mp hmem, hsid]
        exact .inr ⟨x, rfl, rfl⟩
  | failed _ _ hdocuments hshows =>
    refine ⟨h, ⟨hshows, hs.unsigned, ?_⟩, fun s hmem => .inl hmem⟩
    rw [hdocuments]
    exact hs.belong

/-- Adding a record takes the clock where its sid takes it, if anywhere. -/
theorem Added.clock (hadded : Added schema collection state h record outcome state') :
    state'.sidClock = state.sidClock ∨
      state'.sidClock = ((deriveSid record).run state.sidClock).2 := by
  cases hadded with
  | stored _ hsid => exact .inr (by rw [hsid])
  | failed _ hclock => exact hclock

end Catalog

end ScanCatalog
