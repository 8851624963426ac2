import ScanCatalog.Proofs.Catalog.RecordFaults
import ScanCatalog.Proofs.Motor.Duplicates
import ScanCatalog.Proofs.Record.Completed

/-!
# Sids that the clock gives out

The sid of a scan is the start time of a record that was submitted, or it comes from the clock,
which goes up from one to the next. So a sid from the clock is that of no scan, and is refused as
no duplicate, unless a record was submitted with it as its start time: the clock does not know of
those.

## Main definitions

* `SidClock.Explains`: where the sid of a scan comes from;
* `Entries.HaveStart`: records one of which starts at a number;
* `CatalogState.Submitted`: a catalog by the records that were submitted to be added.

## Main statements

* `deriveSid_explains`: the sid of one record;
* `Catalog.addRecord_explains`, `Catalog.editRecord_explains`: what a record or an edit leaves;
* `CatalogState.Submitted.explained`: where all sids come from;
* `CatalogState.Submitted.addRecord_forced`: records that get a sid from the clock.
-/

namespace ScanCatalog

open ScanCatalog.Action MotorStore Catalog

/-- Where the sid of a scan comes from, as the tables keep it: it is the start time of a record
that was submitted, or the clock has come to it. -/
def SidClock.Explains (clock : SidClock) (submitted : List Entries) (x : Binary64) : Prop :=
  (∃ record ∈ submitted, ∃ y, record.StartsAt y ∧ x = y.dropZeroSign) ∨
    x.atMost clock.last = true

/-- One of some records has a number as its start time and sid. -/
def Entries.HaveStart (submitted : List Entries) (x : Binary64) : Prop :=
  ∃ record ∈ submitted, ∃ y, Entries.StartsAt record y ∧ y.same x = true

/-! ### The sid of one record -/

section

variable {clock clock' : SidClock} {submitted : List Entries} {record : Entries} {x : Binary64}
  {steps : Nat}

theorem SidClock.Explains.mono (h : clock.Explains submitted x)
    (hclock : clock.last.atMost clock'.last = true) {others : List Entries}
    (hsubmitted : submitted ⊆ others) : clock'.Explains others x := by
  rcases h with ⟨record, hr, hstarts⟩ | hpassed
  · exact .inl ⟨record, hsubmitted hr, hstarts⟩
  · exact .inr (Binary64.atMost_trans hpassed hclock)

/-- The sid of a record is explained by the record and the clock after it, as are all sids that
were explained before. -/
theorem deriveSid_explains (submitted : List Entries) (hc : clock.Within steps)
    {outcome : Except Fault Binary64}
    (hrun : (deriveSid record).run clock = (outcome, clock')) :
    clock.last.atMost clock'.last = true ∧
      ∀ x, outcome = .ok x → clock'.Explains (submitted ++ [record]) x.dropZeroSign := by
  have hsame : clock.last.atMost clock.last = true := hc.last_atMost_self
  rcases deriveSid_cases record with hforced | ⟨y, hstarts⟩ | ⟨cause, -, -, hfault⟩
  · rw [hforced.deriveSid] at hrun
    refine ⟨hc.last_atMost hrun, fun x hx => .inr ?_⟩
    subst hx
    obtain ⟨hnext, -⟩ := hc.next_above hrun
    rw [hnext, Binary64.atMost, Binary64.quantity_dropZeroSign]
    exact Bool.or_eq_true_iff.mpr (.inr (SidClock.same_self_of_next hrun))
  · rw [hstarts.deriveSid] at hrun
    cases hrun
    refine ⟨hsame, fun x hx => .inl ⟨record, List.mem_append_right _ List.mem_cons_self, y, ?_⟩⟩
    exact ⟨hstarts, congrArg _ (Except.ok.inj hx).symm⟩
  · rw [hfault] at hrun
    cases hrun
    exact ⟨hsame, nofun⟩

/-- What is explained before a clock gives out a finite sid is equal to it only as the start time
of a record. -/
theorem SidClock.Explains.haveStart {y : Binary64} (h : clock.Explains submitted y)
    (hc : clock.Within steps) (hrun : SidClock.next.run clock = (.ok x, clock'))
    (hsame : y.same x = true) :
    Entries.HaveStart submitted x ∨ x.isFinite = false := by
  rcases h with ⟨record, hr, z, hstarts, rfl⟩ | hpassed
  · rw [Binary64.dropZeroSign_same] at hsame
    exact .inl ⟨record, hr, z, hstarts, hsame⟩
  · refine .inr (Bool.eq_false_iff.mpr fun hfinite => ?_)
    have habove := (hc.next_above hrun).2 hfinite
    cases (Binary64.same_eq_false_of_less hpassed habove).symm.trans hsame

end

/-! ### One record, one edit -/

section

variable {config : MotorsConfig} {router : Router} {schema : Schema}
  {collection serviceName : Text} {state state' : CatalogState TableServer Collections}
  {record edit lookup document : Entries} {x : Binary64} {outcome : Except Fault Entries}
  {submitted : List Entries} {among : Binary64 → Prop} {steps : Nat}

/-- A catalog whose sids all come from somewhere: the sids of its scans, now or after a rollback,
are explained by its clock and by the records that were submitted. -/
structure CatalogState.IsExplained (state : CatalogState TableServer Collections)
    (submitted : List Entries) : Prop where
  clock : state.sidClock.Within submitted.length
  sids : state.motors.ShowsSids (state.sidClock.Explains submitted)

namespace Catalog

/-- An action of the documents leaves the sids of the scans. -/
theorem onDocuments_keeps_explained {α : Type} (submitted : List Entries)
    (action : Action Collections α) :
    Keeps (fun s : CatalogState TableServer Collections => s.IsExplained submitted)
      (onDocuments action) :=
  fun _ hs => ⟨hs.clock, hs.sids⟩

/-- The sids that a record leaves, whether it is added or fails, are explained by it too. -/
theorem addRecord_explains (hs : state.IsExplained submitted)
    (hrun : ((embedded config router schema collection serviceName).addRecord record).run state =
      (outcome, state')) : state'.IsExplained (submitted ++ [record]) := by
  obtain ⟨hwithin, hsids⟩ := hs
  -- what was explained before is so by every clock that has gone on from there
  have hkept : ∀ {clock : SidClock}, state.sidClock.last.atMost clock.last = true →
      state.motors.ShowsSids (clock.Explains (submitted ++ [record])) := fun hclock =>
    hsids.mono fun _ hx => hx.mono hclock (List.subset_append_left _ _)
  have hlength : (submitted ++ [record]).length = submitted.length + 1 := List.length_append
  cases addRecord_steps hrun with
  | refused _ hclock =>
    rcases hclock with rfl | rfl
    · exact ⟨hlength ▸ hwithin.mono (Nat.le_succ _), hkept hwithin.last_atMost_self⟩
    · exact ⟨hlength ▸ (deriveSid_within hwithin rfl).1,
        hkept (deriveSid_explains submitted hwithin rfl).1⟩
  | notInserted _ hsid hmotors hinsert =>
    obtain ⟨hclock, hx⟩ := deriveSid_explains submitted hwithin hsid
    exact ⟨hlength ▸ (deriveSid_within hwithin hsid).1,
      (hkept hclock).insert (motorsOf_distinct hmotors) (hx _ rfl) hinsert⟩
  | @inserted x motors clock _ session _ _ _ hsid hmotors hinsert hrun =>
    obtain ⟨hclock, hx⟩ := deriveSid_explains submitted hwithin hsid
    have hdocument : Keeps (fun s : CatalogState TableServer Collections =>
        s.IsExplained (submitted ++ [record])) (insertDocument collection record x motors) :=
      (onDocuments_keeps_explained _ _).bind fun _ => Keeps.ofExcept _
    exact hdocument.of_run ⟨hlength ▸ (deriveSid_within hwithin hsid).1,
      (hkept hclock).insert (motorsOf_distinct hmotors) (hx _ rfl) hinsert⟩ hrun

/-- An edit of a document leaves the clock and the sids. -/
theorem applyEdit_explains (hs : state.IsExplained submitted)
    (hkeyed : Entries.Keyed (state.documents.documents collection))
    (hnames : editLookup edit = .ok lookup)
    (hd : document ∈ state.documents.documents collection) (hx : document.IsDocument x)
    (hrun : ((embedded config router schema collection serviceName).applyEdit (.float x) lookup
      edit).run state = (outcome, state')) : state'.IsExplained submitted := by
  obtain ⟨hwithin, h, k, hshows, hsids⟩ := hs
  obtain ⟨ps, session, hstored, hshows', hdistinct, -⟩ :=
    storedRecord_keyed config router schema serviceName hkeyed hshows hd hx
  -- reading the record ends the transaction, so what the tables have now is what lasts
  have hsids' : session.ShowsSids (state.sidClock.Explains submitted) := by
    have hnow := (List.forall_mem_append.mp hsids).1
    exact ⟨h, h, hshows', List.forall_mem_append.mpr ⟨hnow, hnow⟩⟩
  have hmnemonics : (Value.map (ps.toEntries.update edit.motorChanges)).DistinctKeys :=
    Entries.Distinct.update hdistinct edit.motorChanges
  have hdocument : ∀ record, Keeps (fun s : CatalogState TableServer Collections =>
      s.IsExplained submitted) (storeDocument collection x edit record) := fun record =>
    (onDocuments_keeps_explained _ _).bind fun _ => (Keeps.ofExcept _).bind fun _ =>
      Keeps.pure record
  cases applyEdit_steps hnames hstored hrun with
  | refused => exact ⟨hwithin, hsids'⟩
  | notReplaced _ _ hreplace => exact ⟨hwithin, hsids'.replaceMotors hmnemonics hreplace⟩
  | replaced _ _ hreplace hrun =>
    refine (hdocument _).of_run ?_ hrun
    exact ⟨hwithin, hsids'.replaceMotors hmnemonics hreplace⟩
  | kept _ _ _ hrun =>
    refine (hdocument _).of_run ?_ hrun
    exact ⟨hwithin, hsids'⟩

/-- An edit leaves the clock and the sids, made or not. -/
theorem editRecord_explains (hs : state.IsExplained submitted)
    (hkeyed : Entries.Keyed (state.documents.documents collection))
    (hrun : ((embedded config router schema collection serviceName).editRecord edit).run state =
      (outcome, state')) : state'.IsExplained submitted := by
  rcases editRecord_run_cases hkeyed hrun with
    ⟨_, -, rfl, -⟩ | ⟨lookup, document, x, hnames, -, hd, hx, hrun⟩
  · exact hs
  · exact applyEdit_explains hs hkeyed hnames hd hx hrun

/-- A record is refused as a duplicate by the insertion of its scan. -/
theorem addRecord_duplicate (hkeyed : Entries.Keyed (state.documents.documents collection))
    {sid : Value} {message : Text}
    (hrun : ((embedded config router schema collection serviceName).addRecord record).run state =
      (.error (.duplicateScan sid message), state')) :
    ∃ x motors clock session, (deriveSid record).run state.sidClock = (.ok x, clock) ∧
      motorsOf record = .ok motors ∧
      ((onTables config).insert (.float x) (.map motors)).run state.motors =
        (.error (.duplicateScan sid message), session) := by
  rcases run_bind_cases hrun with ⟨cause, hvalidate, heq⟩ | ⟨_, _, hvalidate, hrun⟩
  · cases heq
    rcases Schema.validate_eq_error (run_ofExcept_eq hvalidate).1 with ⟨_, hfault⟩ | ⟨hfault, -⟩ <;>
      cases hfault
  obtain ⟨-, rfl⟩ := run_ofExcept_eq hvalidate
  rcases run_bind_cases hrun with ⟨cause, hsplit, heq⟩ | ⟨⟨document, motorRecord⟩, _, hsplit, hrun⟩
  · cases heq
    obtain ⟨clock, hclock, -⟩ := run_zoom_eq hsplit
    rcases decompose_eq_error hclock with hsid | hmotors
    · cases (deriveSid_eq_error hsid).1
    · obtain ⟨_, hfault⟩ := motorsOf_eq_error hmotors
      cases hfault
  obtain ⟨clock, hclock, rfl⟩ := run_zoom_eq hsplit
  obtain ⟨x, motors, hsid, hmotors, rfl, rfl⟩ := decompose_eq_ok.mp hclock
  rcases run_bind_cases hrun with ⟨cause, hinsert, heq⟩ | ⟨_, _, hinsert, hrun⟩
  · cases heq
    obtain ⟨session, hsession, -⟩ := run_zoom_eq hinsert
    exact ⟨x, motors, clock, session, hsid, hmotors, hsession⟩
  obtain ⟨session, -, rfl⟩ := run_zoom_eq hinsert
  rcases run_bind_cases hrun with ⟨cause, hdocument, heq⟩ | ⟨_, _, hdocument, hrun⟩
  · cases heq
    obtain ⟨documents, hstore, -⟩ := run_zoom_eq hdocument
    have hhashable : ((documentOf record x).get sidKey).isHashable = true := by
      rw [get_sid_documentOf]
      rfl
    cases Collections.insert_eq_error (fun d hd => hkeyed.isHashable hd) hhashable hstore
  · obtain ⟨hcomplete, -⟩ := run_ofExcept_eq hrun
    unfold complete at hcomplete
    dsimp only at hcomplete
    split at hcomplete <;> cases hcomplete

end Catalog

end

/-! ### Histories -/

variable {config : MotorsConfig} {router : Router} {schema : Schema}
  {collection serviceName : Text} {state state' : CatalogState TableServer Collections}
  {submitted : List Entries} {record : Entries} {outcome : Except Fault Entries}

/-- A catalog by its history from empty stores, with the records that were submitted to be added,
with success or not, in order. Of their keys it is known that they are texts, none of which comes
again, and of the keys of edits that they are texts. -/
inductive CatalogState.Submitted (config : MotorsConfig) (router : Router) (schema : Schema)
    (collection serviceName : Text) :
    List Entries → CatalogState TableServer Collections → Prop
  | connected {disk : Disk} (readings : List Int) {state : CatalogState TableServer Collections}
    (hdisk : disk.databases = [])
    (hrun : (embedded config router schema collection serviceName).connect.run
      ⟨⟨false, disk, none⟩, {}, .ofReadings readings⟩ = (.ok (), state)) :
    Submitted config router schema collection serviceName [] state
  | added {submitted : List Entries} {state state' : CatalogState TableServer Collections}
    {record : Entries} {outcome : Except Fault Entries}
    (hs : Submitted config router schema collection serviceName submitted state)
    (htexts : record.TextKeys) (hdistinct : record.Distinct)
    (hrun : ((embedded config router schema collection serviceName).addRecord record).run state =
      (outcome, state')) :
    Submitted config router schema collection serviceName (submitted ++ [record]) state'
  | edited {submitted : List Entries} {state state' : CatalogState TableServer Collections}
    {edit : Entries} {outcome : Except Fault Entries}
    (hs : Submitted config router schema collection serviceName submitted state)
    (hedit : edit.TextKeys)
    (hrun : ((embedded config router schema collection serviceName).editRecord edit).run state =
      (outcome, state')) :
    Submitted config router schema collection serviceName submitted state'

/-- A sid that the clock can give out although a scan has it: it does not know the start times of
records, and at the end of its lifetime it stays at infinity. -/
def SidClock.CanRepeat (submitted : List Entries) (x : Binary64) : Prop :=
  Entries.HaveStart submitted x ∨ x.isFinite = false ∧ SidClock.lifetime ≤ submitted.length + 1

namespace CatalogState.Submitted

theorem arises (hs : Submitted config router schema collection serviceName submitted state) :
    Arises config router schema collection serviceName state := by
  induction hs with
  | connected readings hdisk hrun => exact .connected readings hdisk hrun
  | added _ htexts hdistinct hrun ih => exact ih.added htexts hdistinct hrun
  | edited _ hedit hrun ih => exact ih.edited hedit hrun

/-- All sids come from the clock, or are start times of records that were submitted. -/
theorem explained (hs : Submitted config router schema collection serviceName submitted state) :
    state.IsExplained submitted := by
  induction hs with
  | connected readings hdisk hrun =>
    obtain ⟨hpaired, hclock⟩ := connect_eq_ok hdisk hrun
    exact ⟨hclock ▸ SidClock.ofReadings_within readings, {}, {}, hpaired.shows, nofun⟩
  | added _ _ _ hrun ih => exact addRecord_explains ih hrun
  | edited hs _ hrun ih => exact editRecord_explains ih hs.arises.keyed.keyed hrun

/-- A call that adds the records of a body submits them, whatever becomes of each. -/
theorem add {body : Value} {records : List Entries} {outcome : Except Fault BatchResult}
    (hs : Submitted config router schema collection serviceName submitted state)
    (hbody : body.IsBody) (hdecoded : decodeRecords body = .ok records)
    (hrun : ((embedded config router schema collection serviceName).add body).run state =
      (outcome, state')) :
    Submitted config router schema collection serviceName (submitted ++ records) state' := by
  have hjson := isJson_of_decodeRecords hbody hdecoded
  obtain ⟨_, _, s', hbatch, hsteps, -, -⟩ := runBatch_steps
    (embedded config router schema collection serviceName).addRecord records state
  rw [add_run _ hdecoded, hbatch] at hrun
  cases hrun
  clear hbatch hdecoded
  induction hsteps generalizing submitted with
  | nil s => rwa [List.append_nil]
  | @cons s r _ _ rest _ _ hstep _ ih =>
    obtain ⟨hr, hrest⟩ := List.forall_mem_cons.mp hjson
    have hadded := ih (hs.added hr.texts hr.distinctKeys hstep) hrest
    rwa [List.append_assoc, List.singleton_append] at hadded

/-- A call that makes the edits of a body submits none. -/
theorem edit {body : Value} {outcome : Except Fault BatchResult}
    (hs : Submitted config router schema collection serviceName submitted state)
    (hbody : body.IsBody)
    (hrun : ((embedded config router schema collection serviceName).edit body).run state =
      (outcome, state')) :
    Submitted config router schema collection serviceName submitted state' := by
  obtain ⟨_, hsubmitted⟩ := call_keeps (n := 0)
    (fun _ => Submitted config router schema collection serviceName submitted) hs
    (fun _ hdecoded r hr _ _ _ _ hs hedit =>
      hs.edited (isJson_of_decodeRecords hbody hdecoded r hr).texts hedit) hrun
  exact hsubmitted

/-- A sid that the clock gives out next is that of a scan only if it can repeat one. -/
theorem canRepeat (hs : Submitted config router schema collection serviceName submitted state)
    {clock : SidClock} {x y : Binary64}
    (hrun : SidClock.next.run state.sidClock = (.ok x, clock))
    (hy : state.sidClock.Explains submitted y) (hsame : y.same x = true) :
    SidClock.CanRepeat submitted x := by
  have hwithin := hs.explained.clock
  refine (hy.haveStart hwithin hrun hsame).imp id fun hinfinite => ⟨hinfinite, ?_⟩
  refine Nat.le_of_not_lt fun hlifetime => ?_
  obtain ⟨rank, rfl, hrank⟩ := (hwithin.next hrun).2 x rfl
  cases hinfinite.symm.trans (SidClock.isFinite_ofRank hrank hlifetime)

/-- A record that asks for a sid from the clock, or has no start time of its own, gets the next one
of the clock, after any history of the catalog. That is the sid of no scan, and the record is not
refused as a duplicate, unless the sid can repeat one. -/
theorem addRecord_forced
    (hs : Submitted config router schema collection serviceName submitted state)
    (hforced : record.IsForced)
    (hrun : ((embedded config router schema collection serviceName).addRecord record).run state =
      (outcome, state')) :
    (deriveSid record).run state.sidClock = SidClock.next.run state.sidClock ∧
      (∀ x, (SidClock.next.run state.sidClock).1 = .ok x →
        (∃ r ∈ state.motors.records, r.sid.same (.float x) = true) →
          SidClock.CanRepeat submitted x) ∧
      ∀ sid message, outcome = .error (.duplicateScan sid message) →
        ∃ x, (SidClock.next.run state.sidClock).1 = .ok x ∧ sid = .float x ∧
          SidClock.CanRepeat submitted x := by
  have hsids := hs.explained.sids
  refine ⟨by rw [hforced.deriveSid], fun x hx hstored => ?_, ?_⟩
  · obtain ⟨r, hr, hsame⟩ := hstored
    obtain ⟨y, hy, hexplained⟩ := hsids.records r hr
    rw [hy] at hsame
    exact hs.canRepeat (run_eq_of_fst hx) hexplained hsame
  · rintro sid message rfl
    obtain ⟨x, motors, clock, session, hsid, hmotors, hinsert⟩ :=
      addRecord_duplicate hs.arises.keyed.keyed hrun
    obtain ⟨rfl, y, hexplained, hsame⟩ :=
      hsids.insert_duplicate (motorsOf_distinct hmotors) hinsert
    rw [hforced.deriveSid] at hsid
    exact ⟨x, congrArg Prod.fst hsid, rfl, hs.canRepeat hsid hexplained hsame⟩

end CatalogState.Submitted

namespace Catalog

/-- A record that asks for a sid from the clock. -/
def testRecord : Entries := [(sidKey, .int (-1))]

theorem fresh_submitted :
    fresh.Submitted .inMemory builtInRouter .empty "scans" "SpecScans" [] := by
  have hrun : (inMemory.connect.run unconnected).1 = .ok () := by decide
  exact .connected [] rfl (run_eq_of_fst hrun)

theorem withRecord_submitted :
    withRecord.Submitted .inMemory builtInRouter .empty "scans" "SpecScans" [oneRecord] :=
  fresh_submitted.added oneRecord_isJson.texts oneRecord_isJson.distinctKeys (run_eq_of_fst rfl)

/-- The number of seconds that the clock reads first, 1700000000.0. -/
def present : Binary64 := .finite false 0x41D954FC40000000 (by decide)

theorem not_canRepeat_present : ¬ SidClock.CanRepeat [oneRecord] present := by
  rintro (⟨record, hrecord, y, hstarts, hsame⟩ | ⟨hinfinite, -⟩)
  · rw [List.mem_singleton.mp hrecord] at hstarts
    have hy : y = .zero := Except.ok.inj (hstarts.real.symm.trans rfl)
    rw [hy] at hsame
    exact absurd hsame (by decide +kernel)
  · exact absurd hinfinite (by decide)

/-- The record is added beside a scan at zero, under the sid that the clock gives out, which is
that of no scan. -/
theorem addRecord_forced_testRecord :
    testRecord.IsForced ∧
      ((inMemory.addRecord testRecord).run withRecord).1 =
        .ok [(sidKey, .float present), (motorsKey, .map [])] ∧
      ∀ r ∈ withRecord.motors.records, r.sid.same (.float present) = false := by
  have hforced : testRecord.IsForced := .inl rfl
  obtain ⟨-, hsids, -⟩ :=
    CatalogState.Submitted.addRecord_forced withRecord_submitted hforced (run_eq_of_fst rfl)
  have hnext : (SidClock.next.run withRecord.sidClock).1 = .ok present := by decide +kernel
  refine ⟨hforced, by decide +kernel, fun r hr => Bool.eq_false_iff.mpr fun hsame => ?_⟩
  exact not_canRepeat_present (hsids present hnext ⟨r, hr, hsame⟩)

/-- A record that starts when the clock is read first. -/
def presentRecord : Entries := [(startTimeKey, .float present)]

/-- The catalog with that record. -/
def withPresent : CatalogState TableServer Collections :=
  ((inMemory.addRecord presentRecord).run fresh).2

/-- The clock gives out the start time of a record, and the record that gets it is refused. -/
theorem testRecord_duplicate :
    withPresent.Submitted .inMemory builtInRouter .empty "scans" "SpecScans" [presentRecord] ∧
      Schema.empty.validate (.map testRecord) = .ok () ∧ testRecord.IsForced ∧
      ((inMemory.addRecord testRecord).run withPresent).1 =
        .error (.duplicateScan (.float present) "UNIQUE constraint failed: ScanIds.sid") := by
  refine ⟨?_, by decide, .inl rfl, by decide +kernel⟩
  refine fresh_submitted.added ?_ (List.pairwise_singleton _ _) (run_eq_of_fst rfl)
  exact List.forall_mem_singleton.mpr ⟨"start_time", rfl⟩

end Catalog

end ScanCatalog
