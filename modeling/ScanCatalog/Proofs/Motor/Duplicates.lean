import ScanCatalog.Proofs.Motor.Consistent

/-!
# The sids of a store

The sids in the tables come from insertions: one puts in a scan of its own sid at most, also if it
fails and leaves rows behind. It is refused as a duplicate for a scan that the tables have after a
rollback.

## Main definitions

* `Session.ShowsSids`: numbers among which are the sids of a session, whatever is rolled back.

## Main statements

* `TableConnection.putMotors_scans`: motors that are put in leave the scans;
* `Session.ShowsSids.insert`, `Session.ShowsSids.replaceMotors`: the sids after a change;
* `Session.ShowsSids.insert_duplicate`: what a duplicate is one of.
-/

namespace ScanCatalog

open ScanCatalog.Action MotorStore

/-- Rows are of the same scans just if the scans are the same. -/
theorem StoredScan.map_toRow_injective : Function.Injective (List.map StoredScan.toRow) := by
  refine List.map_injective_iff.mpr fun s t h => ?_
  cases s
  cases t
  cases h
  rfl

namespace TableConnection

variable {c : TableConnection} {h : Holdings}

/-- A statement that puts in a motor leaves the scans. -/
theorem executeOn_scans {statement : Statement} {parameters : Option (List Value)}
    {result : ResultSet} {d : TableConnection}
    (hmotor : statement = .insertMnemonic ∨ statement = .insertPosition)
    (hexecute : TableServer.executeOn statement parameters c = .ok (result, d)) :
    d.working.scans = c.working.scans := by
  have hrows : ∀ part, statement ≠ .create part := by
    rintro part rfl
    rcases hmotor with hmotor | hmotor <;> cases hmotor
  obtain ⟨-, -, cells, tables, -, htables, rfl⟩ := TableServer.executeOn_ok hexecute hrows
  change tables.scans = c.working.scans
  rcases hmotor with rfl | rfl
  · rcases cells with _ | ⟨scanId, _ | ⟨mnemonic, _ | _⟩⟩
    case cons.cons.nil =>
      obtain ⟨-, rfl, -⟩ := Tables.insertMnemonic_eq_ok htables
      rfl
    all_goals
      cases htables
      rfl
  · rcases cells with _ | ⟨motorId, _ | ⟨position, _ | _⟩⟩
    case cons.cons.nil =>
      obtain rfl := Tables.insertPosition_eq_ok htables
      rfl
    all_goals
      cases htables
      rfl

/-- Motors that are put in leave the scans, all of them or some. -/
theorem putMotors_scans (scanId : Value) (motors : Entries) (c : TableConnection) :
    (c.putMotors scanId motors).2.working.scans = c.working.scans := by
  induction motors generalizing c with
  | nil => rfl
  | cons motor rest ih =>
    obtain ⟨mnemonic, position⟩ := motor
    unfold putMotors
    rcases hm : TableServer.executeOn .insertMnemonic (some [scanId, mnemonic]) c with
      fault | ⟨motor, c₁⟩
    · rfl
    dsimp only
    rcases hp : TableServer.executeOn .insertPosition (some [motor.lastId, position]) c₁ with
      fault | ⟨_, c₂⟩
    · exact executeOn_scans (.inl rfl) hm
    · calc (c₂.putMotors scanId rest).2.working.scans = c₂.working.scans := ih c₂
        _ = c₁.working.scans := executeOn_scans (.inr rfl) hp
        _ = c.working.scans := executeOn_scans (.inl rfl) hm

/-- An insertion leaves the scans or puts in its own. -/
theorem Holds.insert_scans (hc : c.Holds h) (sid : Binary64) (motors : Entries) :
    (c.insert (.float sid) motors).2.working.scans = h.toTables.scans ∨
      (c.insert (.float sid) motors).2.working.scans = (h.addScan sid).toTables.scans := by
  unfold insert
  rw [insertScan_holds hc sid]
  cases hinsert : h.toTables.insertScan (Value.float sid).toCell with
  | error fault => exact .inl (congrArg Tables.scans hc.working)
  | ok inserted =>
    obtain ⟨tables, result⟩ := inserted
    obtain ⟨-, -, -, rfl, -⟩ := Holdings.insertScan_eq_ok hinsert
    dsimp only
    have hscans := putMotors_scans result.lastId motors
      { c with working := (h.addScan sid).toTables }
    rcases hput : putMotors result.lastId { c with working := (h.addScan sid).toTables } motors with
      ⟨fault | _, d⟩
    all_goals
      rw [hput] at hscans
      exact .inr hscans

/-- A duplicate is one of a scan that is there. -/
theorem Holds.insertFault_duplicate (hc : c.Holds h) {sid : Binary64} {reason : DriverFault}
    {v : Value} {message : Text}
    (heq : c.insertFault (.float sid) reason = .duplicateScan v message) :
    v = .float sid ∧ ∃ s ∈ h.scans, s.sid.same sid = true := by
  unfold insertFault at heq
  split at heq
  swap
  · cases heq
  rw [selectScanId_holds hc sid] at heq
  dsimp only at heq
  cases hfound : h.scans.filter fun s => s.sid.same sid with
  | nil =>
    rw [hfound] at heq
    cases heq
  | cons s rest =>
    rw [hfound] at heq
    cases heq
    have hs : s ∈ h.scans.filter fun s => s.sid.same sid := hfound ▸ List.mem_cons_self
    exact ⟨rfl, s, List.mem_filter.mp hs⟩

end TableConnection

/-- A session on tables whose scans have their sids among some numbers, as have those that a
rollback would bring back. -/
def Session.ShowsSids (among : Binary64 → Prop) (session : Session TableServer) : Prop :=
  ∃ h k, session.Shows h k ∧ ∀ s ∈ h.scans ++ k.scans, among s.sid

namespace Session

variable {config : MotorsConfig} {session session' : Session TableServer} {h k : Holdings}
  {motors : Value} {sid : Binary64} {among : Binary64 → Prop}

theorem ShowsSids.mono (hs : session.ShowsSids among) {others : Binary64 → Prop}
    (hmono : ∀ x, among x → others x) : session.ShowsSids others := by
  obtain ⟨h, k, hshows, hsids⟩ := hs
  exact ⟨h, k, hshows, fun s hmem => hmono _ (hsids s hmem)⟩

/-- An insertion puts in a scan of its sid or none, whether it fails or not. -/
theorem ShowsSids.insert (hs : session.ShowsSids among) (hkeys : motors.DistinctKeys)
    (hsid : among sid.dropZeroSign) {outcome : Except Fault Value}
    (hrun : ((onTables config).insert (.float sid) motors).run session = (outcome, session')) :
    session'.ShowsSids among := by
  obtain ⟨h, k, ⟨c, hon, hc⟩, hsids⟩ := hs
  obtain ⟨hsidsNow, hsidsThen⟩ := List.forall_mem_append.mp hsids
  have hadded : ∀ s ∈ (h.addScan sid).scans, among s.sid :=
    List.forall_mem_append.mpr ⟨hsidsNow, List.forall_mem_singleton.mpr hsid⟩
  cases hm : checkMotors motors with
  | error fault =>
    rw [insert_refused hm] at hrun
    cases hrun
    exact ⟨h, k, ⟨c, hon, hc⟩, hsids⟩
  | ok checked =>
    obtain ⟨ps, rfl, -, -⟩ := checkMotors_eq_ok hm
    obtain ⟨-, hon'⟩ := (insert_leads hm (.float sid) c).outcome_eq hon hrun
    have hscans := hc.holds.insert_scans sid ps.toEntries
    rcases TableConnection.insert_holds hc.holds sid (Positions.valid_of_checkMotors hm hkeys) with
      ⟨heq, hsound, -⟩ | ⟨fault, left, heq, hleft, -, -⟩
    · rw [heq] at hon'
      refine ⟨_, _, ⟨_, hon', hc.hold hsound⟩, ?_⟩
      rw [Holdings.scans_addMotors]
      exact List.forall_mem_append.mpr ⟨hadded, hadded⟩
    · rw [heq] at hon' hscans
      have hleftSids : ∀ s ∈ left.scans, among s.sid := by
        rcases hscans with hscans | hscans
        · rw [StoredScan.map_toRow_injective hscans]
          exact hsidsNow
        · rw [StoredScan.map_toRow_injective hscans]
          exact hadded
      rcases TableConnection.reported_leaves (α := Value)
        (TableConnection.insertFault · (.float sid)) fault { c with working := left.toTables } with
        hkept | hundone
      · rw [hkept] at hon'
        exact ⟨left, k, ⟨_, hon', hc.withWorking hleft⟩,
          List.forall_mem_append.mpr ⟨hleftSids, hsidsThen⟩⟩
      · rw [hundone] at hon'
        exact ⟨k, k, ⟨_, hon', (hc.withWorking hleft).undone⟩,
          List.forall_mem_append.mpr ⟨hsidsThen, hsidsThen⟩⟩

/-- A replacement of motors leaves the sids, whether it fails or not. -/
theorem ShowsSids.replaceMotors (hs : session.ShowsSids among) (hkeys : motors.DistinctKeys)
    {outcome : Except Fault Unit}
    (hrun : ((onTables config).replaceMotors (.float sid) motors).run session =
      (outcome, session')) : session'.ShowsSids among := by
  obtain ⟨h, k, hshows, hsids⟩ := hs
  obtain ⟨hsidsNow, hsidsThen⟩ := List.forall_mem_append.mp hsids
  rcases hshows.replaceMotors hkeys sid hrun with
    ⟨ps, s, -, -, -, -, hshows'⟩ | ⟨_, left, -, hleft, -, hleftCases⟩
  · refine ⟨_, _, hshows', ?_⟩
    rw [Holdings.scans_addMotors]
    exact List.forall_mem_append.mpr ⟨hsidsNow, hsidsNow⟩
  · refine ⟨left, k, hleft, List.forall_mem_append.mpr ⟨?_, hsidsThen⟩⟩
    rcases hleftCases with rfl | rfl | ⟨s, -, -, ps, rfl⟩
    · exact hsidsNow
    · exact hsidsThen
    · rw [Holdings.scans_addMotors]
      exact hsidsNow

/-- An insertion that is refused as a duplicate finds its sid among those of the session. -/
theorem ShowsSids.insert_duplicate (hs : session.ShowsSids among) (hkeys : motors.DistinctKeys)
    {v : Value} {message : Text}
    (hrun : ((onTables config).insert (.float sid) motors).run session =
      (.error (.duplicateScan v message), session')) :
    v = .float sid ∧ ∃ y, among y ∧ y.same sid = true := by
  obtain ⟨h, k, ⟨c, hon, hc⟩, hsids⟩ := hs
  cases hm : checkMotors motors with
  | error fault =>
    rw [insert_refused hm] at hrun
    cases hrun
    cases (checkMotors_fault hm).1
  | ok checked =>
    obtain ⟨ps, rfl, -, -⟩ := checkMotors_eq_ok hm
    obtain ⟨houtcome, -⟩ := (insert_leads hm (.float sid) c).outcome_eq hon hrun
    rcases TableConnection.insert_holds hc.holds sid (Positions.valid_of_checkMotors hm hkeys) with
      ⟨heq, -, -⟩ | ⟨fault, left, heq, hleft, hdriver | ⟨hencoding, -⟩, -⟩
    · rw [heq] at houtcome
      cases houtcome
    · obtain ⟨reason, -, hreported⟩ := TableConnection.reported_driverError (α := Value)
        (TableConnection.insertFault · (.float sid)) hdriver { c with working := left.toTables }
      rw [heq, hreported] at houtcome
      obtain ⟨hv, s, hmem, hsame⟩ :=
        (hc.withWorking hleft).undone.holds.insertFault_duplicate (Except.error.inj houtcome).symm
      exact ⟨hv, s.sid, hsids s (List.mem_append_right _ hmem), hsame⟩
    · rw [heq, TableConnection.reported_error _
        (Fault.isDriverError_of_isEncoding hencoding)] at houtcome
      cases houtcome
      cases hencoding

/-- The sids of the records of a session are among those numbers. -/
theorem ShowsSids.records (hs : session.ShowsSids among) :
    ∀ r ∈ session.records, ∃ y, r.sid = .float y ∧ among y := by
  obtain ⟨h, k, hshows, hsids⟩ := hs
  rw [hshows.records]
  refine List.forall_mem_map.mpr fun s hmem => ⟨s.sid, rfl, hsids s (List.mem_append_left _ hmem)⟩

end Session

end ScanCatalog
