import ScanCatalog.Proofs.Motor.Used

/-!
# What changes do

The changes of a store in use, from the call to what the questions after it are answered. A scan
with a new sid is answered as it was put in, beside the others as they were; a scan with a sid
that is stored is refused as a duplicate. Motors that replace others take the place of all rows of
their scan, and of no others; for a scan that is not stored they are refused. What is refused
changes nothing, if nothing is pending. A change that fails for a mnemonic without a UTF-8 form
leaves rows that are, and then the next change that is refused takes them away.

## Main definitions

* `Tables.Swapped`: tables in which a scan has other motors;
* `Session.pending`: a store with rows that are pending.

## Main statements

* `Session.Shows.insert_new`, `Session.Shows.insert_stored`: insertions on what the tables hold;
* `Session.Shows.replaceMotors_stored`, `Session.Shows.replaceMotors_unknown`: replacements;
* `Session.Used.insert_answers`, `Session.Used.replaceMotors_answers`: both in any store in use.
-/

namespace ScanCatalog

open ScanCatalog.Action MotorStore

/-! ### Motors in the place of others -/

/-- Tables in which a scan has other motors. The rows of the scans and the mnemonics of all
other scans are as they were, the mnemonics of this scan are those of the motors, and each
mnemonic has a number of its own and one position, with no position beside these. -/
structure Tables.Swapped (before after : Tables) (scanId : Nat) (motors : Entries) : Prop where
  scans : after.scans = before.scans
  others : (after.mnemonics.filter fun m => !m.scanId.same (.int scanId)) =
    before.mnemonics.filter fun m => !m.scanId.same (.int scanId)
  mnemonics : ((after.mnemonicsOf scanId).map fun m => m.mnemonic.toValue) = motors.keys
  numbers : after.mnemonics.Pairwise fun m n => m.motorId < n.motorId
  positions : List.Forall₂ (fun m p => p.motorId = .int m.motorId) after.mnemonics after.positions

namespace Holdings

variable {h : Holdings}

/-- Without the motors of a scan, those put in for it are gone too. -/
theorem dropMotors_addMotors (h : Holdings) (scanId : Nat) (ps : Positions) :
    ((h.addMotors scanId ps).dropMotors scanId).motors = (h.dropMotors scanId).motors := by
  induction ps generalizing h with
  | nil => rfl
  | cons p rest ih =>
    rw [addMotors_cons, ih]
    unfold dropMotors addMotor
    dsimp only
    rw [List.filter_append, List.filter_cons_of_neg (by simp), List.filter_nil, List.append_nil]

/-- Each mnemonic in the tables has its one position. -/
theorem positions_toTables (h : Holdings) :
    List.Forall₂ (fun m p => p.motorId = .int m.motorId) h.toTables.mnemonics
      h.toTables.positions := by
  unfold toTables
  rw [List.forall₂_map_left_iff, List.forall₂_map_right_iff, List.forall₂_same]
  exact fun _ _ => rfl

theorem Sound.filter_mnemonics (hs : h.Sound) (scanId : Nat) :
    (h.toTables.mnemonics.filter fun m => !m.scanId.same (.int scanId)) =
      (h.dropMotors scanId).motors.map StoredMotor.toMnemonic :=
  congrArg Tables.mnemonics (hs.delete_toTables scanId)

/-- Motors that replace those of a scan leave the rows of the others. -/
theorem Sound.swapped (hs : h.Sound) {scanId : Nat} {ps : Positions}
    (hs' : ((h.dropMotors scanId).addMotors scanId ps).Sound) :
    h.toTables.Swapped ((h.dropMotors scanId).addMotors scanId ps).toTables scanId
      ps.stored.toEntries where
  scans := by
    unfold toTables
    rw [scans_addMotors]
    rfl
  -- both sides are the rows of the motors without those of the scan
  others := by
    rw [hs'.filter_mnemonics, hs.filter_mnemonics, dropMotors_addMotors]
    simp [Holdings.dropMotors]
  mnemonics := by
    have hpositions :
        ((h.dropMotors scanId).addMotors scanId ps).positionsOf scanId = ps.stored := by
      rw [positionsOf_addMotors, positionsOf_dropMotors, if_pos rfl, if_pos rfl, List.nil_append]
    rw [mnemonicsOf_toTables, ← hpositions, Positions.keys_toEntries]
    unfold positionsOf
    rw [List.map_map, List.map_map]
    rfl
  numbers := List.pairwise_map.mpr hs'.motorIds
  positions := positions_toTables _

/-! ### Scans of a sid -/

/-- A record has a sid just if a scan has it. -/
theorem exists_records_same (h : Holdings) {x : Binary64} :
    (∃ r ∈ h.records, r.sid.same (.float x) = true) ↔ ∃ s ∈ h.scans, s.sid.same x = true := by
  constructor
  · rintro ⟨_, hr, hsame⟩
    obtain ⟨s, hmem, rfl⟩ := List.mem_map.mp hr
    exact ⟨s, hmem, hsame⟩
  · rintro ⟨s, hmem, hsame⟩
    exact ⟨h.recordOf s, List.mem_map_of_mem hmem, hsame⟩

/-- A scan cannot be put in with a sid that is stored. -/
theorem insertScan_stored {sid : Binary64} (hlast : h.lastScan < Tables.lastNumber)
    (hstored : ∃ s ∈ h.scans, s.sid.same sid = true) :
    h.toTables.insertScan (.real sid) =
      .error (Tables.constraintFault "UNIQUE constraint failed: ScanIds.sid") := by
  have hany : ((h.scans.map StoredScan.toRow).any
      fun s => s.sid.same (Cell.real sid.dropZeroSign)) = true := by
    obtain ⟨s, hmem, hsame⟩ := hstored
    rw [List.any_map, List.any_eq_true]
    exact ⟨s, hmem, (Binary64.same_dropZeroSign _ _).trans hsame⟩
  have hnull : ¬ (Cell.real sid.dropZeroSign).isNull = true := Bool.false_ne_true
  unfold Tables.insertScan toTables
  dsimp only [Cell.asReal, Cell.asNumeric]
  rw [if_neg (Nat.not_le.mpr hlast), if_neg hnull, hany, if_pos rfl]

end Holdings

/-- Checked motors fit if their mnemonics have a UTF-8 form and there are numbers left. -/
theorem Positions.fit_of_checkMotors {h : Holdings} {motors : Value} {ps : Positions}
    (hm : checkMotors motors = .ok ps.toEntries) (hencodable : motors.EncodableKeys)
    (hroom : h.lastMotor + ps.toEntries.length ≤ Tables.lastNumber) : ps.Fit h where
  encodable := Positions.encodable_of_checkMotors hm hencodable
  room := by
    rwa [Positions.toEntries, List.length_map] at hroom

namespace TableConnection

variable {c : TableConnection} {h k : Holdings} {sid : Binary64}

/-- A broken constraint is reported as a duplicate of a scan that is stored. -/
theorem Holds.insertFault_stored (hc : c.Holds h) (hstored : ∃ s ∈ h.scans, s.sid.same sid = true)
    {reason : DriverFault} (hreason : reason.isIntegrity = true) :
    c.insertFault (.float sid) reason = .duplicateScan (.float sid) reason.message := by
  unfold insertFault
  rw [if_pos hreason, selectScanId_holds hc sid]
  dsimp only
  obtain ⟨s, hmem, hsame⟩ := hstored
  have hfound : s ∈ h.scans.filter fun s => s.sid.same sid := List.mem_filter.mpr ⟨hmem, hsame⟩
  cases hfilter : h.scans.filter fun s => s.sid.same sid with
  | nil =>
    rw [hfilter] at hfound
    cases hfound
  | cons t rest => rfl

end TableConnection

namespace Session

variable {config : MotorsConfig} {session session' : Session TableServer} {h : Holdings}
  {sid : Binary64} {motors : Value} {ps : Positions}

/-! ### Changes on what the tables hold -/

/-- A scan with a new sid is put in, if there are numbers left. -/
theorem Shows.insert_new (config : MotorsConfig) (hs : session.Shows h h)
    (hkeys : motors.DistinctKeys) (hm : checkMotors motors = .ok ps.toEntries)
    (htakes : h.Takes sid) (hfit : ps.Fit h) :
    ∃ session', ((onTables config).insert (.float sid) motors).run session =
        (.ok (.int ((h.lastScan + 1 : Nat) : Int)), session') ∧
      session'.Shows ((h.addScan sid).addMotors (h.lastScan + 1) ps)
        ((h.addScan sid).addMotors (h.lastScan + 1) ps) := by
  obtain ⟨scanId, session', hrun⟩ := hs.insert_fits config hkeys hm htakes hfit
  -- it does not fail, so of the two ways in which it can end it is the first
  rcases hs.insert hkeys sid hrun with ⟨qs, hqs, houtcome, -, hs'⟩ | ⟨_, _, houtcome, -⟩
  · obtain rfl : ps = qs := Positions.toEntries_injective (Except.ok.inj (hm.symm.trans hqs))
    rw [houtcome] at hrun
    exact ⟨session', hrun, hs'⟩
  · cases houtcome

/-- A scan with a sid that is stored is refused as a duplicate, and nothing changes. -/
theorem Shows.insert_stored (config : MotorsConfig) (hs : session.Shows h h)
    (hm : checkMotors motors = .ok ps.toEntries) (hlast : h.lastScan < Tables.lastNumber)
    (hreal : sid.same sid = true) (hstored : ∃ s ∈ h.scans, s.sid.same sid = true) :
    ∃ message session', ((onTables config).insert (.float sid) motors).run session =
        (.error (.duplicateScan (.float sid) message), session') ∧ session'.Shows h h := by
  obtain ⟨c, hon, hc⟩ := hs
  have hinsert : c.insert (.float sid) ps.toEntries =
      (.error (Tables.constraintFault "UNIQUE constraint failed: ScanIds.sid"), c) := by
    unfold TableConnection.insert
    rw [TableConnection.insertScan_holds hc.holds, Value.toCell_float hreal,
      Holdings.insertScan_stored hlast hstored]
  obtain ⟨reason, hreason, hreported⟩ := TableConnection.reported_driverError (α := Value)
    (TableConnection.insertFault · (.float sid))
    (show (Tables.constraintFault _).isDriverError = true from rfl) c
  cases hreason
  have hleads : Leads Session.On ((onTables config).insert (.float sid) motors) c _ _ :=
    insert_leads hm (.float sid) c
  obtain ⟨session', hrun, hon'⟩ := hleads session hon
  -- the sid is looked up again after the rollback, which changes nothing
  rw [hinsert, hreported, hc.undone.holds.insertFault_stored hstored rfl] at hrun
  rw [hinsert, hreported] at hon'
  exact ⟨_, session', hrun, c.undone, hon', hc.undone⟩

/-- Motors that replace those of a stored scan take their place, if there are numbers left. -/
theorem Shows.replaceMotors_stored (config : MotorsConfig) (hs : session.Shows h h)
    (hkeys : motors.DistinctKeys) (hm : checkMotors motors = .ok ps.toEntries)
    (hstored : ∃ s ∈ h.scans, s.sid.same sid = true) (hfit : ps.Fit h) :
    ∃ session' s, ((onTables config).replaceMotors (.float sid) motors).run session =
        (.ok (), session') ∧ s ∈ h.scans ∧ s.sid.same sid = true ∧
      session'.Shows ((h.dropMotors s.scanId).addMotors s.scanId ps)
        ((h.dropMotors s.scanId).addMotors s.scanId ps) := by
  obtain ⟨session', hrun⟩ := hs.replaceMotors_fits config hkeys hm hstored hfit
  rcases hs.replaceMotors hkeys sid hrun with ⟨qs, s, hqs, -, hmem, hsame, hs'⟩ |
    ⟨_, _, houtcome, -⟩
  · obtain rfl : ps = qs := Positions.toEntries_injective (Except.ok.inj (hm.symm.trans hqs))
    exact ⟨session', s, hrun, hmem, hsame, hs'⟩
  · cases houtcome

/-- Motors for a scan that is not stored are refused, and nothing changes. -/
theorem Shows.replaceMotors_unknown (config : MotorsConfig) (hs : session.Shows h h)
    (hm : checkMotors motors = .ok ps.toEntries)
    (hunknown : ∀ s ∈ h.scans, s.sid.same sid = false) :
    ∃ session', ((onTables config).replaceMotors (.float sid) motors).run session =
        (.error (.motorStore (.unknownScan (.float sid))), session') ∧ session'.Shows h h := by
  obtain ⟨c, hon, hc⟩ := hs
  have hnone : h.scans.find? (fun s => s.sid.same sid) = none :=
    List.find?_eq_none.mpr fun s hmem => Bool.eq_false_iff.mp (hunknown s hmem)
  have hreplace : c.replace (.float sid) ps.toEntries =
      (.error (.motorStore (.unknownScan (.float sid))), c) := by
    unfold TableConnection.replace
    rw [TableConnection.scanIdOf_holds hc.holds, hnone]
  have hleads : Leads Session.On ((onTables config).replaceMotors (.float sid) motors) c _ _ :=
    replaceMotors_leads hm (.float sid) c
  obtain ⟨session', hrun, hon'⟩ := hleads session hon
  rw [hreplace] at hrun hon'
  exact ⟨session', hrun, c.undone, hon', hc.undone⟩

/-! ### Changes of a store in use -/

/-- A session of a store in memory that has just been opened is one in use. -/
theorem inMemory_used : Session.inMemory.Used .inMemory := by
  have hrun : ((onTables .inMemory).connect.run ⟨false, .inMemory⟩).1 = .ok () := by
    decide
  exact .connected (.start _ rfl) (run_eq_of_fst hrun)

theorem oneScan_used : oneScan.Used .inMemory :=
  .called inMemory_used (.insert _ (List.pairwise_singleton _ _))

/-- A session in which a scan with its first motor is pending, because the second motor has a
mnemonic without a UTF-8 form. -/
def pending : Session TableServer :=
  (StoreCall.insert (.float .zero) surrogateMotors).after .inMemory .inMemory

theorem pending_used : pending.Used .inMemory := by
  refine .called inMemory_used (.insert _ ?_)
  unfold Value.DistinctKeys Entries.Distinct
  decide

/-- The sid 2.0, which no scan of these sessions has. -/
def unknownSid : Binary64 := .finite false 4611686018427387904 (by decide)

/-- No motors. -/
def noMotors : Value := .map []

theorem noMotors_distinctKeys : noMotors.DistinctKeys := List.Pairwise.nil

theorem noMotors_encodableKeys : noMotors.EncodableKeys := List.forall_mem_nil _

theorem checkMotors_noMotors : checkMotors noMotors = .ok [] := rfl

/-- If nothing is pending, the tables of a session in use hold something sound. -/
theorem Used.shows (hs : session.Used config) (hconnected : session.connected = true)
    (hsettled : session.IsSettled) : ∃ h, session.Shows h h := by
  obtain ⟨h, k, hshows⟩ := (hs.serves hconnected).shows
  exact ⟨h, hshows.of_isSettled hsettled⟩

/-- What is put in under a new sid is the one record that it has. -/
theorem filter_sid_append {records : List MotorRecord} {record : MotorRecord} {v : Value}
    (hnew : ∀ r ∈ records, r.sid.same v = false) (hsame : record.sid.same v = true) :
    ((records ++ [record]).filter fun r => [v].any fun sid => r.sid.same sid) = [record] := by
  have hnone : (records.filter fun r => [v].any fun sid => r.sid.same sid) = [] := by
    refine List.filter_eq_nil_iff.mpr fun r hr => ?_
    rw [List.any_cons, hnew r hr]
    exact Bool.false_ne_true
  have hone : ([record].filter fun r => [v].any fun sid => r.sid.same sid) = [record] := by
    refine List.filter_eq_self.mpr (List.forall_mem_singleton.mpr ?_)
    rw [List.any_cons, hsame, Bool.true_or]
  rw [List.filter_append, hnone, hone, List.nil_append]

/-- An insertion into a store in use with nothing pending. If no scan has the sid, it gives a scan
number above all others, the sid is answered by the one record that was put in, and all questions
as before with this record more. If a scan has the sid, it fails as a duplicate of the sid, and
the tables are as they were, and last. -/
theorem Used.insert_answers (hs : session.Used config) (hconnected : session.connected = true)
    (hsettled : session.IsSettled) (sid : Binary64) (hsid : sid.isFinite = true)
    (hkeys : motors.DistinctKeys) (hencodable : motors.EncodableKeys) {checked : Entries}
    (hm : checkMotors motors = .ok checked) (hroom : session.HasRoom 1 checked.length) :
    session.Answers config session.records ∧
      ((∀ r ∈ session.records, r.sid.same (.float sid) = false) →
        ∃ (scanId : Nat) (session' : Session TableServer),
          ((onTables config).insert (.float sid) motors).run session =
              (.ok (.int scanId), session') ∧
            (∀ s ∈ session.tables.scans, s.scanId < scanId) ∧
            session.tables.lastScan < scanId ∧ session'.tables.lastScan = scanId ∧
            (((onTables config).bySids [.float sid]).run session').1 =
              .ok [⟨.float sid.dropZeroSign, motors.storedMotors⟩] ∧
            session'.Answers config
              (session.records ++ [⟨.float sid.dropZeroSign, motors.storedMotors⟩])) ∧
      ((∃ r ∈ session.records, r.sid.same (.float sid) = true) →
        ∃ message session', ((onTables config).insert (.float sid) motors).run session =
            (.error (.duplicateScan (.float sid) message), session') ∧
          session'.tables = session.tables ∧ session'.IsSettled) := by
  obtain ⟨h, hshows⟩ := hs.shows hconnected hsettled
  obtain ⟨ps, rfl, -, -⟩ := checkMotors_eq_ok hm
  have hreal : sid.same sid = true := Binary64.same_self_of_isFinite hsid
  obtain ⟨hscans, hmotors⟩ := hshows.hasRoom_iff.mp hroom
  rw [hshows.records, hshows.tables]
  refine ⟨hshows.answers config, fun hnew => ?_, fun hstored => ?_⟩
  · have htakes : h.Takes sid := ⟨hscans, hreal, h.records_same_eq_false.mp hnew⟩
    have hfit := Positions.fit_of_checkMotors hm hencodable hmotors
    obtain ⟨session', hrun, hshows'⟩ := hshows.insert_new config hkeys hm htakes hfit
    have hanswers := hshows'.answers config
    rw [hshows.sound.records_insert, Positions.stored_toEntries hm] at hanswers
    have hsame : (Value.float sid.dropZeroSign).same (.float sid) = true :=
      (Binary64.dropZeroSign_same sid sid).trans hreal
    refine ⟨h.lastScan + 1, session', hrun, ?_, Nat.lt_succ_self _, ?_, ?_, hanswers⟩
    · refine List.forall_mem_map.mpr fun s hmem => ?_
      exact Nat.lt_succ_of_le (hshows.sound.scanId_le s hmem)
    · rw [hshows'.tables]
      exact (h.addScan sid).lastScan_addMotors _ _
    · rw [hanswers.bySids _ (List.forall_mem_singleton.mpr ⟨sid, rfl⟩) (sidCount_singleton_le sid),
        filter_sid_append hnew hsame]
  · obtain ⟨message, session', hrun, hshows'⟩ := hshows.insert_stored config hm hscans hreal
      (h.exists_records_same.mp hstored)
    exact ⟨message, session', hrun, hshows'.tables, hshows'.isSettled⟩

/-- The motors of `oneScan`. -/
def oneMotor : Positions := [("b", .zero)]

theorem insert_answers_oneScan :
    (∃ (scanId : Nat) (session' : Session TableServer),
      ((onTables .inMemory).insert (.float .zero) (.map oneMotor.toEntries)).run .inMemory =
          (.ok (.int scanId), session') ∧
        session'.Answers .inMemory [⟨.float .zero, oneMotor.toEntries⟩]) ∧
      ∃ message session', ((onTables .inMemory).insert (.float .zero) noMotors).run oneScan =
          (.error (.duplicateScan (.float .zero) message), session') ∧
        session'.tables = oneScan.tables := by
  constructor
  · have hkeys : (Value.map oneMotor.toEntries).DistinctKeys := List.pairwise_singleton _ _
    have hencodable : oneMotor.Encodable := by
      unfold Positions.Encodable
      decide
    have hchecked : checkMotors (.map oneMotor.toEntries) = .ok oneMotor.toEntries := by
      decide
    obtain ⟨-, hnew, -⟩ := inMemory_used.insert_answers (by decide) (by decide)
      .zero rfl hkeys hencodable.encodableKeys hchecked ⟨by decide, by decide⟩
    obtain ⟨scanId, session', hrun, -, -, -, -, hanswers⟩ := hnew (by decide)
    exact ⟨scanId, session', hrun, hanswers⟩
  · obtain ⟨-, -, hstored⟩ := oneScan_used.insert_answers (by decide) (by decide)
      .zero rfl noMotors_distinctKeys noMotors_encodableKeys checkMotors_noMotors
      ⟨by decide, by decide⟩
    obtain ⟨message, session', hrun, htables, -⟩ := hstored (by decide)
    exact ⟨message, session', hrun, htables⟩

/-- A scan that is pending cannot be put in again, and is not found to be a duplicate once it is
taken away. -/
theorem insert_pending :
    pending.Used .inMemory ∧ pending.connected = true ∧
      (∃ r ∈ pending.records, r.sid.same (.float .zero) = true) ∧
      ∃ reason session', ((onTables .inMemory).insert (.float .zero) noMotors).run pending =
          (.error (.motorStore (.insert (.float .zero) reason)), session') ∧
        session'.tables ≠ pending.tables := by
  exact ⟨pending_used, by decide, by decide, _, _, rfl, by decide⟩

/-- A replacement in a store in use with nothing pending. If a scan has the sid, its record has the
motors that were given, the other records, the sids and their order are as they were, and the rows
of the motors before are gone from both tables. If none has it, the replacement fails, and the
tables are as they were, and last. -/
theorem Used.replaceMotors_answers (hs : session.Used config)
    (hconnected : session.connected = true) (hsettled : session.IsSettled)
    (sid : Binary64) (hkeys : motors.DistinctKeys) (hencodable : motors.EncodableKeys)
    {checked : Entries} (hm : checkMotors motors = .ok checked)
    (hroom : session.HasRoom 0 checked.length) :
    session.Answers config session.records ∧
      ((∃ r ∈ session.records, r.sid.same (.float sid) = true) →
        ∃ session' records', ((onTables config).replaceMotors (.float sid) motors).run session =
            (.ok (), session') ∧
          (records' = session.records.map fun r =>
            if r.sid.same (.float sid) then ⟨r.sid, motors.storedMotors⟩ else r) ∧
          session'.Answers config records' ∧
          (((onTables config).byQueries []).run session').1 = .ok records' ∧
          ∃ s ∈ session.tables.scans, s.sid.same (.real sid) = true ∧
            session.tables.Swapped session'.tables s.scanId motors.storedMotors) ∧
      ((∀ r ∈ session.records, r.sid.same (.float sid) = false) →
        ∃ session', ((onTables config).replaceMotors (.float sid) motors).run session =
            (.error (.motorStore (.unknownScan (.float sid))), session') ∧
          session'.tables = session.tables ∧ session'.IsSettled) := by
  obtain ⟨h, hshows⟩ := hs.shows hconnected hsettled
  obtain ⟨ps, rfl, -, -⟩ := checkMotors_eq_ok hm
  obtain ⟨-, hmotors⟩ := hshows.hasRoom_iff.mp hroom
  rw [hshows.records, hshows.tables]
  refine ⟨hshows.answers config, fun hstored => ?_, fun hunknown => ?_⟩
  · have hfit := Positions.fit_of_checkMotors hm hencodable hmotors
    obtain ⟨session', s, hrun, hmem, hsame, hshows'⟩ :=
      hshows.replaceMotors_stored config hkeys hm (h.exists_records_same.mp hstored) hfit
    have hanswers := hshows'.answers config
    rw [hshows.sound.records_replace hmem hsame, Positions.stored_toEntries hm] at hanswers
    refine ⟨session', _, hrun, rfl, hanswers, hanswers.all, s.toRow, List.mem_map_of_mem hmem,
      hsame, ?_⟩
    rw [hshows'.tables, ← Positions.stored_toEntries hm]
    exact hshows.sound.swapped hshows'.sound
  · obtain ⟨session', hrun, hshows'⟩ :=
      hshows.replaceMotors_unknown config hm (h.records_same_eq_false.mp hunknown)
    exact ⟨session', hrun, hshows'.tables, hshows'.isSettled⟩

theorem replaceMotors_answers_oneScan :
    (∃ session',
      ((onTables .inMemory).replaceMotors (.float .zero) noMotors).run oneScan =
          (.ok (), session') ∧
        session'.Answers .inMemory [⟨.float .zero, []⟩] ∧
        ∃ s ∈ oneScan.tables.scans, oneScan.tables.Swapped session'.tables s.scanId []) ∧
      ∃ session', ((onTables .inMemory).replaceMotors (.float unknownSid) noMotors).run oneScan =
          (.error (.motorStore (.unknownScan (.float unknownSid))), session') ∧
        session'.tables = oneScan.tables := by
  have hanswers (sid : Binary64) := oneScan_used.replaceMotors_answers (by decide)
    (by decide) sid noMotors_distinctKeys noMotors_encodableKeys checkMotors_noMotors
    ⟨by decide, by decide⟩
  constructor
  · obtain ⟨-, hstored, -⟩ := hanswers .zero
    obtain ⟨session', _, hrun, rfl, hanswers, -, s, hmem, -, hswapped⟩ :=
      hstored (by decide)
    exact ⟨session', hrun, hanswers, s, hmem, hswapped⟩
  · obtain ⟨-, -, hunknown⟩ := hanswers unknownSid
    obtain ⟨session', hrun, htables, -⟩ := hunknown (by decide +kernel)
    exact ⟨session', hrun, htables⟩

/-- Motors for a scan that is not stored are refused, but what is pending is taken away. -/
theorem replaceMotors_pending :
    pending.Used .inMemory ∧ pending.connected = true ∧
      (∀ r ∈ pending.records, r.sid.same (.float unknownSid) = false) ∧
      ∃ session', ((onTables .inMemory).replaceMotors (.float unknownSid) noMotors).run pending =
          (.error (.motorStore (.unknownScan (.float unknownSid))), session') ∧
        session'.tables ≠ pending.tables := by
  have hrun : (((onTables .inMemory).replaceMotors (.float unknownSid) noMotors).run pending).1 =
      .error (.motorStore (.unknownScan (.float unknownSid))) := by decide +kernel
  exact ⟨pending_used, by decide, by decide +kernel, _, run_eq_of_fst hrun,
    by decide +kernel⟩

end Session

end ScanCatalog
