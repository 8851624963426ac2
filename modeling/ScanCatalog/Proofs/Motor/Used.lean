import ScanCatalog.Proofs.Motor.History
import ScanCatalog.Proofs.Motor.Reopened

/-!
# Stores in use

A store connects, is called, disconnects and connects again, as often as its callers like. If
only sids are numbers and motors are mappings, the tables hold something sound whenever the
store is connected, whether calls failed or not, and questions within the limits of a statement
are answered by what the tables hold. If all mnemonics have a UTF-8 form as well, nothing is ever
pending.

## Main definitions

* `StoreCall.IsOrdinary`, `StoreCall.IsEncodable`: the calls of such callers;
* `Session.History`, `Session.Used`: a session by its history of connections and calls;
* `Session.IsSettled`: a session with nothing pending;
* `Session.Answers`: a session that answers questions by some records.

## Main statements

* `Session.Sound.after`: what a call leaves;
* `Session.Used.serves`: a connected session has sound tables;
* `Session.History.isSettled`: mnemonics with a UTF-8 form leave nothing pending;
* `Session.Shows.answers`: what the tables hold answers the questions.
-/

namespace ScanCatalog

open ScanCatalog.Action MotorStore

namespace StoreCall

/-- A call as callers make it: what is changed has a number for its sid, and motors that are no
mapping with a key twice. Connecting is left out. -/
inductive IsOrdinary : StoreCall → Prop
  | disconnect : IsOrdinary .disconnect
  | createSchema : IsOrdinary .createSchema
  | insert (sid : Binary64) {motors : Value} (hkeys : motors.DistinctKeys) :
    IsOrdinary (.insert (.float sid) motors)
  | replaceMotors (sid : Binary64) {motors : Value} (hkeys : motors.DistinctKeys) :
    IsOrdinary (.replaceMotors (.float sid) motors)
  | bySids (sids : List Value) : IsOrdinary (.bySids sids)
  | byQueries (queries : List PositionQuery) : IsOrdinary (.byQueries queries)
  | byPosition (mnemonic position : Value) : IsOrdinary (.byPosition mnemonic position)
  | count : IsOrdinary .count

/-- A call in which the mnemonics of changed motors have a UTF-8 form. -/
def IsEncodable : StoreCall → Prop
  | .insert _ motors | .replaceMotors _ motors => motors.EncodableKeys
  | _ => True

end StoreCall

namespace Session

/-- A session by its history from a disk without databases: it was connected, and called by
calls of a kind while it was connected or not, with whatever outcome. -/
inductive History (config : MotorsConfig) (calls : StoreCall → Prop) : Session TableServer → Prop
  | start (disk : Disk) (hdisk : disk.databases = []) : History config calls ⟨false, disk, none⟩
  | connected {session session' : Session TableServer} (hs : History config calls session)
    (hrun : (onTables config).connect.run session = (.ok (), session')) :
    History config calls session'
  | called {session : Session TableServer} (hs : History config calls session) {call : StoreCall}
    (hcall : calls call) : History config calls (call.after config session)

/-- A session in use: it was called as callers do. -/
def Used (config : MotorsConfig) (session : Session TableServer) : Prop :=
  session.History config StoreCall.IsOrdinary

variable {config : MotorsConfig} {session session' : Session TableServer} {h k : Holdings}
  {settled : Prop} {calls : StoreCall → Prop}

/-! ### Sessions without a connection -/

/-- Without a connection no call does anything. -/
theorem idle_keptByCalls (config : MotorsConfig) (disk : Disk) :
    KeptByCalls config (· = ⟨false, disk, none⟩) where
  nothing := by rintro _ rfl; rfl
  execute _ _ := by rintro _ rfl; rfl
  commit := by rintro _ rfl; rfl
  rollback := by rintro _ rfl; rfl

theorem after_idle {call : StoreCall} (hcall : call.IsOrdinary) (disk : Disk) :
    call.after config ⟨false, disk, none⟩ = ⟨false, disk, none⟩ := by
  have hkept := idle_keptByCalls config disk
  cases hcall with
  | disconnect => rfl
  | createSchema => exact hkept.createSchema _ rfl
  | insert sid => exact hkept.insert _ _ _ rfl
  | replaceMotors sid => exact hkept.replaceMotors _ _ _ rfl
  | bySids sids => exact hkept.bySids sids _ rfl
  | byQueries queries => exact hkept.fetch _ _ _ rfl
  | byPosition mnemonic position => exact hkept.byPosition mnemonic position _ rfl
  | count => exact hkept.count _ rfl

/-! ### Calls of a connected session -/

theorem createSchema_keeps_sound (config : MotorsConfig) (settled : Prop) :
    Keeps (Sound settled) (onTables config).createSchema := by
  rintro session ⟨h, k, ⟨c, hon, hc⟩, -⟩
  exact ⟨h, h, createSchema_ready hc hon rfl, fun _ => rfl⟩

theorem insert_keeps_sound (config : MotorsConfig) (sid : Binary64) {motors : Value}
    (hkeys : motors.DistinctKeys) (hencodable : settled → motors.EncodableKeys) :
    Keeps (Sound settled) ((onTables config).insert (.float sid) motors) := by
  rintro session ⟨h, k, hs, hsettled⟩
  rcases hs.insert hkeys sid rfl with ⟨_, -, -, -, hs'⟩ | ⟨_, left, -, hs', hleft⟩
  · exact ⟨_, _, hs', fun _ => rfl⟩
  -- only a mnemonic without a UTF-8 form leaves something else than was or than lasts
  · refine ⟨left, k, hs', fun hsettle => ?_⟩
    obtain rfl := hsettled hsettle
    exact hleft.eq (hencodable hsettle)

theorem replaceMotors_keeps_sound (config : MotorsConfig) (sid : Binary64) {motors : Value}
    (hkeys : motors.DistinctKeys) (hencodable : settled → motors.EncodableKeys) :
    Keeps (Sound settled) ((onTables config).replaceMotors (.float sid) motors) := by
  rintro session ⟨h, k, hs, hsettled⟩
  rcases hs.replaceMotors hkeys sid rfl with ⟨_, _, -, -, -, -, hs'⟩ | ⟨_, left, -, hs', hleft, -⟩
  · exact ⟨_, _, hs', fun _ => rfl⟩
  · refine ⟨left, k, hs', fun hsettle => ?_⟩
    obtain rfl := hsettled hsettle
    exact hleft.eq (hencodable hsettle)

theorem bySids_keeps_sound (config : MotorsConfig) (settled : Prop) (sids : List Value) :
    Keeps (Sound settled) ((onTables config).bySids sids) := by
  refine (Keeps.ofExcept _).bind fun sids => ?_
  cases sids.isEmpty
  · exact fetch_keeps_sound config settled rfl _
  · exact Keeps.pure _

/-- A count selects, and ends no transaction. -/
theorem count_keeps_shows (config : MotorsConfig) (h k : Holdings) :
    Keeps (fun session : Session TableServer => session.Shows h k) (onTables config).count := by
  have hcall {action : Action TableServer Unit}
      (haction : ∀ server, action.run server = (.ok (), server)) :
      Keeps (fun session : Session TableServer => session.Shows h k) (call action) := by
    intro session hs
    rwa [call, run_zoom, haction]
  have hexecute : Keeps (fun session : Session TableServer => session.Shows h k)
      (call ((onTables config).driver.execute .countScans none)) := by
    rintro ⟨connected, disk, _⟩ ⟨c, ⟨rfl, rfl⟩, hc⟩
    rw [call, run_zoom]
    change Session.Shows ⟨true, ((TableServer.driver.execute .countScans none).run
      ⟨disk, some c⟩).2⟩ h k
    rw [TableServer.run_execute]
    cases hselect : TableServer.executeOn .countScans none c with
    | error fault => exact ⟨c, ⟨rfl, rfl⟩, hc⟩
    | ok counted =>
      cases TableServer.executeOn_select rfl hselect
      exact ⟨_, ⟨rfl, rfl⟩, hc⟩
  refine requireConnection_keeps.bind fun _ => ?_
  refine Keeps.bind (hcall fun _ => rfl) fun _ => Keeps.always ?_ (hcall fun _ => rfl)
  exact onDriverError_keeps (hexecute.bind fun _ => Keeps.ofExcept _) fun _ => Keeps.fail _

/-- A call leaves a connected session on sound tables, or disconnects it. What is pending
afterwards was before, or is left by a change with a mnemonic without a UTF-8 form. -/
theorem Sound.after (hs : session.Sound settled) {call : StoreCall} (hcall : call.IsOrdinary)
    (hencodable : settled → call.IsEncodable) :
    (call.after config session).Sound settled ∨
      call.after config session = ⟨false, session.server.disk, none⟩ := by
  cases hcall with
  | disconnect =>
    obtain ⟨h, k, ⟨c, hon, -⟩, -⟩ := hs
    refine .inr ?_
    unfold StoreCall.after
    rw [disconnect_run, if_pos hon.1]
  | createSchema => exact .inl (createSchema_keeps_sound config settled _ hs)
  | insert sid hkeys => exact .inl (insert_keeps_sound config sid hkeys hencodable _ hs)
  | replaceMotors sid hkeys =>
    exact .inl (replaceMotors_keeps_sound config sid hkeys hencodable _ hs)
  | bySids sids => exact .inl (bySids_keeps_sound config settled sids _ hs)
  | byQueries queries => exact .inl (fetch_keeps_sound config settled rfl _ _ hs)
  | byPosition mnemonic position =>
    exact .inl (((Keeps.ofExcept _).bind fun _ => fetch_keeps_sound config settled rfl _) _ hs)
  | count =>
    obtain ⟨h, k, hshows, hsettled⟩ := hs
    exact .inl ⟨h, k, count_keeps_shows config h k _ hshows, hsettled⟩

/-- A connected session writes to no other databases than its own. -/
theorem Serves.after_writes (hs : session.Serves config) {call : StoreCall}
    (hcall : call.IsOrdinary) (hconnected : (call.after config session).connected = true) :
    (call.after config session).Writes config session.server.disk := by
  have hkept := writes_keptByCalls config session.server.disk
  cases hcall with
  | disconnect =>
    obtain ⟨h, k, c, hon, -⟩ := hs.shows
    unfold StoreCall.after at hconnected
    rw [disconnect_run, if_pos hon.1] at hconnected
    cases hconnected
  | createSchema => exact hkept.createSchema _ hs.writes
  | insert sid => exact hkept.insert _ _ _ hs.writes
  | replaceMotors sid => exact hkept.replaceMotors _ _ _ hs.writes
  | bySids sids => exact hkept.bySids sids _ hs.writes
  | byQueries queries => exact hkept.fetch _ _ _ hs.writes
  | byPosition mnemonic position => exact hkept.byPosition mnemonic position _ hs.writes
  | count => exact hkept.count _ hs.writes

/-! ### Histories -/

/-- A session in use has sound tables, or no connection. If all mnemonics had a UTF-8 form,
nothing is pending. -/
theorem History.sound_or_idle (hs : session.History config calls) (settled : Prop)
    (hcalls : ∀ call, calls call → call.IsOrdinary)
    (hencodable : settled → ∀ call, calls call → call.IsEncodable) :
    session.Serves config ∧ session.Sound settled ∨
      ∃ disk : Disk, disk.Lasting config ∧ session = ⟨false, disk, none⟩ := by
  -- the disk carries what was committed from one connection to the next
  induction hs with
  | start disk hdisk => exact .inr ⟨disk, Disk.lasting_of_eq_nil hdisk, rfl⟩
  | connected _ hrun ih =>
    rcases ih with ⟨hserves, hsound⟩ | ⟨disk, hdisk, rfl⟩
    · obtain ⟨h, k, c, hon, hc⟩ := hserves.shows
      rw [connect_run, if_pos hon.1] at hrun
      cases hrun
      exact .inl ⟨hserves, hsound⟩
    · obtain ⟨⟨h, hshows⟩, -⟩ := connect_shows_lasting hdisk hrun
      exact .inl ⟨connect_serves hdisk hrun, h, h, hshows, fun _ => rfl⟩
  | called _ hcall ih =>
    have hordinary := hcalls _ hcall
    rcases ih with ⟨hserves, hsound⟩ | ⟨disk, hdisk, rfl⟩
    · rcases hsound.after hordinary fun hsettle => hencodable hsettle _ hcall with hsound' | hidle
      · obtain ⟨h, k, c, hon, -⟩ := hsound'.shows
        have hwrites := hserves.after_writes hordinary hon.1
        exact .inl ⟨.of_writes hserves.lasting hwrites hsound'.shows, hsound'⟩
      · exact .inr ⟨_, hserves.lasting, hidle⟩
    · exact .inr ⟨disk, hdisk, after_idle hordinary disk⟩

theorem Used.serves (hs : session.Used config) (hconnected : session.connected = true) :
    session.Serves config := by
  rcases hs.sound_or_idle False (fun _ => id) False.elim with ⟨hserves, -⟩ | ⟨disk, -, rfl⟩
  · exact hserves
  · cases hconnected

/-! ### Nothing pending -/

/-- The tables that last if the session ends without a commit. -/
def lastingTables (session : Session TableServer) : Tables :=
  (session.server.connection.map fun c => c.committed).getD {}

/-- Nothing is pending: the tables would last. -/
def IsSettled (session : Session TableServer) : Prop := session.lastingTables = session.tables

instance (session : Session TableServer) : Decidable session.IsSettled :=
  inferInstanceAs (Decidable (session.lastingTables = session.tables))

theorem Shows.lastingTables (hs : session.Shows h k) : session.lastingTables = k.toTables := by
  obtain ⟨c, hon, hc⟩ := hs
  unfold Session.lastingTables
  rw [hon.2, Option.map_some, Option.getD_some, hc.committed]

/-- If nothing is pending, what the tables hold is what they held at the end of the last
transaction. -/
theorem Shows.of_isSettled (hs : session.Shows h k) (hsettled : session.IsSettled) :
    session.Shows h h := by
  unfold IsSettled at hsettled
  rw [hs.lastingTables, hs.tables] at hsettled
  obtain ⟨c, hon, hc⟩ := hs
  exact ⟨c, hon, hc.holds, hc.committed.trans hsettled, hc.holds.sound⟩

theorem Shows.isSettled (hs : session.Shows h h) : session.IsSettled :=
  hs.lastingTables.trans hs.tables.symm

/-- As long as all mnemonics have a UTF-8 form, nothing is pending, whatever calls failed. -/
theorem History.isSettled
    (hs : session.History config fun call => call.IsOrdinary ∧ call.IsEncodable) :
    session.IsSettled := by
  rcases hs.sound_or_idle True (fun _ h => h.1) fun _ _ h => h.2 with
    ⟨-, h, k, hshows, hsettled⟩ | ⟨disk, -, rfl⟩
  · obtain rfl := hsettled trivial
    exact hshows.isSettled
  · rfl

/-! ### Answers -/

/-- The questions to a session are answered by some records: those of given sids, unless too many
are different for one statement, and those that satisfy compiled queries, which can be asked if
their mnemonics have a UTF-8 form and their statement is within the limits. -/
structure Answers (config : MotorsConfig) (session : Session TableServer)
    (records : List MotorRecord) : Prop where
  bySids : ∀ sids : List Value, (∀ v ∈ sids, v.IsReal) →
    sidCount sids ≤ Statement.parameterLimit →
    (((onTables config).bySids sids).run session).1 =
      .ok (records.filter fun r => sids.any fun sid => r.sid.same sid)
  byQueries : ∀ queries, PositionQuery.AreCompiled queries →
    (∀ query ∈ queries, ∀ t, query.mnemonic = .text t → t.Encodable) →
    (Statement.ofQueries queries).WithinLimits →
    (((onTables config).byQueries queries).run session).1 =
      .ok (records.filter fun r => ∀ query ∈ queries, query.Holds r.motors)

theorem Shows.answers (config : MotorsConfig) (hs : session.Shows h k) :
    session.Answers config h.records where
  bySids sids hsids hcount := by
    obtain ⟨_, _, hrun, -⟩ := hs.bySids config hsids hcount
    rw [hrun]
  byQueries queries hqueries hencodable hlimits := by
    obtain ⟨_, hrun, -⟩ := hs.byQueries config hqueries.forall hencodable hlimits
    rw [hrun]

/-- Without a query all records are listed. -/
theorem Answers.all {records : List MotorRecord} (hs : session.Answers config records) :
    (((onTables config).byQueries []).run session).1 = .ok records := by
  rw [hs.byQueries [] (.inl ⟨[], rfl⟩) nofun ⟨Nat.zero_le _, Nat.zero_le _⟩]
  exact congrArg Except.ok (List.filter_eq_self.mpr fun r _ => by simp)

end Session

end ScanCatalog
