import ScanCatalog.Proofs.Motor.Failures
import ScanCatalog.Proofs.Motor.Sessions

/-!
# Tables that agree

The database does not check that a motor is of a scan, nor that a scan has a mnemonic only
once, nor that a motor has a position. The order in which a change puts in and takes out
rows does, from a store without rows on, whatever the changes are and whether they fail.

## Main definitions

* `Rows.Consistent`: rows of three tables that agree;
* `Holdings.Closed`: motors of scans that are there, with finite positions;
* `TableConnection.Agrees`: a connection whose tables hold such motors;
* `StoreCall.IsChange`: the changes.

## Main statements

* `Session.Agrees.after`: one change;
* `Session.Reached.consistent_after`: any number of changes.
-/

namespace ScanCatalog

open ScanCatalog.Action MotorStore

/-- Rows of the three tables that agree: the sids are numbers, of which no two are the same,
every motor is of a scan, which has no other motor of its mnemonic, and the positions are those
of the motors, one by one, and finite. -/
structure Rows.Consistent (rows : Rows) : Prop where
  sids : rows.scans.Pairwise fun s t => s.sid.same t.sid = false
  numbers : ∀ s ∈ rows.scans, ∃ x : Binary64, x.same x = true ∧ s.sid = .real x
  scanIds : rows.scans.Pairwise fun s t => s.scanId ≠ t.scanId
  references : ∀ m ∈ rows.mnemonics, ∃ s ∈ rows.scans, m.scanId = .int s.scanId
  mnemonics : rows.mnemonics.Pairwise fun m n =>
    m.scanId.same n.scanId = true → m.mnemonic.same n.mnemonic = false
  motorIds : rows.mnemonics.Pairwise fun m n => m.motorId ≠ n.motorId
  positions : List.Forall₂ (fun m p => p.motorId = .int m.motorId ∧
    ∃ x : Binary64, x.isFinite = true ∧ p.position = .real x) rows.mnemonics rows.positions

namespace Holdings

variable {h k : Holdings}

/-- Every motor is of a scan and has a finite position. -/
structure Closed (h : Holdings) : Prop where
  scans : ∀ m ∈ h.motors, ∃ s ∈ h.scans, s.scanId = m.scanId
  finite : ∀ m ∈ h.motors, m.position.isFinite = true

/-- Only the scans and motors matter, not the numbers that come next. -/
theorem Closed.congr (hc : h.Closed) (hscans : k.scans = h.scans) (hmotors : k.motors = h.motors) :
    k.Closed where
  scans := by
    rw [hscans, hmotors]
    exact hc.scans
  finite := by
    rw [hmotors]
    exact hc.finite

theorem Closed.addScan (hc : h.Closed) (sid : Binary64) : (h.addScan sid).Closed where
  scans := by
    intro m hm
    obtain ⟨s, hs, heq⟩ := hc.scans m hm
    exact ⟨s, List.mem_append_left _ hs, heq⟩
  finite := hc.finite

theorem Closed.addMotor (hc : h.Closed) {scanId : Nat} (hscan : ∃ s ∈ h.scans, s.scanId = scanId)
    {p : Text × Binary64} (hp : p.2.isFinite = true) : (h.addMotor scanId p).Closed where
  scans := by
    intro m hm
    rcases List.mem_append.mp hm with hm | hm
    · exact hc.scans m hm
    · rw [List.mem_singleton.mp hm]
      exact hscan
  finite := by
    intro m hm
    rcases List.mem_append.mp hm with hm | hm
    · exact hc.finite m hm
    · rw [List.mem_singleton.mp hm]
      simpa using hp

theorem Closed.addMotors (hc : h.Closed) {scanId : Nat} (hscan : ∃ s ∈ h.scans, s.scanId = scanId)
    {ps : Positions} (hps : ∀ p ∈ ps, p.2.isFinite = true) : (h.addMotors scanId ps).Closed := by
  induction ps generalizing h with
  | nil => exact hc
  | cons p ps ih =>
    obtain ⟨hp, hps⟩ := List.forall_mem_cons.mp hps
    exact ih (hc.addMotor hscan hp) hscan hps

theorem Closed.dropMotors (hc : h.Closed) (scanId : Nat) : (h.dropMotors scanId).Closed where
  scans := fun m hm => hc.scans m (List.mem_filter.mp hm).1
  finite := fun m hm => hc.finite m (List.mem_filter.mp hm).1

/-- What is sound and closed is kept in tables that agree. -/
theorem Sound.consistent (hs : h.Sound) (hc : h.Closed) : h.toTables.rows.Consistent where
  sids := List.pairwise_map.mpr hs.sids
  numbers := by
    intro s hmem
    obtain ⟨scan, hscan, rfl⟩ := List.mem_map.mp hmem
    exact ⟨scan.sid, hs.sid_same scan hscan, rfl⟩
  scanIds := List.pairwise_map.mpr (hs.scanIds.imp fun hlt => Nat.ne_of_lt hlt)
  references := by
    intro m hmem
    obtain ⟨motor, hmotor, rfl⟩ := List.mem_map.mp hmem
    obtain ⟨s, hscan, heq⟩ := hc.scans motor hmotor
    refine ⟨s.toRow, List.mem_map_of_mem hscan, ?_⟩
    simp [StoredMotor.toMnemonic, StoredScan.toRow, heq]
  mnemonics := by
    refine List.pairwise_map.mpr (hs.mnemonics.imp fun {m n} hne hscan => ?_)
    have hscan : m.scanId = n.scanId := of_decide_eq_true ((same_int _ _).symm.trans hscan)
    exact beq_false_of_ne (hne hscan)
  motorIds := List.pairwise_map.mpr (hs.motorIds.imp fun hlt => Nat.ne_of_lt hlt)
  positions := by
    refine List.forall₂_map_left_iff.mpr (List.forall₂_map_right_iff.mpr ?_)
    exact List.forall₂_same.mpr fun m hm => ⟨rfl, m.position, hc.finite m hm, rfl⟩

end Holdings

namespace TableConnection

variable {c : TableConnection} {h k : Holdings}

/-- A connection whose tables hold something sound and closed, as they did at the end of the
last transaction. Tables that cannot be changed have no scans. -/
structure Agrees (c : TableConnection) (h k : Holdings) : Prop where
  working : c.working = h.toTables
  committed : c.committed = k.toTables
  sound : h.Sound
  lasting : k.Sound
  closed : h.Closed
  scans : k.scans = h.scans
  motors : k.motors = h.motors
  ready : c.Ready ∨ h.scans = []

theorem Agrees.rows (hc : c.Agrees h k) : c.working.rows = c.committed.rows := by
  rw [hc.working, hc.committed]
  simp [Tables.rows, Holdings.toTables, hc.scans, hc.motors]

/-- Tables that take changes hold the same for the session. -/
theorem Agrees.shows (hc : c.Agrees h k) {session : Session TableServer} (hon : session.On c)
    (hready : c.Ready) : session.Shows h k :=
  ⟨c, hon, ⟨hready, hc.working, hc.sound⟩, hc.committed, hc.lasting⟩

/-- What was pending is what was there already. -/
theorem Agrees.undone (hc : c.Agrees h k) : c.undone.Agrees k k where
  working := hc.committed
  committed := hc.committed
  sound := hc.lasting
  lasting := hc.lasting
  closed := hc.closed.congr hc.scans hc.motors
  scans := rfl
  motors := rfl
  ready := hc.ready.imp (fun hready => hready.withTables _ _) fun hscans => hc.scans.trans hscans

/-- What a failure that is reported leaves of a connection. -/
theorem reported_leaves {α : Type} (report : TableConnection → DriverFault → Fault)
    (fault : Fault) (c : TableConnection) :
    (reported (α := α) report (.error fault, c)).2 = c ∨
      (reported (α := α) report (.error fault, c)).2 = c.undone := by
  by_cases hdriver : fault.isDriverError = true
  · obtain ⟨reason, -, hreported⟩ := reported_driverError (α := α) report hdriver c
    exact .inr (congrArg Prod.snd hreported)
  · exact .inl (congrArg Prod.snd (reported_error report (Bool.eq_false_iff.mpr hdriver) c))

theorem replaceReported_leaves (sid : Value) (fault : Fault) (c : TableConnection) :
    (replaceReported sid (.error fault, c)).2 = c ∨
      (replaceReported sid (.error fault, c)).2 = c.undone := by
  cases fault with
  | motorStore cause => exact .inr rfl
  | _ => exact reported_leaves _ _ c

/-- A scan is put in only where the tables take changes. -/
theorem ready_of_insertScan {sid : Value} {result : ResultSet} {d : TableConnection}
    (h : TableServer.executeOn .insertScan (some [sid]) c = .ok (result, d)) : c.Ready := by
  obtain ⟨hrefusal, hbarrier, -⟩ := TableServer.executeOn_ok h nofun
  rw [TableServer.refusal?_within rfl] at hrefusal
  refine ⟨fun hstorage => ?_, hbarrier rfl, ?_⟩
  · simp [TableServer.absence?, hstorage] at hrefusal
  · by_contra hmade
    rw [TableServer.absence?, if_neg hmade] at hrefusal
    split at hrefusal <;> cases hrefusal

theorem insert_of_not_ready (hc : ¬ c.Ready) (sid : Value) (motors : Entries) :
    ∃ fault, c.insert sid motors = (.error fault, c) := by
  unfold TableConnection.insert
  cases hscan : TableServer.executeOn .insertScan (some [sid]) c with
  | error fault => exact ⟨fault, rfl⟩
  | ok inserted => exact absurd (ready_of_insertScan hscan) hc

theorem replace_of_no_scans (hc : c.working.scans = []) (sid : Value) (motors : Entries) :
    ∃ fault, c.replace sid motors = (.error fault, c) := by
  unfold TableConnection.replace
  cases hscan : c.scanIdOf sid with
  | error fault => exact ⟨fault, rfl⟩
  | ok scanId =>
    obtain ⟨s, hs, -⟩ := scanIdOf_eq_ok hscan
    rw [hc] at hs
    cases hs

end TableConnection

namespace Session

variable {config : MotorsConfig} {session session' : Session TableServer} {h k : Holdings}

/-- A session on a connection whose tables hold something sound and closed. -/
def Agrees (session : Session TableServer) : Prop :=
  ∃ c h k, session.On c ∧ c.Agrees h k

theorem Shows.agrees (hs : session.Shows h k) (hclosed : h.Closed) (hscans : k.scans = h.scans)
    (hmotors : k.motors = h.motors) : session.Agrees := by
  obtain ⟨c, hon, hc⟩ := hs
  exact ⟨c, h, k, hon, hc.holds.working, hc.committed, hc.holds.sound, hc.lasting, hclosed, hscans,
    hmotors, .inl hc.holds.ready⟩

/-- A change that leaves the connection, or undoes what was pending, keeps tables that agree. -/
theorem Agrees.of_leaves {c d : TableConnection} (hc : c.Agrees h k) (hon : session'.On d)
    (hd : d = c ∨ d = c.undone) : session'.Agrees := by
  rcases hd with rfl | rfl
  · exact ⟨d, h, k, hon, hc⟩
  · exact ⟨c.undone, k, k, hon, hc.undone⟩

/-- What a failed change of motors with a UTF-8 form leaves. -/
theorem Shows.agrees_of_leaves {motors : Value} {left : Holdings} (hs : session'.Shows left k)
    (hleft : motors.Leaves h k left) (hencodable : motors.EncodableKeys) (hclosed : h.Closed)
    (hscans : k.scans = h.scans) (hmotors : k.motors = h.motors) : session'.Agrees := by
  rcases hleft with rfl | rfl | hnot
  · exact hs.agrees hclosed hscans hmotors
  · exact hs.agrees (hclosed.congr hscans hmotors) rfl rfl
  · exact absurd hencodable hnot

/-! ### Changes -/

/-- A scan that is put in, or that cannot be put in, leaves tables that agree. -/
theorem Agrees.insert (hs : session.Agrees) (sid : Binary64) {motors : Value}
    (hkeys : motors.DistinctKeys) (hencodable : motors.EncodableKeys)
    {outcome : Except Fault Value}
    (hrun : ((onTables config).insert (.float sid) motors).run session = (outcome, session')) :
    session'.Agrees := by
  obtain ⟨c, h, k, hon, hc⟩ := hs
  by_cases hready : c.Ready
  · have hshows := hc.shows hon hready
    rcases hshows.insert hkeys sid hrun with ⟨ps, hm, -, -, hshows'⟩ | ⟨fault, left, -, hshows', hleft⟩
    · have hfinite := (Positions.valid_of_checkMotors hm hkeys).finite
      have hscan : ∃ s ∈ (h.addScan sid).scans, s.scanId = h.lastScan + 1 :=
        ⟨_, List.mem_append_right _ (List.mem_singleton_self _), rfl⟩
      exact hshows'.agrees ((hc.closed.addScan sid).addMotors hscan hfinite) rfl rfl
    · exact hshows'.agrees_of_leaves hleft hencodable hc.closed hc.scans hc.motors
  · cases hm : checkMotors motors with
    | error fault =>
      rw [insert_refused hm] at hrun
      cases hrun
      exact ⟨c, h, k, hon, hc⟩
    | ok entries =>
      obtain ⟨-, hon'⟩ := (insert_leads hm (.float sid) c).outcome_eq hon hrun
      obtain ⟨fault, hinsert⟩ := TableConnection.insert_of_not_ready hready (.float sid) entries
      rw [hinsert] at hon'
      exact .of_leaves hc hon' (TableConnection.reported_leaves _ fault c)

/-- Motors that replace others, or cannot, leave tables that agree. -/
theorem Agrees.replaceMotors (hs : session.Agrees) (sid : Binary64) {motors : Value}
    (hkeys : motors.DistinctKeys) (hencodable : motors.EncodableKeys)
    {outcome : Except Fault Unit}
    (hrun : ((onTables config).replaceMotors (.float sid) motors).run session =
      (outcome, session')) :
    session'.Agrees := by
  obtain ⟨c, h, k, hon, hc⟩ := hs
  rcases hc.ready with hready | hscans
  · have hshows := hc.shows hon hready
    rcases hshows.replaceMotors hkeys sid hrun with
      ⟨ps, s, hm, -, hs, -, hshows'⟩ | ⟨fault, left, -, hshows', hleft, -⟩
    · have hfinite := (Positions.valid_of_checkMotors hm hkeys).finite
      exact hshows'.agrees ((hc.closed.dropMotors s.scanId).addMotors ⟨s, hs, rfl⟩ hfinite) rfl rfl
    · exact hshows'.agrees_of_leaves hleft hencodable hc.closed hc.scans hc.motors
  · cases hm : checkMotors motors with
    | error fault =>
      rw [replaceMotors_refused hm] at hrun
      cases hrun
      exact ⟨c, h, k, hon, hc⟩
    | ok entries =>
      have hnone : c.working.scans = [] := by simp [hc.working, Holdings.toTables, hscans]
      obtain ⟨-, hon'⟩ := (replaceMotors_leads hm (.float sid) c).outcome_eq hon hrun
      obtain ⟨fault, hreplace⟩ := TableConnection.replace_of_no_scans hnone (.float sid) entries
      rw [hreplace] at hon'
      exact .of_leaves hc hon' (TableConnection.replaceReported_leaves _ fault c)

end Session

/-- A change of a store: a scan with its motors, or other motors for a scan. The motors can be
anything, but the mnemonics among them have a UTF-8 form, and a mapping has a key only once. -/
inductive StoreCall.IsChange : StoreCall → Prop
  | insert (sid : Binary64) {motors : Value} (hkeys : motors.DistinctKeys)
    (hencodable : motors.EncodableKeys) : IsChange (.insert (.float sid) motors)
  | replaceMotors (sid : Binary64) {motors : Value} (hkeys : motors.DistinctKeys)
    (hencodable : motors.EncodableKeys) : IsChange (.replaceMotors (.float sid) motors)

/-- A session without rows, now and at the end of the last transaction. -/
def Session.IsEmpty (session : Session TableServer) : Prop :=
  session.rows = some ⟨[], [], []⟩ ∧ session.lastingRows = some ⟨[], [], []⟩

namespace Session

variable {config : MotorsConfig} {session : Session TableServer}

theorem Agrees.after (hs : session.Agrees) {call : StoreCall} (hcall : call.IsChange) :
    (call.after config session).Agrees := by
  cases hcall with
  | insert sid hkeys hencodable => exact hs.insert sid hkeys hencodable rfl
  | replaceMotors sid hkeys hencodable => exact hs.replaceMotors sid hkeys hencodable rfl

theorem Agrees.after_all (hs : session.Agrees) {calls : List StoreCall}
    (hcalls : ∀ call ∈ calls, call.IsChange) :
    (calls.foldl (StoreCall.after config) session).Agrees := by
  induction calls generalizing session with
  | nil => exact hs
  | cons call calls ih =>
    obtain ⟨hcall, hcalls⟩ := List.forall_mem_cons.mp hcalls
    exact ih (hs.after hcall) hcalls

theorem Agrees.consistent (hs : session.Agrees) :
    ∃ rows, session.rows = some rows ∧ session.lastingRows = some rows ∧ rows.Consistent := by
  obtain ⟨c, h, k, hon, hc⟩ := hs
  refine ⟨c.working.rows, hon.rows, ?_, ?_⟩
  · rw [hc.rows]
    exact hon.lastingRows
  · rw [hc.working]
    exact hc.sound.consistent hc.closed

/-- The tables of a connected session without rows agree, whether they can be changed or not. -/
theorem Reached.agrees (hreached : session.Reached config) (hconnected : session.connected = true)
    (hempty : session.IsEmpty) : session.Agrees := by
  obtain ⟨c, hc⟩ := Option.isSome_iff_exists.mp (hreached.bounded.connected hconnected)
  have hon : session.On c := ⟨hconnected, hc⟩
  have hbounded := hreached.bounded.connection c hc
  obtain ⟨hrows, hlasting⟩ := hempty
  rw [hon.rows, Option.some.injEq] at hrows
  rw [hon.lastingRows, Option.some.injEq] at hlasting
  have hholds : ∀ t : Tables, t.Bounded → t.rows = ⟨[], [], []⟩ →
      t = ({ lastScan := t.lastScan, lastMotor := t.lastMotor } : Holdings).toTables ∧
        ({ lastScan := t.lastScan, lastMotor := t.lastMotor } : Holdings).Sound := by
    rintro ⟨scans, mnemonics, positions, lastScan, lastMotor⟩ ht ⟨⟩
    exact ⟨rfl, by constructor <;> simp [ht.lastScan, ht.lastMotor]⟩
  obtain ⟨hworking, hsound⟩ := hholds _ hbounded.working hrows
  obtain ⟨hcommitted, hlast⟩ := hholds _ hbounded.committed hlasting
  exact ⟨c, _, _, hon, hworking, hcommitted, hsound, hlast, by constructor <;> simp, rfl, rfl, .inr rfl⟩

/-- After any changes of a store that was connected and had no rows, whether they failed or
not, the tables agree, and nothing is pending. -/
theorem Reached.consistent_after (hreached : session.Reached config)
    (hconnected : session.connected = true) (hempty : session.IsEmpty) {calls : List StoreCall}
    (hcalls : ∀ call ∈ calls, call.IsChange) :
    ∃ rows, (calls.foldl (StoreCall.after config) session).rows = some rows ∧
      (calls.foldl (StoreCall.after config) session).lastingRows = some rows ∧ rows.Consistent :=
  ((hreached.agrees hconnected hempty).after_all hcalls).consistent

end Session

/-! ### A store in memory -/

/-- A scan of one motor, a scan of the same sid, which fails, and another motor for the first. -/
def StoreCall.someChanges : List StoreCall :=
  [.insert (.float .zero) (.map [("b", .float .zero)]), .insert (.float .zero) (.map []),
    .replaceMotors (.float .zero) (.map [("a", .int 1)])]

theorem StoreCall.someChanges_isChange : ∀ call ∈ someChanges, call.IsChange := by
  have hencodable : ∀ (t : Text) (v : Value), t.Encodable →
      Value.EncodableKeys (.map [(.text t, v)]) := by
    intro t v ht e he u hu
    rw [List.mem_singleton.mp he] at hu
    cases hu
    exact ht
  intro call hcall
  simp only [someChanges, List.mem_cons, List.not_mem_nil, or_false] at hcall
  rcases hcall with rfl | rfl | rfl
  · exact .insert _ (List.pairwise_singleton _ _) (hencodable "b" _ (by decide))
  · exact .insert _ .nil nofun
  · exact .replaceMotors _ (List.pairwise_singleton _ _) (hencodable "a" _ (by decide))

theorem Session.Reached.consistent_after_someChanges :
    ∃ rows, (StoreCall.someChanges.foldl (StoreCall.after .inMemory) .inMemory).rows = some rows ∧
      rows.Consistent ∧ rows.mnemonics = [⟨2, .int 1, .text "a"⟩] := by
  obtain ⟨rows, hrows, -, hconsistent⟩ := Session.inMemory_reached.consistent_after
    (by decide) ⟨by decide, by decide⟩ StoreCall.someChanges_isChange
  have hmnemonics : ((StoreCall.someChanges.foldl (StoreCall.after .inMemory) .inMemory).rows.map
      Rows.mnemonics) = some [⟨2, .int 1, .text "a"⟩] := by decide +kernel
  rw [hrows] at hmnemonics
  exact ⟨rows, hrows, hconsistent, Option.some.inj hmnemonics⟩

end ScanCatalog
