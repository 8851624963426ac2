import ScanCatalog.Proofs.Motor.Failures
import ScanCatalog.Proofs.Motor.Sessions

/-!
# What a store has been given

The records of a store by its history: a scan that was put in is one record more, motors
that replace others change the record of their scan, and what failed changed nothing. A
question by queries gives the records that satisfy them, if its statement is within the limits.

## Main definitions

* `Value.storedMotors`: motors as the tables keep them;
* `Session.Stores`: a session by its history, with the records that it was given.

## Main statements

* `Session.Stores.shows`: the tables hold the records;
* `MotorStore.byQueries_stored`: the answer to a question by queries.
-/

namespace ScanCatalog

open ScanCatalog.Action MotorStore

namespace Value

/-- A position as the tables keep it: a binary64 number, a zero without a sign. -/
def asStored (v : Value) : Value :=
  match v.toReal with
  | .ok x => .float x.dropZeroSign
  | .error _ => .null

/-- Motors as the tables keep them. -/
def storedMotors (motors : Value) : Entries :=
  (motors.entries?.getD []).map fun e => (e.1, e.2.asStored)

end Value

/-- A session by its history from a disk without databases, with the records that it was
given, in the order of their scans. A change of motors that fails gives nothing. -/
inductive Session.Stores (config : MotorsConfig) :
    Session TableServer → List MotorRecord → Prop
  | connected {disk : Disk} {session : Session TableServer} (hdisk : disk.databases = [])
    (hrun : (onTables config).connect.run ⟨false, disk, none⟩ = (.ok (), session)) :
    Stores config session []
  | inserted {session session' : Session TableServer} {records : List MotorRecord}
    (hs : Stores config session records) {sid : Binary64} {motors scanId : Value}
    (hdistinct : motors.DistinctKeys) (hencodable : motors.EncodableKeys)
    (hrun : ((onTables config).insert (.float sid) motors).run session = (.ok scanId, session')) :
    Stores config session' (records ++ [⟨.float sid.dropZeroSign, motors.storedMotors⟩])
  | notInserted {session session' : Session TableServer} {records : List MotorRecord}
    (hs : Stores config session records) {sid : Binary64} {motors : Value} {fault : Fault}
    (hdistinct : motors.DistinctKeys) (hencodable : motors.EncodableKeys)
    (hrun : ((onTables config).insert (.float sid) motors).run session =
      (.error fault, session')) :
    Stores config session' records
  | replaced {session session' : Session TableServer} {records : List MotorRecord}
    (hs : Stores config session records) {sid : Binary64} {motors : Value}
    (hdistinct : motors.DistinctKeys) (hencodable : motors.EncodableKeys)
    (hrun : ((onTables config).replaceMotors (.float sid) motors).run session =
      (.ok (), session')) :
    Stores config session' (records.map fun r =>
      if r.sid.same (.float sid) then ⟨r.sid, motors.storedMotors⟩ else r)
  | notReplaced {session session' : Session TableServer} {records : List MotorRecord}
    (hs : Stores config session records) {sid : Binary64} {motors : Value} {fault : Fault}
    (hdistinct : motors.DistinctKeys) (hencodable : motors.EncodableKeys)
    (hrun : ((onTables config).replaceMotors (.float sid) motors).run session =
      (.error fault, session')) :
    Stores config session' records

/-- Checked motors are stored as the motors that were given. -/
theorem Positions.stored_toEntries {motors : Value} {ps : Positions}
    (h : checkMotors motors = .ok ps.toEntries) : ps.stored.toEntries = motors.storedMotors := by
  have hstored : ∀ entries : Entries, (entries.map fun e => (e.1, e.2.asStored)) =
      (entries.map fun e => (e.1, e.2.toReal)).map fun e =>
        (e.1, match e.2 with | .ok x => Value.float x.dropZeroSign | .error _ => .null) := by
    intro entries
    rw [List.map_map]
    rfl
  unfold Value.storedMotors
  rw [hstored, ← checkMotors_reals h, ← hstored]
  unfold Positions.stored Positions.toEntries
  rw [List.map_map, List.map_map]
  rfl

namespace Holdings

variable {h : Holdings}

/-- No two scans have the same sid. -/
theorem Sound.eq_of_sid (hs : h.Sound) {s t : StoredScan} (hmem : s ∈ h.scans) (ht : t ∈ h.scans)
    (hsame : s.sid.same t.sid = true) : s = t := by
  have hforward : h.scans.Pairwise fun a b => a.sid.same b.sid = true → a = b :=
    hs.sids.imp fun hne hsame => by rw [hne] at hsame; cases hsame
  have hbackward : h.scans.Pairwise (flip fun a b => a.sid.same b.sid = true → a = b) :=
    hs.sids.imp fun hne hsame => by rw [Binary64.same_comm, hne] at hsame; cases hsame
  exact List.Pairwise.forall_of_forall_of_flip (fun _ _ _ => rfl) hforward hbackward hmem ht hsame

theorem Sound.eq_of_scanId (hs : h.Sound) {s t : StoredScan} (hmem : s ∈ h.scans)
    (ht : t ∈ h.scans) (heq : s.scanId = t.scanId) : s = t := by
  have hforward : h.scans.Pairwise fun a b => a.scanId = b.scanId → a = b :=
    hs.scanIds.imp fun hlt heq => absurd heq (Nat.ne_of_lt hlt)
  have hbackward : h.scans.Pairwise (flip fun a b => a.scanId = b.scanId → a = b) :=
    hs.scanIds.imp fun hlt heq => absurd heq.symm (Nat.ne_of_lt hlt)
  exact List.Pairwise.forall_of_forall_of_flip (fun _ _ _ => rfl) hforward hbackward hmem ht heq

/-- The record that a replacement changes is that of the sid. -/
theorem Sound.records_replace (hs : h.Sound) {t : StoredScan} (ht : t ∈ h.scans) {sid : Binary64}
    (hsame : t.sid.same sid = true) (ps : Positions) :
    ((h.dropMotors t.scanId).addMotors t.scanId ps).records =
      h.records.map fun r =>
        if r.sid.same (.float sid) then ⟨r.sid, ps.stored.toEntries⟩ else r := by
  rw [Holdings.records_replace, records, List.map_map]
  refine List.map_congr_left fun s hmem => ?_
  have hiff : s.scanId = t.scanId ↔ s.sid.same sid = true := by
    constructor
    · intro heq
      rw [hs.eq_of_scanId hmem ht heq]
      exact hsame
    · intro hsid
      rw [hs.eq_of_sid hmem ht]
      rw [Binary64.same_congr_right hsame]
      exact hsid
  rw [Function.comp_apply]
  exact if_congr hiff rfl rfl

end Holdings

/-- The tables hold the records that the store was given, and nothing is pending. -/
theorem Session.Stores.shows {config : MotorsConfig} {session : Session TableServer}
    {records : List MotorRecord} (hs : session.Stores config records) :
    ∃ h : Holdings, session.Shows h h ∧ h.records = records := by
  induction hs with
  | connected hdisk hrun => exact ⟨{}, connect_shows hdisk hrun, rfl⟩
  | inserted _ hdistinct hencodable hrun ih =>
    obtain ⟨h, hshows, rfl⟩ := ih
    rcases hshows.insert hdistinct _ hrun with ⟨ps, hm, -, -, hshows'⟩ | ⟨_, _, houtcome, -, -⟩
    · refine ⟨_, hshows', ?_⟩
      rw [hshows.sound.records_insert, Positions.stored_toEntries hm]
    · cases houtcome
  | notInserted _ hdistinct hencodable hrun ih =>
    obtain ⟨h, hshows, rfl⟩ := ih
    rcases hshows.insert hdistinct _ hrun with ⟨_, _, houtcome, -, -⟩ | ⟨_, left, -, hshows', hleft⟩
    · cases houtcome
    · exact ⟨h, hleft.eq hencodable ▸ hshows', rfl⟩
  | replaced _ hdistinct hencodable hrun ih =>
    obtain ⟨h, hshows, rfl⟩ := ih
    rcases hshows.replaceMotors hdistinct _ hrun with
      ⟨ps, t, hm, -, ht, hsame, hshows'⟩ | ⟨_, _, houtcome, -, -⟩
    · refine ⟨_, hshows', ?_⟩
      rw [hshows.sound.records_replace ht hsame, Positions.stored_toEntries hm]
    · cases houtcome
  | notReplaced _ hdistinct hencodable hrun ih =>
    obtain ⟨h, hshows, rfl⟩ := ih
    rcases hshows.replaceMotors hdistinct _ hrun with
      ⟨_, _, _, houtcome, -, -, -⟩ | ⟨_, left, -, hshows', hleft, -⟩
    · cases houtcome
    · exact ⟨h, hleft.eq hencodable ▸ hshows', rfl⟩

/-- Queries that a filter compiles to, parsed or not. -/
def PositionQuery.AreCompiled (queries : List PositionQuery) : Prop :=
  (∃ terms, compileTerms terms = .ok queries) ∨ ∃ entries, compileEntries entries = .ok queries

theorem PositionQuery.AreCompiled.forall {queries : List PositionQuery}
    (h : PositionQuery.AreCompiled queries) : ∀ query ∈ queries, query.Compiled := by
  rcases h with ⟨terms, h⟩ | ⟨entries, h⟩
  · exact compileTerms_compiled h
  · exact compileEntries_compiled h

namespace MotorStore

variable {config : MotorsConfig}

/-- A question by compiled queries gives the records that the store was given and that
satisfy all queries, each once and in the order of their scans. The mnemonics of the queries
need a UTF-8 form, and the statement must be within the limits. -/
theorem byQueries_stored {session : Session TableServer} {records : List MotorRecord}
    (hs : session.Stores config records) {queries : List PositionQuery}
    (hqueries : PositionQuery.AreCompiled queries)
    (hencodable : ∀ query ∈ queries, ∀ t, query.mnemonic = .text t → t.Encodable)
    (hlimits : (Statement.ofQueries queries).WithinLimits) :
    ∃ session', ((onTables config).byQueries queries).run session =
      (.ok (records.filter fun r => ∀ query ∈ queries, query.Holds r.motors), session') := by
  obtain ⟨h, hshows, rfl⟩ := hs.shows
  obtain ⟨session', hrun, -⟩ := hshows.byQueries config hqueries.forall hencodable hlimits
  exact ⟨session', hrun⟩

end MotorStore

/-! ### Questions to a store with one scan -/

theorem Session.inMemory_stores : Session.inMemory.Stores .inMemory [] := by
  have hrun : ((onTables .inMemory).connect.run ⟨false, .inMemory⟩).1 = .ok () := by
    decide
  exact .connected rfl (run_eq_of_fst hrun)

theorem MotorStore.oneScan_stores :
    oneScan.Stores .inMemory [⟨.float .zero, [("b", .float .zero)]⟩] := by
  have hrun : (((onTables .inMemory).insert (.float .zero) (.map [("b", .float .zero)])).run
      .inMemory).1 = .ok (.int 1) := by decide
  have hdistinct : Value.DistinctKeys (.map [("b", .float .zero)]) := List.pairwise_singleton _ _
  have hencodable : Value.EncodableKeys (.map [("b", .float .zero)]) := by
    intro e he t ht
    rw [List.mem_singleton.mp he] at ht
    cases ht
    decide
  exact Session.inMemory_stores.inserted hdistinct hencodable (run_eq_of_fst hrun)

namespace PositionQuery

/-- The query for a motor at zero. -/
def atZero : PositionQuery := { mnemonic := "b", exact := some [.float .zero] }

theorem atZero_compiled : AreCompiled [atZero] := .inl ⟨[("motors.b", .literal (.float .zero))], rfl⟩

/-- The query for a motor whose mnemonic has no UTF-8 form. -/
def surrogate : PositionQuery := { mnemonic := .text ⟨[0xD800]⟩ }

theorem surrogate_compiled : AreCompiled [surrogate] :=
  .inl ⟨[("motors." ++ ⟨[0xD800]⟩, .exist (.bool true) true)], rfl⟩

end PositionQuery

namespace MotorStore

theorem byQueries_stored_oneScan :
    ∃ session', ((onTables .inMemory).byQueries [.atZero]).run oneScan =
      (.ok [⟨.float .zero, [("b", .float .zero)]⟩], session') := by
  have hencodable : ∀ query ∈ [PositionQuery.atZero], ∀ t, query.mnemonic = .text t →
      t.Encodable := by
    intro query hmem t ht
    rw [List.mem_singleton.mp hmem] at ht
    cases ht
    decide
  obtain ⟨session', hrun⟩ := byQueries_stored oneScan_stores PositionQuery.atZero_compiled
    hencodable ⟨by decide, by decide⟩
  refine ⟨session', hrun.trans ?_⟩
  have hfound : ([⟨.float .zero, [("b", .float .zero)]⟩] : List MotorRecord).filter
      (fun r => ∀ query ∈ [PositionQuery.atZero], query.Holds r.motors) =
      [⟨.float .zero, [("b", .float .zero)]⟩] := by decide
  rw [hfound]

/-- A compiled query whose mnemonic has no UTF-8 form gets no answer, although no scan could
have such a motor. -/
theorem byQueries_surrogate :
    Session.inMemory.Stores .inMemory [] ∧ PositionQuery.AreCompiled [.surrogate] ∧
      ((onTables .inMemory).byQueries [.surrogate]).run .inMemory =
        (.error surrogateFault, .inMemory) :=
  ⟨Session.inMemory_stores, PositionQuery.surrogate_compiled, rfl⟩

end MotorStore

end ScanCatalog
