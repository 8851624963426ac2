import ScanCatalog.Proofs.Motor.Satisfaction
import ScanCatalog.Proofs.Motor.Sids

/-!
# Sessions on what the tables hold

The operations of a store whose tables hold something sound, now and at the end of the
last transaction. The two differ only while rows are pending, which a failed change can
leave behind.

## Main definitions

* `Session.Shows`: what the tables of a session hold;
* `Value.DistinctKeys`, `Value.EncodableKeys`: motors whose mnemonics come once, and have a
  UTF-8 form;
* `Session.tables`, `Session.records`: what a session holds now;
* `Session.HasRoom`: row numbers for scans and motors.

## Main statements

* `Session.Shows.insert`, `Session.Shows.replaceMotors`: the changes;
* `Session.Shows.insert_fits`, `Session.Shows.replaceMotors_fits`: changes that do not fail;
* `Session.On.fetch`, `Session.On.bySids`: questions to tables of any rows;
* `Session.On.bySids_tooMany`: a question for too many sids;
* `Session.Shows.byQueries`, `Session.Shows.bySids`: the questions;
* `MotorStore.connect_shows`: what a store holds at first.
-/

namespace ScanCatalog

open ScanCatalog.Action MotorStore

/-- A connection whose tables hold `h`, and held `k` at the end of the last transaction. -/
structure TableConnection.Shows (c : TableConnection) (h k : Holdings) : Prop where
  holds : c.Holds h
  committed : c.committed = k.toTables
  lasting : k.Sound

/-- A session on such a connection. -/
def Session.Shows (session : Session TableServer) (h k : Holdings) : Prop :=
  ∃ c, session.On c ∧ c.Shows h k

namespace Value

/-- A mapping in which no key comes again. -/
def DistinctKeys (v : Value) : Prop := (v.entries?.getD []).Distinct

/-- A mapping whose keys have a UTF-8 form, as far as they are texts. -/
def EncodableKeys (v : Value) : Prop :=
  ∀ e ∈ v.entries?.getD [], ∀ t, e.1 = .text t → t.Encodable

end Value

namespace Positions

/-- Checked motors can be put in together. -/
theorem valid_of_checkMotors {motors : Value} {ps : Positions}
    (h : checkMotors motors = .ok ps.toEntries) (hkeys : motors.DistinctKeys) : ps.Valid := by
  obtain ⟨qs, hqs, hkeysEq, hfinite⟩ := checkMotors_eq_ok h
  have hps : ps = qs := toEntries_injective hqs
  subst hps
  have hdistinct : ps.toEntries.Distinct := Entries.distinct_of_keys_eq hkeysEq hkeys
  refine ⟨?_, fun p hp => (hfinite p hp).2⟩
  refine (List.pairwise_map.mp hdistinct).imp fun {p q} hpq heq => ?_
  rw [Value.same_text, heq, beq_self_eq_true] at hpq
  cases hpq

theorem encodable_of_checkMotors {motors : Value} {ps : Positions}
    (h : checkMotors motors = .ok ps.toEntries) (hkeys : motors.EncodableKeys) : ps.Encodable := by
  obtain ⟨-, -, hkeysEq, -⟩ := checkMotors_eq_ok h
  intro p hp
  have hmem : Value.text p.1 ∈ (motors.entries?.getD []).keys := by
    rw [← hkeysEq, Positions.keys_toEntries]
    exact List.mem_map_of_mem hp
  obtain ⟨e, he, hkey⟩ := List.mem_map.mp hmem
  exact hkeys e he p.1 hkey

theorem Valid.distinctKeys {ps : Positions} (hps : ps.Valid) :
    (Value.map ps.toEntries).DistinctKeys := by
  refine List.pairwise_map.mpr (hps.distinct.imp fun {p q} hne => ?_)
  rw [Value.same_text]
  exact beq_false_of_ne hne.symm

theorem Encodable.encodableKeys {ps : Positions} (hps : ps.Encodable) :
    (Value.map ps.toEntries).EncodableKeys := by
  intro e he t ht
  obtain ⟨p, hp, rfl⟩ := List.mem_map.mp he
  exact Value.text.inj ht ▸ hps p hp

end Positions

/-- What a change of motors leaves behind when it fails: what was there, what was there at
the end of the last transaction, or, if a mnemonic has no UTF-8 form, something else. -/
def Value.Leaves (motors : Value) (h k left : Holdings) : Prop :=
  left = h ∨ left = k ∨ ¬ motors.EncodableKeys

/-- Without pending rows, and with mnemonics that have a UTF-8 form, nothing changes. -/
theorem Value.Leaves.eq {motors : Value} {h left : Holdings} (hleft : motors.Leaves h h left)
    (hencodable : motors.EncodableKeys) : left = h := by
  rcases hleft with rfl | rfl | hnot
  · rfl
  · rfl
  · exact absurd hencodable hnot

namespace TableConnection

variable {c : TableConnection} {h k : Holdings}

theorem Shows.hold (hc : c.Shows h k) {h' : Holdings} (hh' : h'.Sound) : (c.hold h').Shows h' h' :=
  ⟨hc.holds.hold hh', rfl, hh'⟩

theorem Shows.withWorking (hc : c.Shows h k) {h' : Holdings} (hh' : h'.Sound) :
    ({ c with working := h'.toTables } : TableConnection).Shows h' k :=
  ⟨hc.holds.withWorking hh' c.committed, hc.committed, hc.lasting⟩

theorem Shows.settled (hc : c.Shows h k) : c.settled.Shows h h :=
  ⟨⟨hc.holds.ready.withTables _ _, hc.holds.working, hc.holds.sound⟩, hc.holds.working,
    hc.holds.sound⟩

theorem Shows.undone (hc : c.Shows h k) : c.undone.Shows k k :=
  ⟨⟨hc.holds.ready.withTables _ _, hc.committed, hc.lasting⟩, hc.committed, hc.lasting⟩

end TableConnection

/-- What a question reports that names too many sids. -/
def MotorStore.tooManySids : Fault :=
  .motorStore (.query ⟨.operationalError, ["too many SQL variables"]⟩)

namespace Session

variable {config : MotorsConfig} {session session' : Session TableServer} {c : TableConnection}
  {h k : Holdings} {motors : Value}

theorem Shows.sound (hs : session.Shows h k) : h.Sound := hs.choose_spec.2.holds.sound

/-! ### Changes -/

/-- An insertion adds the scan with its motors, or leaves what a failed change leaves. -/
theorem Shows.insert (hs : session.Shows h k) (hkeys : motors.DistinctKeys) (sid : Binary64)
    {outcome : Except Fault Value}
    (hrun : ((onTables config).insert (.float sid) motors).run session = (outcome, session')) :
    (∃ ps : Positions, checkMotors motors = .ok ps.toEntries ∧
        outcome = .ok (.int ((h.lastScan + 1 : Nat) : Int)) ∧
        (∀ s ∈ h.scans, s.sid.same sid = false) ∧
        session'.Shows ((h.addScan sid).addMotors (h.lastScan + 1) ps)
          ((h.addScan sid).addMotors (h.lastScan + 1) ps)) ∨
      ∃ fault left, outcome = .error fault ∧ session'.Shows left k ∧ motors.Leaves h k left := by
  obtain ⟨c, hon, hc⟩ := hs
  cases hm : checkMotors motors with
  | error fault =>
    rw [insert_refused hm] at hrun
    cases hrun
    exact .inr ⟨fault, h, rfl, ⟨c, hon, hc⟩, .inl rfl⟩
  | ok checked =>
    obtain ⟨ps, rfl, -, -⟩ := checkMotors_eq_ok hm
    obtain ⟨houtcome, hon'⟩ := (insert_leads hm (.float sid) c).outcome_eq hon hrun
    rcases TableConnection.insert_holds hc.holds sid (Positions.valid_of_checkMotors hm hkeys) with
      ⟨heq, hsound, hnew⟩ | ⟨fault, left, heq, hleft, hdriver | ⟨hencoding, hmnemonics⟩, -⟩
    · rw [heq] at houtcome hon'
      exact .inl ⟨ps, rfl, houtcome, hnew, _, hon', hc.hold hsound⟩
    · obtain ⟨reason, -, hreported⟩ := TableConnection.reported_driverError (α := Value)
        (TableConnection.insertFault · (.float sid)) hdriver { c with working := left.toTables }
      rw [heq, hreported] at houtcome hon'
      exact .inr ⟨_, k, houtcome, ⟨_, hon', (hc.withWorking hleft).undone⟩, .inr (.inl rfl)⟩
    · rw [heq, TableConnection.reported_error _
        (Fault.isDriverError_of_isEncoding hencoding)] at houtcome hon'
      refine .inr ⟨_, left, houtcome, ⟨_, hon', hc.withWorking hleft⟩, .inr (.inr ?_)⟩
      exact fun hencodable => hmnemonics (Positions.encodable_of_checkMotors hm hencodable)

/-- A replacement puts the motors in the place of those of the scan, or leaves what a failed
change leaves. Only that scan can have other motors afterwards, if there were no pending rows. -/
theorem Shows.replaceMotors (hs : session.Shows h k) (hkeys : motors.DistinctKeys)
    (sid : Binary64) {outcome : Except Fault Unit}
    (hrun : ((onTables config).replaceMotors (.float sid) motors).run session =
      (outcome, session')) :
    (∃ (ps : Positions) (s : StoredScan), checkMotors motors = .ok ps.toEntries ∧
        outcome = .ok () ∧ s ∈ h.scans ∧ s.sid.same sid = true ∧
        session'.Shows ((h.dropMotors s.scanId).addMotors s.scanId ps)
          ((h.dropMotors s.scanId).addMotors s.scanId ps)) ∨
      ∃ fault left, outcome = .error fault ∧ session'.Shows left k ∧ motors.Leaves h k left ∧
        (left = h ∨ left = k ∨ h.Swaps sid left) := by
  obtain ⟨c, hon, hc⟩ := hs
  cases hm : checkMotors motors with
  | error fault =>
    rw [replaceMotors_refused hm] at hrun
    cases hrun
    exact .inr ⟨fault, h, rfl, ⟨c, hon, hc⟩, .inl rfl, .inl rfl⟩
  | ok checked =>
    obtain ⟨ps, rfl, -, -⟩ := checkMotors_eq_ok hm
    obtain ⟨houtcome, hon'⟩ := (replaceMotors_leads hm (.float sid) c).outcome_eq hon hrun
    rcases TableConnection.replace_holds hc.holds sid (Positions.valid_of_checkMotors hm hkeys) with
      ⟨s, hmem, hsame, heq, hsound⟩ |
      ⟨fault, left, heq, hleft, hunknown | hdriver | ⟨hencoding, hmnemonics⟩, -, hswaps⟩
    · rw [heq] at houtcome hon'
      exact .inl ⟨ps, s, rfl, houtcome, hmem, hsame, _, hon', hc.hold hsound⟩
    · rw [heq, hunknown] at houtcome hon'
      exact .inr ⟨_, k, houtcome, ⟨_, hon', (hc.withWorking hleft).undone⟩, .inr (.inl rfl),
        .inr (.inl rfl)⟩
    · obtain ⟨reason, hreported⟩ := TableConnection.replaceReported_driverError (.float sid) hdriver
        { c with working := left.toTables }
      rw [heq, hreported] at houtcome hon'
      exact .inr ⟨_, k, houtcome, ⟨_, hon', (hc.withWorking hleft).undone⟩, .inr (.inl rfl),
        .inr (.inl rfl)⟩
    · obtain ⟨cause, rfl⟩ := Fault.eq_of_isEncoding hencoding
      rw [heq] at houtcome hon'
      refine .inr ⟨_, left, houtcome, ⟨_, hon', hc.withWorking hleft⟩, .inr (.inr ?_),
        hswaps.imp id .inr⟩
      exact fun hencodable => hmnemonics (Positions.encodable_of_checkMotors hm hencodable)

/-- An insertion of motors that fit, under a sid that the tables take, does not fail. -/
theorem Shows.insert_fits (config : MotorsConfig) (hs : session.Shows h k)
    (hkeys : motors.DistinctKeys) {sid : Binary64} {ps : Positions}
    (hm : checkMotors motors = .ok ps.toEntries) (htakes : h.Takes sid) (hfit : ps.Fit h) :
    ∃ scanId session', ((onTables config).insert (.float sid) motors).run session =
      (.ok scanId, session') := by
  obtain ⟨c, hon, hc⟩ := hs
  have hleads : Leads Session.On ((onTables config).insert (.float sid) motors) c _ _ :=
    insert_leads hm (.float sid) c
  obtain ⟨session', hrun, -⟩ := hleads session hon
  rcases TableConnection.insert_holds hc.holds sid (Positions.valid_of_checkMotors hm hkeys) with
    ⟨heq, -, -⟩ | ⟨_, _, -, -, -, hnot⟩
  · rw [heq] at hrun
    exact ⟨_, session', hrun⟩
  · exact absurd ⟨htakes, hfit⟩ hnot

/-- A replacement of the motors of a scan by motors that fit does not fail. -/
theorem Shows.replaceMotors_fits (config : MotorsConfig) (hs : session.Shows h k)
    (hkeys : motors.DistinctKeys) {sid : Binary64} {ps : Positions}
    (hm : checkMotors motors = .ok ps.toEntries) (hscan : ∃ s ∈ h.scans, s.sid.same sid = true)
    (hfit : ps.Fit h) :
    ∃ session', ((onTables config).replaceMotors (.float sid) motors).run session =
      (.ok (), session') := by
  obtain ⟨c, hon, hc⟩ := hs
  have hleads : Leads Session.On ((onTables config).replaceMotors (.float sid) motors) c _ _ :=
    replaceMotors_leads hm (.float sid) c
  obtain ⟨session', hrun, -⟩ := hleads session hon
  rcases TableConnection.replace_holds hc.holds sid (Positions.valid_of_checkMotors hm hkeys) with
    ⟨_, -, -, heq, -⟩ | ⟨_, _, -, -, -, hnot, -⟩
  · rw [heq] at hrun
    exact ⟨session', hrun⟩
  · exact absurd ⟨hscan, hfit⟩ hnot

/-! ### Questions -/

/-- A selection within the limits whose parameters can be bound gives the records of the scans
that satisfy its condition, and ends the transaction. -/
theorem On.fetch (config : MotorsConfig) (hon : session.On c) (hready : c.Ready)
    (hfits : c.working.Fits) (statement : Statement) {parameters : List Value}
    {condition : ScanRow → Bool} (hselect : statement.isSelect = true)
    (hlimits : statement.exceeded? = none) (hbinds : ∀ v ∈ parameters, v.Binds)
    (hexecute : c.working.execute statement (parameters.map Value.toCell) =
      .ok (c.working, { rows := c.working.select condition })) :
    ∃ session', ((onTables config).fetch statement parameters).run session =
        (.ok ((c.working.scans.filter condition).map c.working.recordOf), session') ∧
      session'.On c.settled := by
  have hrows : ∀ part, statement ≠ .create part := by
    rintro part rfl
    cases hselect
  have hexecuteOn : TableServer.executeOn statement (some parameters) c =
      .ok ({ rows := c.working.select condition }, c) := by
    rw [hready.executeOn statement hrows hlimits hbinds, hexecute]
  have hfetch : c.fetch statement parameters =
      (.ok { rows := c.working.select condition }, c.settled) := by
    rw [TableConnection.fetch, hexecuteOn]
  have hleads : Leads Session.On ((onTables config).fetch statement parameters) c _ _ :=
    fetch_leads statement parameters c
  obtain ⟨session', hrun, hon'⟩ := hleads session hon
  rw [hfetch] at hrun hon'
  refine ⟨session', hrun.trans ?_, hon'⟩
  exact congrArg (·, session') (hfits.groupRows_select condition)

/-- A selection beyond a limit is reported, and rolled back. -/
theorem On.fetch_exceeded (config : MotorsConfig) (hon : session.On c) (hready : c.Ready)
    (statement : Statement) (parameters : List Value) (hselect : statement.isSelect = true)
    {limit : StatementLimit} (hlimits : statement.exceeded? = some limit) :
    ∃ reason session', Disk.limitFault limit = .driver reason ∧
      ((onTables config).fetch statement parameters).run session =
        (.error (.motorStore (.query reason)), session') ∧ session'.On c.undone := by
  have hrows : ∀ part, statement ≠ .create part := by
    rintro part rfl
    cases hselect
  have hfetch : c.fetch statement parameters = (.error (Disk.limitFault limit), c) := by
    rw [TableConnection.fetch, TableServer.executeOn_exceeded hrows hlimits hready]
  have hdriver : (Disk.limitFault limit).isDriverError = true := by cases limit <;> rfl
  obtain ⟨reason, hreason, hreported⟩ := TableConnection.reported_driverError (α := ResultSet)
    (fun _ reason => .motorStore (.query reason)) hdriver c
  have hleads : Leads Session.On ((onTables config).fetch statement parameters) c _ _ :=
    fetch_leads statement parameters c
  obtain ⟨session', hrun, hon'⟩ := hleads session hon
  rw [hfetch, hreported] at hrun hon'
  exact ⟨reason, session', hreason, hrun, hon'⟩

theorem Shows.fetch (config : MotorsConfig) (hs : session.Shows h k) (statement : Statement)
    {parameters : List Value} {condition : ScanRow → Bool} (hselect : statement.isSelect = true)
    (hlimits : statement.exceeded? = none) (hbinds : ∀ v ∈ parameters, v.Binds)
    (hexecute : h.toTables.execute statement (parameters.map Value.toCell) =
      .ok (h.toTables, { rows := h.toTables.select condition })) :
    ∃ session', ((onTables config).fetch statement parameters).run session =
        (.ok ((h.scans.filter fun s => condition s.toRow).map h.recordOf), session') ∧
      session'.Shows h h := by
  obtain ⟨c, hon, hc⟩ := hs
  have hsound : h.Sound := hc.holds.sound
  have hworking : c.working = h.toTables := hc.holds.working
  obtain ⟨session', hrun, hon'⟩ := hon.fetch config hc.holds.ready
    (hworking ▸ hsound.toTables_fits) statement hselect hlimits hbinds (hworking ▸ hexecute)
  refine ⟨session', ?_, c.settled, hon', hc.settled⟩
  rw [hrun, hworking, hsound.recordsWhere_toTables]

/-- A question that is answered was within the limits, and its parameters could be bound. -/
theorem Shows.of_fetch_eq_ok (hs : session.Shows h k) (statement : Statement)
    {parameters : List Value} {records : List MotorRecord} (hselect : statement.isSelect = true)
    (hrun : ((onTables config).fetch statement parameters).run session =
      (.ok records, session')) :
    statement.WithinLimits ∧ ∃ cells, Cell.ofParameters 1 parameters = .ok cells := by
  obtain ⟨c, hon, hc⟩ := hs
  have hrows : ∀ part, statement ≠ .create part := by
    rintro part rfl
    cases hselect
  obtain ⟨houtcome, -⟩ := (fetch_leads statement parameters c).outcome_eq hon hrun
  cases hexecute : TableServer.executeOn statement (some parameters) c with
  | error fault =>
    have hfetch : c.fetch statement parameters = (.error fault, c) := by
      rw [TableConnection.fetch, hexecute]
    rw [hfetch] at houtcome
    cases hdriver : fault.isDriverError with
    | true =>
      obtain ⟨reason, -, hreported⟩ := TableConnection.reported_driverError (α := ResultSet)
        (fun _ reason => .motorStore (.query reason)) hdriver c
      rw [hreported] at houtcome
      cases houtcome
    | false =>
      rw [TableConnection.reported_error _ hdriver] at houtcome
      cases houtcome
  | ok selected =>
    obtain ⟨hrefusal, -, cells, -, hcells, -, -⟩ := TableServer.executeOn_ok hexecute hrows
    rw [TableServer.refusal?_ready hc.holds.ready, Option.map_eq_none_iff] at hrefusal
    exact ⟨Statement.exceeded?_eq_none_iff.mp hrefusal, cells, hcells⟩

/-- The records of the scans that satisfy compiled queries are found, if the mnemonics of the
queries have a UTF-8 form and the statement is within the limits. -/
theorem Shows.byQueries (config : MotorsConfig) (hs : session.Shows h k)
    {queries : List PositionQuery} (hcompiled : ∀ query ∈ queries, query.Compiled)
    (hencodable : ∀ query ∈ queries, ∀ t, query.mnemonic = .text t → t.Encodable)
    (hlimits : (Statement.ofQueries queries).WithinLimits) :
    ∃ session', ((onTables config).byQueries queries).run session =
        (.ok (h.records.filter fun r => ∀ query ∈ queries, query.Holds r.motors), session') ∧
      session'.Shows h h := by
  have hbinds : ∀ v ∈ parametersOf queries, v.Binds := by
    intro v hv
    obtain ⟨query, hmem, hv⟩ := List.mem_flatMap.mp hv
    exact (hcompiled query hmem).binds (hencodable query hmem) v hv
  obtain ⟨session', hrun, hshows⟩ := hs.fetch config (.ofQueries queries) rfl
    (Statement.exceeded?_eq_none_iff.mpr hlimits) hbinds rfl
  refine ⟨session', ?_, hshows⟩
  have hfilter : (h.scans.filter fun s => h.toTables.allHold s.toRow.scanId
      (queries.map PositionQuery.toCondition) ((parametersOf queries).map Value.toCell)) =
      h.scans.filter ((fun r : MotorRecord => decide (∀ query ∈ queries, query.Holds r.motors)) ∘
        h.recordOf) :=
    List.filter_congr fun s _ => hs.sound.allHold_toTables s.scanId hcompiled
  rw [Holdings.records, List.filter_map, ← hfilter]
  exact hrun

/-- The mnemonics of queries that are answered have a UTF-8 form, and their statement is within the
limits. -/
theorem Shows.asks_of_byQueries_eq_ok (hs : session.Shows h k) {queries : List PositionQuery}
    {records : List MotorRecord}
    (hrun : ((onTables config).byQueries queries).run session = (.ok records, session')) :
    (∀ query ∈ queries, ∀ t, query.mnemonic = .text t → t.Encodable) ∧
      (Statement.ofQueries queries).WithinLimits := by
  obtain ⟨hlimits, cells, hcells⟩ := hs.of_fetch_eq_ok (.ofQueries queries) rfl hrun
  refine ⟨fun query hmem t ht => ?_, hlimits⟩
  refine Cell.encodable_of_ofParameters hcells t (List.mem_flatMap.mpr ⟨query, hmem, ?_⟩)
  rw [← ht]
  exact List.mem_cons_self

/-- The records of the scans of some sids, which are numbers, are found, whatever rows the tables
hold, if no more of the sids are different than a statement can have parameters. -/
theorem On.bySids (config : MotorsConfig) (hon : session.On c) (hready : c.Ready)
    (hfits : c.working.Fits) {sids : List Value} (hsids : ∀ v ∈ sids, v.IsReal)
    (hcount : sidCount sids ≤ Statement.parameterLimit) :
    ∃ session' c', ((onTables config).bySids sids).run session =
        (.ok ((c.working.scansOf sids).map c.working.recordOf), session') ∧
      session'.On c' ∧ (c' = c.settled ∨ c' = c ∧ sids = []) := by
  obtain ⟨distinct, hdistinct, hsublist, hsame⟩ := distinctSids_reals [] nofun hsids
  have hreal : ∀ v ∈ distinct, v.IsReal := fun v hv => hsids v (hsublist.subset hv)
  have hcondition : ∀ s ∈ c.working.scans,
      (sids.any fun sid => s.sid.toValue.same sid) =
        (distinct.map Value.toCell).any fun sid => s.sid.same sid.asNumeric := by
    intro s hs
    obtain ⟨x, -, hsid⟩ := hfits.sid s hs
    rw [hsid, ← List.nil_append sids]
    refine (hsame x).symm.trans ?_
    rw [List.any_map, Bool.eq_iff_iff, List.any_eq_true, List.any_eq_true]
    refine exists_congr fun v => and_congr_right fun hv => ?_
    obtain ⟨y, rfl⟩ := hreal v hv
    rw [Function.comp_apply, Value.same_float, ← Cell.real_same_toCell]
  rw [Tables.scansOf, List.filter_congr hcondition]
  rw [sidCount_of_distinctSids hdistinct] at hcount
  unfold MotorStore.bySids
  rw [run_bind, run_ofExcept, uniqueSids_eq, hdistinct]
  dsimp only
  cases distinct with
  | nil =>
    refine ⟨session, c, ?_, hon, .inr ⟨rfl, eq_nil_of_distinctSids hdistinct⟩⟩
    have hnone : c.working.scans.filter (fun s => ([] : List Cell).any fun sid =>
        s.sid.same sid.asNumeric) = [] := List.filter_eq_nil_iff.mpr fun s _ => by simp
    rw [List.map_nil, hnone]
    rfl
  | cons sid rest =>
    have hbinds : ∀ v ∈ sid :: rest, v.Binds := by
      intro v hv
      obtain ⟨x, rfl⟩ := hreal v hv
      exact .float x
    have hlimits : (Statement.selectBySids (sid :: rest).length).exceeded? = none :=
      Statement.exceeded?_eq_none_iff.mpr ⟨hcount, Nat.zero_le _⟩
    obtain ⟨session', hrun, hon'⟩ :=
      hon.fetch config hready hfits (.selectBySids (sid :: rest).length) rfl hlimits hbinds rfl
    exact ⟨session', c.settled, hrun, hon', .inl rfl⟩

/-- A question for more different sids than a statement can have parameters is refused. -/
theorem On.bySids_tooMany (config : MotorsConfig) (hon : session.On c) (hready : c.Ready)
    {sids : List Value} (hsids : ∀ v ∈ sids, v.IsReal)
    (hcount : Statement.parameterLimit < sidCount sids) :
    ∃ session', ((onTables config).bySids sids).run session = (.error tooManySids, session') ∧
      session'.On c.undone := by
  obtain ⟨distinct, hdistinct, -, -⟩ := distinctSids_reals [] nofun hsids
  rw [sidCount_of_distinctSids hdistinct] at hcount
  have hread : (Statement.selectBySids distinct.length).exceededRead? = some .parameters :=
    if_pos hcount
  have hlimits : (Statement.selectBySids distinct.length).exceeded? = some .parameters := by
    rw [Statement.exceeded?, hread, Option.some_or]
  have hsome : ¬ distinct.isEmpty = true := by
    rw [List.isEmpty_iff]
    rintro rfl
    exact Nat.not_lt_zero _ hcount
  obtain ⟨reason, session', hreason, hrun, hon'⟩ :=
    hon.fetch_exceeded config hready (.selectBySids distinct.length) distinct rfl hlimits
  cases hreason
  refine ⟨session', ?_, hon'⟩
  unfold MotorStore.bySids
  rw [run_bind, run_ofExcept, uniqueSids_eq, hdistinct]
  dsimp only
  rw [if_neg hsome]
  exact hrun

/-- The records of the scans of some sids are found. -/
theorem Shows.bySids (config : MotorsConfig) (hs : session.Shows h k) {sids : List Value}
    (hsids : ∀ v ∈ sids, v.IsReal) (hcount : sidCount sids ≤ Statement.parameterLimit) :
    ∃ session' k', ((onTables config).bySids sids).run session =
        (.ok (h.records.filter fun r => sids.any fun sid => r.sid.same sid), session') ∧
      session'.Shows h k' ∧ (k' = h ∨ k' = k ∧ sids = []) := by
  obtain ⟨c, hon, hc⟩ := hs
  have hsound : h.Sound := hc.holds.sound
  have hworking : c.working = h.toTables := hc.holds.working
  obtain ⟨session', c', hrun, hon', hc'⟩ := hon.bySids config hc.holds.ready
    (hworking ▸ hsound.toTables_fits) hsids hcount
  rw [hworking, Tables.scansOf, hsound.recordsWhere_toTables] at hrun
  rw [Holdings.records, List.filter_map]
  rcases hc' with rfl | ⟨rfl, hnil⟩
  · exact ⟨session', h, hrun, ⟨_, hon', hc.settled⟩, .inl rfl⟩
  · exact ⟨session', k, hrun, ⟨_, hon', hc⟩, .inr ⟨rfl, hnil⟩⟩

theorem Shows.bySids_tooMany (config : MotorsConfig) (hs : session.Shows h k) {sids : List Value}
    (hsids : ∀ v ∈ sids, v.IsReal) (hcount : Statement.parameterLimit < sidCount sids) :
    ∃ session', ((onTables config).bySids sids).run session = (.error tooManySids, session') ∧
      session'.Shows k k := by
  obtain ⟨c, hon, hc⟩ := hs
  obtain ⟨session', hrun, hon'⟩ := hon.bySids_tooMany config hc.holds.ready hsids hcount
  exact ⟨session', hrun, _, hon', hc.undone⟩

end Session

/-! ### What a session holds -/

namespace Session

variable {session : Session TableServer} {h k : Holdings}

/-- The motor records that the tables of a session hold now. -/
def records (session : Session TableServer) : List MotorRecord :=
  (session.server.connection.map fun c => c.working.records).getD []

/-- The tables of a session. -/
def tables (session : Session TableServer) : Tables :=
  (session.server.connection.map fun c => c.working).getD {}

/-- There are row numbers left for so many scans and motors. -/
structure HasRoom (session : Session TableServer) (scans motors : Nat) : Prop where
  scans : session.tables.lastScan + scans ≤ Tables.lastNumber
  motors : session.tables.lastMotor + motors ≤ Tables.lastNumber

theorem Shows.records (hs : session.Shows h k) : session.records = h.records := by
  obtain ⟨c, hon, hc⟩ := hs
  unfold Session.records
  rw [hon.2, Option.map_some, Option.getD_some, hc.holds.working, hc.holds.sound.records_toTables]

theorem Shows.tables (hs : session.Shows h k) : session.tables = h.toTables := by
  obtain ⟨c, hon, hc⟩ := hs
  unfold Session.tables
  rw [hon.2, Option.map_some, Option.getD_some, hc.holds.working]

theorem Shows.hasRoom_iff (hs : session.Shows h k) {scans motors : Nat} :
    session.HasRoom scans motors ↔ h.lastScan + scans ≤ Tables.lastNumber ∧
      h.lastMotor + motors ≤ Tables.lastNumber := by
  have htables := hs.tables
  constructor
  · rintro ⟨hscans, hmotors⟩
    rw [htables] at hscans hmotors
    exact ⟨hscans, hmotors⟩
  · rintro ⟨hscans, hmotors⟩
    constructor
    · rw [htables]
      exact hscans
    · rw [htables]
      exact hmotors

end Session

/-! ### Opening -/

/-- A connection to a database that is not there yet has no tables and no rows. -/
structure TableConnection.Fresh (c : TableConnection) : Prop where
  made : c.made = false
  committed : c.committed = {}
  working : c.working = {}

theorem Disk.openName_fresh {disk : Disk} {name : Text} {c : TableConnection}
    (hdisk : disk.databases = []) (h : disk.openName name = .ok c) : c.Fresh := by
  unfold openName at h
  split at h
  · cases h
  · split at h
    · cases h
    · unfold openLocation at h
      split at h
      · cases h
        exact ⟨rfl, rfl, rfl⟩
      · split at h
        · split at h
          · cases h
          · unfold openPlace at h
            dsimp only at h
            rw [hdisk, List.lookup_nil] at h
            split at h
            · cases h
            · split at h
              · next hlookup => cases hlookup
              · cases h
                exact ⟨rfl, rfl, rfl⟩
              · cases h
                exact ⟨rfl, rfl, rfl⟩
              · split at h <;> cases h
                exact ⟨rfl, rfl, rfl⟩
        · cases h

namespace TableServer

variable {part : SchemaPart} {parameters : Option (List Value)} {c d : TableConnection}
  {result : ResultSet}

/-- Creating a part of the schema makes the tables of a fresh connection. -/
theorem executeOn_create_fresh (hc : c.Fresh)
    (h : executeOn (.create part) parameters c = .ok (result, d)) :
    d = { c with made := true } ∧ d.Ready := by
  have hlimits : (Statement.create part).exceeded? = none := rfl
  unfold executeOn at h
  rw [refusal?_within hlimits, absence?] at h
  by_cases hstorage : (c.storage == .garbage) = true
  · rw [if_pos hstorage] at h
    cases h
  · have hmade : ¬ c.made = true := by simp [hc.made]
    rw [if_neg hstorage, if_neg hmade] at h
    cases hbarrier : c.barrier with
    | some fault =>
      have hmake : makeTables c = .error fault := by
        unfold makeTables
        rw [if_neg hmade, hbarrier]
      rw [hmake] at h
      cases h
    | none =>
      have hmake : makeTables c = .ok { c with made := true } := by
        unfold makeTables
        rw [if_neg hmade, hbarrier]
      rw [hmake] at h
      cases h
      exact ⟨by rw [hbarrier], by simpa using hstorage, hbarrier, rfl⟩

/-- Creating it again changes nothing. -/
theorem executeOn_create_ready (hc : c.Ready) (part : SchemaPart)
    (parameters : Option (List Value)) : executeOn (.create part) parameters c = .ok ({}, c) := by
  have hlimits : (Statement.create part).exceeded? = none := rfl
  unfold executeOn makeTables
  rw [refusal?_ready hc, hlimits, Option.map_none, if_pos hc.made]

end TableServer

namespace MotorStore

variable {config : MotorsConfig} {c : TableConnection}

theorem createParts_leads (hc : c.Ready) (parts : List SchemaPart) :
    Leads Session.On ((onTables config).createParts parts) c (.ok ()) c := by
  induction parts with
  | nil => exact Leads.pure ()
  | cons part rest ih =>
    exact (call_execute_leads (TableServer.executeOn_create_ready hc part none)).bind ih

/-- Making the tables of a fresh connection gives tables without rows, if it goes well. -/
theorem createSchema_shows (hc : c.Fresh) {session session' : Session TableServer}
    (hon : session.On c)
    (hrun : (onTables config).createSchema.run session = (.ok (), session')) :
    session'.Shows {} {} := by
  -- the first part of the schema decides whether the tables are made
  have hfirst : ∃ outcome d, Leads Session.On (do
      (onTables config).createParts Dialect.sqlite.schema
      call (onTables config).driver.commit) c outcome d ∧
      (outcome = .ok () → d.Shows {} {}) := by
    cases hcreate : TableServer.executeOn (.create .scans) none c with
    | error fault =>
      exact ⟨.error fault, c, (call_execute_leads_error hcreate).bind_error.bind_error, nofun⟩
    | ok created =>
      obtain ⟨result, d⟩ := created
      obtain ⟨hd, hready⟩ := TableServer.executeOn_create_fresh hc hcreate
      refine ⟨.ok (), d.settled,
        ((call_execute_leads hcreate).bind (createParts_leads hready _)).bind commit_leads, ?_⟩
      have hworking : d.working = ({} : Holdings).toTables := by rw [hd]; exact hc.working
      exact fun _ => ⟨⟨hready.withTables _ _, hworking, Holdings.sound_empty⟩, hworking,
        Holdings.sound_empty⟩
  obtain ⟨outcome, d, hleads, hshows⟩ := hfirst
  have hschema : Leads Session.On (onTables config).createSchema c
      (TableConnection.reported (fun _ reason => .motorStore (.schema reason)) (outcome, d)).1
      (TableConnection.reported (fun _ reason => .motorStore (.schema reason)) (outcome, d)).2 :=
    requireConnection_leads.bind (withCursor_leads (onDriverError_leads hleads fun d reason =>
      undo_leads _))
  obtain ⟨houtcome, hon'⟩ := hschema.outcome_eq hon hrun
  cases outcome with
  | ok _ => exact ⟨d, hon', hshows rfl⟩
  | error fault =>
    cases hdriver : fault.isDriverError with
    | true =>
      obtain ⟨reason, -, hreported⟩ := TableConnection.reported_driverError (α := Unit)
        (fun _ reason => .motorStore (.schema reason)) hdriver d
      rw [hreported] at houtcome
      cases houtcome
    | false =>
      rw [TableConnection.reported_error _ hdriver] at houtcome
      cases houtcome

/-- A store that connects where there is no database holds nothing. -/
theorem connect_shows {disk : Disk} (hdisk : disk.databases = []) {session' : Session TableServer}
    (hrun : (onTables config).connect.run ⟨false, disk, none⟩ = (.ok (), session')) :
    session'.Shows {} {} := by
  rw [connect_run, if_neg Bool.false_ne_true] at hrun
  split at hrun
  · next c hopen =>
    exact createSchema_shows (Disk.openName_fresh hdisk hopen) ⟨rfl, rfl⟩ hrun
  · split at hrun <;> cases hrun
  · cases hrun

end MotorStore

end ScanCatalog
