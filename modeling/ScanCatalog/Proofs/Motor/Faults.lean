import ScanCatalog.Proofs.Motor.Sessions

/-!
# Faults of a store that is connected

A store whose tables hold something sound reports what goes wrong as its own faults, statements
beyond a limit among it. One thing passes it by: a mnemonic without a UTF-8 form cannot be bound
to a statement, and the fault of the text is given as it is, be it in motors to store or in a
query for them.

## Main statements

* `Session.Shows.insert_eq_error`, `Session.Shows.replaceMotors_eq_error`: the changes;
* `Session.Shows.byQueries_eq_error`: the questions.
-/

namespace ScanCatalog

open ScanCatalog.Action MotorStore

/-- Numbers can be bound, so parameters that cannot have a text without a UTF-8 form. -/
theorem Cell.ofParameters_eq_error_of_texts {position : Nat} {vs : List Value} {fault : Fault}
    (hvs : ∀ v ∈ vs, (∃ t, v = .text t) ∨ v.IsReal)
    (h : Cell.ofParameters position vs = .error fault) :
    fault.isEncoding = true ∧ ∃ t, Value.text t ∈ vs ∧ ¬ t.Encodable := by
  induction vs generalizing position with
  | nil => cases h
  | cons v rest ih =>
    obtain ⟨hv, hrest⟩ := List.forall_mem_cons.mp hvs
    rw [Cell.ofParameters_cons] at h
    rcases Outcome.bind_eq_error.mp h with h | ⟨cell, -, h⟩
    · rcases hv with ⟨t, rfl⟩ | ⟨x, rfl⟩
      swap
      · rw [Cell.ofParameter_binds (.float x)] at h
        cases h
      · rw [Cell.ofParameter_text] at h
        split at h
        · cases h
        · next cause hcause =>
          cases h
          refine ⟨rfl, t, List.mem_cons_self, fun hencodable => ?_⟩
          rw [(Text.encodeFault?_eq_none_iff t).mpr hencodable] at hcause
          cases hcause
    · rcases Outcome.bind_eq_error.mp h with h | ⟨cells, -, h⟩
      · obtain ⟨hencoding, t, ht, hnot⟩ := ih hrest h
        exact ⟨hencoding, t, List.mem_cons_of_mem _ ht, hnot⟩
      · cases h

namespace TableConnection

variable {c : TableConnection} {h : Holdings} {statement : Statement} {fault : Fault}

/-- A fault is reported if it is one of the driver that the store handles, and else it passes. -/
theorem reported_eq_error {α : Type} (report : TableConnection → DriverFault → Fault)
    (hreport : ∀ reason, (report c.undone reason).isReported = true) (cause : Fault) :
    ∃ fault, (reported report ((.error cause : Except Fault α), c)).1 = .error fault ∧
      (fault.isReported = true ∨ fault = cause ∧ cause.isDriverError = false) := by
  cases hdriver : cause.isDriverError with
  | true =>
    obtain ⟨reason, -, heq⟩ := reported_driverError (α := α) report hdriver c
    exact ⟨_, congrArg Prod.fst heq, .inl (hreport reason)⟩
  | false => exact ⟨cause, congrArg Prod.fst (reported_error report hdriver c), .inr ⟨rfl, rfl⟩⟩

/-- A statement on rows fails with an error of the driver, or for one of its parameters. -/
theorem Ready.executeOn_eq_error (hc : c.Ready) {parameters : List Value}
    (hrows : ∀ part, statement ≠ .create part)
    (h : TableServer.executeOn statement (some parameters) c = .error fault) :
    fault.isDriverError = true ∨ Cell.ofParameters 1 parameters = .error fault := by
  cases hlimits : statement.exceeded? with
  | some limit =>
    rw [TableServer.executeOn_exceeded hrows hlimits hc] at h
    cases h
    cases limit <;> exact .inl rfl
  | none =>
    rw [TableServer.executeOn_ready hrows hlimits hc, Option.getD_some] at h
    split at h
    · next hcells =>
      cases h
      exact .inr hcells
    · split at h
      · next hexecute =>
        cases h
        exact .inl (Tables.execute_error hexecute)
      · cases h

/-- A failed insertion is reported as a fault of the store, whether its scan is stored or not. -/
theorem Holds.insertFault_isReported (hc : c.Holds h) (sid : Binary64) (reason : DriverFault) :
    (c.insertFault (.float sid) reason).isReported = true := by
  have hbinds : ∀ v ∈ [Value.float sid], v.Binds := List.forall_mem_singleton.mpr (.float sid)
  have hselect : ∃ found d, TableServer.executeOn .selectScanId (some [.float sid]) c =
      .ok (found, d) := by
    rw [hc.ready.executeOn .selectScanId nofun rfl hbinds]
    exact ⟨_, _, rfl⟩
  obtain ⟨found, d, hselect⟩ := hselect
  unfold insertFault
  split
  · rw [hselect]
    dsimp only
    split <;> rfl
  · rfl

end TableConnection

namespace Session

variable {config : MotorsConfig} {session session' : Session TableServer} {h k : Holdings}
  {motors : Value} {checked : Entries} {fault : Fault}

/-- An insertion of checked motors fails with a fault that is reported, or for a mnemonic without
a UTF-8 form. -/
theorem Shows.insert_eq_error (hs : session.Shows h k) (hkeys : motors.DistinctKeys)
    (hm : checkMotors motors = .ok checked) (sid : Binary64)
    (hrun : ((onTables config).insert (.float sid) motors).run session = (.error fault, session')) :
    fault.isReported = true ∨ fault.isEncoding = true ∧ ¬ motors.EncodableKeys := by
  obtain ⟨c, hon, hc⟩ := hs
  obtain ⟨ps, rfl, -, -⟩ := checkMotors_eq_ok hm
  obtain ⟨houtcome, -⟩ := (insert_leads hm (.float sid) c).outcome_eq hon hrun
  rcases TableConnection.insert_holds hc.holds sid (Positions.valid_of_checkMotors hm hkeys) with
    ⟨heq, -, -⟩ | ⟨cause, left, heq, hleft, hstops, -⟩
  · rw [heq] at houtcome
    cases houtcome
  · rw [heq] at houtcome
    have hundone := (hc.withWorking hleft).undone.holds
    obtain ⟨reported, hreport, hreported | ⟨rfl, hdriver⟩⟩ :=
      TableConnection.reported_eq_error (α := Value) (TableConnection.insertFault · (.float sid))
        (fun reason => hundone.insertFault_isReported sid reason) cause
    all_goals
      rw [hreport] at houtcome
      cases houtcome
    · exact .inl hreported
    · rcases hstops with hstops | ⟨hencoding, hmnemonics⟩
      · cases hstops.symm.trans hdriver
      · exact .inr ⟨hencoding, fun hencodable =>
          hmnemonics (Positions.encodable_of_checkMotors hm hencodable)⟩

/-- A replacement by checked motors fails with a fault that is reported, or for a mnemonic without
a UTF-8 form. -/
theorem Shows.replaceMotors_eq_error (hs : session.Shows h k) (hkeys : motors.DistinctKeys)
    (hm : checkMotors motors = .ok checked) (sid : Binary64)
    (hrun : ((onTables config).replaceMotors (.float sid) motors).run session =
      (.error fault, session')) :
    fault.isReported = true ∨ fault.isEncoding = true ∧ ¬ motors.EncodableKeys := by
  obtain ⟨c, hon, hc⟩ := hs
  obtain ⟨ps, rfl, -, -⟩ := checkMotors_eq_ok hm
  obtain ⟨houtcome, -⟩ := (replaceMotors_leads hm (.float sid) c).outcome_eq hon hrun
  rcases TableConnection.replace_holds hc.holds sid (Positions.valid_of_checkMotors hm hkeys) with
    ⟨s, -, -, heq, -⟩ |
    ⟨cause, left, heq, -, hunknown | hdriver | ⟨hencoding, hmnemonics⟩, -⟩
  · rw [heq] at houtcome
    cases houtcome
  · rw [heq, hunknown] at houtcome
    cases houtcome
    exact .inl rfl
  · obtain ⟨reason, hreported⟩ := TableConnection.replaceReported_driverError (.float sid) hdriver
      { c with working := left.toTables }
    rw [heq, hreported] at houtcome
    cases houtcome
    exact .inl rfl
  · obtain ⟨cause, rfl⟩ := Fault.eq_of_isEncoding hencoding
    rw [heq] at houtcome
    cases houtcome
    exact .inr ⟨rfl, fun hencodable =>
      hmnemonics (Positions.encodable_of_checkMotors hm hencodable)⟩

/-- The parameters of compiled queries are their mnemonics and numbers, so that a parameter that
cannot be bound is a mnemonic without a UTF-8 form. -/
theorem exists_mnemonic_of_unbound {queries : List PositionQuery}
    (hcompiled : ∀ query ∈ queries, query.Compiled)
    (h : Cell.ofParameters 1 (parametersOf queries) = .error fault) :
    fault.isEncoding = true ∧
      ∃ query ∈ queries, ∃ t, query.mnemonic = .text t ∧ ¬ t.Encodable := by
  have hparameters : ∀ v ∈ parametersOf queries,
      (∃ query ∈ queries, v = query.mnemonic) ∨ v.IsReal := by
    intro v hv
    obtain ⟨query, hmem, hv⟩ := List.mem_flatMap.mp hv
    exact ((hcompiled query hmem).eq_mnemonic_or_isReal v hv).imp
      (fun heq => ⟨query, hmem, heq⟩) id
  have htexts : ∀ v ∈ parametersOf queries, (∃ t, v = .text t) ∨ v.IsReal := by
    intro v hv
    refine (hparameters v hv).imp ?_ id
    rintro ⟨query, hmem, rfl⟩
    obtain ⟨t, ht, -⟩ := (hcompiled query hmem).mnemonic
    exact ⟨t, ht⟩
  obtain ⟨hencoding, t, ht, hnot⟩ := Cell.ofParameters_eq_error_of_texts htexts h
  rcases hparameters _ ht with ⟨query, hmem, heq⟩ | ⟨x, hx⟩
  · exact ⟨hencoding, query, hmem, t, heq.symm, hnot⟩
  · cases hx

/-- Compiled queries fail with a fault that is reported, or for a mnemonic without a UTF-8
form. -/
theorem Shows.byQueries_eq_error (hs : session.Shows h k) {queries : List PositionQuery}
    (hcompiled : ∀ query ∈ queries, query.Compiled)
    (hrun : ((onTables config).byQueries queries).run session = (.error fault, session')) :
    fault.isReported = true ∨ fault.isEncoding = true ∧
      ∃ query ∈ queries, ∃ t, query.mnemonic = .text t ∧ ¬ t.Encodable := by
  obtain ⟨c, hon, hc⟩ := hs
  have hrows : ∀ part, Statement.ofQueries queries ≠ .create part := nofun
  obtain ⟨houtcome, -⟩ := (fetch_leads (.ofQueries queries) (parametersOf queries) c).outcome_eq
    hon hrun
  cases hexecute : TableServer.executeOn (.ofQueries queries) (some (parametersOf queries)) c with
  | ok selected =>
    -- rows that are selected can be grouped, so there is no fault after them
    obtain ⟨selected, d⟩ := selected
    obtain ⟨-, -, cells, tables, -, hselect, -⟩ := TableServer.executeOn_ok hexecute hrows
    have hfetch : c.fetch (.ofQueries queries) (parametersOf queries) =
        (.ok selected, d.settled) := by
      rw [TableConnection.fetch, hexecute]
    rw [hc.holds.working] at hselect
    rw [hfetch] at houtcome
    cases hselect
    cases houtcome.trans (hc.holds.sound.groupRows_select _)
  | error cause =>
    have hfetch : c.fetch (.ofQueries queries) (parametersOf queries) = (.error cause, c) := by
      rw [TableConnection.fetch, hexecute]
    rw [hfetch] at houtcome
    obtain ⟨reported, hreport, hreported | ⟨rfl, hdriver⟩⟩ :=
      TableConnection.reported_eq_error (α := ResultSet) (c := c)
        (fun _ reason => .motorStore (.query reason)) (fun _ => rfl) cause
    all_goals
      rw [hreport] at houtcome
      cases houtcome
    · exact .inl hreported
    · rcases hc.holds.ready.executeOn_eq_error hrows hexecute with hcause | hcells
      · cases hcause.symm.trans hdriver
      · exact .inr (exists_mnemonic_of_unbound hcompiled hcells)

end Session

end ScanCatalog
