import Mathlib.Control.Monad.Basic
import ScanCatalog.Proofs.Motor.Checked
import ScanCatalog.Proofs.Motor.Parameters
import ScanCatalog.Proofs.Motor.Reachable

/-!
# Changes that fail

What a failed change of the motor store leaves in the tables. A fault that the store
reports as its own comes after a rollback, so the rows are those that last. Another one
leaves the rows as they are, unless a mnemonic without a UTF-8 form stops the change
after it has put in or taken out a row.

## Main definitions

* `Session.rows`, `Session.lastingRows`: the rows now, and those that last;
* `Fault.isUndone`: the faults after a rollback;
* `Session.accepts`, `Session.changesMotors`: whether a change has touched a row by then.

## Main statements

* `MotorStore.failed_rows`: when a failed change leaves the rows as they were.
-/

namespace ScanCatalog

open ScanCatalog.Action

/-- The rows of the three tables, whatever numbers come next. -/
structure Rows where
  scans : List ScanRow
  mnemonics : List MnemonicRow
  positions : List PositionRow
deriving DecidableEq, Repr

/-- The rows of tables. -/
def Tables.rows (t : Tables) : Rows := ⟨t.scans, t.mnemonics, t.positions⟩

/-- The rows that the operations of a session see, and that its next commit makes last. -/
def Session.rows (session : Session TableServer) : Option Rows :=
  session.server.connection.map fun c => c.working.rows

/-- The rows that last if the session ends without a commit. -/
def Session.lastingRows (session : Session TableServer) : Option Rows :=
  session.server.connection.map fun c => c.committed.rows

namespace Fault

/-- Whether a fault of a change is reported after a rollback. -/
def isUndone : Fault → Bool
  | .duplicateScan .. => true
  | .motorStore (.insert ..) | .motorStore (.replace ..) | .motorStore (.unknownScan _) => true
  | _ => false

end Fault

/-- Whether a value is no text without a UTF-8 form. -/
def Value.isEncodable : Value → Bool
  | .text t => t.encodeFault?.isNone
  | _ => true

namespace TableConnection

/-- Whether a scan of a sid can be put in. -/
def accepts (c : TableConnection) (sid : Value) : Bool :=
  (TableServer.executeOn .insertScan (some [sid]) c).isOk

/-- Whether a replacement takes out or puts in a row of a motor: the scan has one, or the
first mnemonic has a UTF-8 form. -/
def changesMotors (c : TableConnection) (sid motors : Value) : Bool :=
  match c.scanIdOf sid with
  | .ok (.int scanId) =>
    !(c.working.mnemonicsOf scanId.toNat).isEmpty ||
      (motors.entries?.getD []).head?.any fun motor => motor.1.isEncodable
  | _ => false

end TableConnection

/-- Whether a session accepts a scan of a sid. -/
def Session.accepts (session : Session TableServer) (sid : Value) : Bool :=
  session.server.connection.any fun c => c.accepts sid

/-- Whether a replacement takes out or puts in a row of a motor. -/
def Session.changesMotors (session : Session TableServer) (sid motors : Value) : Bool :=
  session.server.connection.any fun c => c.changesMotors sid motors

namespace TableServer

variable {statement : Statement} {parameters : Option (List Value)} {c c' : TableConnection}
  {result : ResultSet} {fault : Fault}

theorem absence?_eq_some (h : absence? c statement = some fault) : fault.isRefusal = true := by
  unfold absence? at h
  split at h
  · cases h; rfl
  · split at h
    · cases h
    · obtain ⟨table, -, rfl⟩ := Option.map_eq_some_iff.mp h
      rfl

theorem refusal?_eq_some (h : refusal? c statement = some fault) : fault.isRefusal = true := by
  have hlimit : ∀ limit, (Disk.limitFault limit).isRefusal = true := by
    intro limit
    cases limit <;> rfl
  rw [refusal?, Option.or_eq_some_iff, Option.or_eq_some_iff] at h
  rcases h with hread | ⟨-, habsent | ⟨-, hjoined⟩⟩
  · obtain ⟨limit, -, rfl⟩ := Option.map_eq_some_iff.mp hread
    exact hlimit limit
  · exact absence?_eq_some habsent
  · obtain ⟨limit, -, rfl⟩ := Option.map_eq_some_iff.mp hjoined
    exact hlimit limit

/-- A statement on rows that fails does so with a driver error, unless its parameters
cannot be bound. A constraint is broken only by one that can be begun. -/
theorem executeOn_error (hc : c.Bounded) (h : executeOn statement parameters c = .error fault)
    (hrows : ∀ part, statement ≠ .create part) :
    fault.isRefusal = true ∨ Cell.ofParameters 1 (parameters.getD []) = .error fault ∨
      fault.isDriverError = true ∧ refusal? c statement = none ∧
        ∃ cells, Cell.ofParameters 1 (parameters.getD []) = .ok cells := by
  rw [executeOn_eq hrows] at h
  split at h
  · next hsome =>
    cases h
    exact .inl (refusal?_eq_some hsome)
  · next hrefusal =>
    rw [executeRows_eq] at h
    split at h
    · next hcells =>
      cases h
      exact .inr (.inl hcells)
    · next cells hcells =>
      split at h
      · next hbarrier =>
        cases h
        split at hbarrier
        · obtain ⟨words, rfl⟩ := hc.barrier _ hbarrier
          exact .inl rfl
        · cases hbarrier
      · split at h
        · next hexecute =>
          cases h
          exact .inr (.inr ⟨Tables.execute_error hexecute, hrefusal, cells, hcells⟩)
        · cases h

/-- A statement that can be begun and bind its parameters fails with a driver error. -/
theorem executeOn_error_of_bound {cells : List Cell} (hc : c.Bounded)
    (h : executeOn statement parameters c = .error fault)
    (hrows : ∀ part, statement ≠ .create part)
    (hcells : Cell.ofParameters 1 (parameters.getD []) = .ok cells) : fault.isDriverError = true := by
  rcases executeOn_error hc h hrows with h | h | h
  · exact Fault.isDriverError_of_isRefusal h
  · rw [hcells] at h; cases h
  · exact h.1

/-- A mnemonic that cannot be bound stops a motor, besides errors of the driver. -/
theorem executeOn_insertMnemonic_error {scanId : Int} {t : Text} (hc : c.Bounded)
    (hscan : Cell.holdsInt scanId = true)
    (h : executeOn .insertMnemonic (some [.int scanId, .text t]) c = .error fault) :
    fault.isDriverError = true ∨ fault.isEncoding = true ∧ (Value.text t).isEncodable = false := by
  have hcells : Cell.ofParameters 1 [.int scanId, .text t] = (do
      let cell ← Cell.ofParameter 2 (.text t)
      return [.int scanId, cell]) := by
    rw [Cell.ofParameters_cons, Cell.ofParameter_int hscan, Outcome.ok_bind,
      Cell.ofParameters_cons]
    cases Cell.ofParameter 2 (.text t) <;> rfl
  rw [Cell.ofParameter_text] at hcells
  cases hfault : t.encodeFault? with
  | none =>
    rw [hfault] at hcells
    exact .inl (executeOn_error_of_bound hc h nofun hcells)
  | some cause =>
    rw [hfault] at hcells
    rcases executeOn_error hc h nofun with h | h | h
    · exact .inl (Fault.isDriverError_of_isRefusal h)
    · rw [Option.getD_some, hcells] at h
      cases h
      exact .inr ⟨rfl, by rw [Value.isEncodable, hfault]; rfl⟩
    · exact .inl h.1

/-- A motor that was put in has a mnemonic that can be bound. -/
theorem executeOn_insertMnemonic_ok {scanId : Int} {t : Text}
    (hscan : Cell.holdsInt scanId = true)
    (h : executeOn .insertMnemonic (some [.int scanId, .text t]) c = .ok (result, c')) :
    (Value.text t).isEncodable = true ∧ c.working.lastMotor < Tables.lastNumber ∧
      result.lastId = .int (c.working.lastMotor + 1) ∧
      c' = { c with working := { c.working with
        mnemonics := c.working.mnemonics ++ [⟨c.working.lastMotor + 1, .int scanId, .text t⟩]
        lastMotor := c.working.lastMotor + 1 } } := by
  obtain ⟨-, -, cells, tables, hcells, hexecute, rfl⟩ := executeOn_ok h nofun
  rw [Option.getD_some, Cell.ofParameters_cons, Cell.ofParameter_int hscan, Outcome.ok_bind,
    Cell.ofParameters_cons, Cell.ofParameter_text] at hcells
  cases hfault : t.encodeFault? with
  | some cause => rw [hfault] at hcells; cases hcells
  | none =>
    rw [hfault] at hcells
    cases hcells
    obtain ⟨hlast, rfl, rfl⟩ := Tables.insertMnemonic_eq_ok hexecute
    exact ⟨by rw [Value.isEncodable, hfault]; rfl, hlast, rfl, rfl⟩

theorem executeOn_insertPosition_error {motorId : Int} {x : Binary64} (hc : c.Bounded)
    (hmotor : Cell.holdsInt motorId = true)
    (h : executeOn .insertPosition (some [.int motorId, .float x]) c = .error fault) :
    fault.isDriverError = true := by
  obtain ⟨cell, hcell⟩ := Cell.ofParameter_float 2 x
  have hcells : Cell.ofParameters 1 [.int motorId, .float x] = .ok [.int motorId, cell] := by
    rw [Cell.ofParameters_cons, Cell.ofParameter_int hmotor, Outcome.ok_bind,
      Cell.ofParameters_cons, hcell]
    rfl
  exact executeOn_error_of_bound hc h nofun hcells

theorem executeOn_insertPosition_ok {ps : Option (List Value)}
    (h : executeOn .insertPosition ps c = .ok (result, c')) :
    ∃ positions, c' = { c with working := { c.working with positions } } := by
  obtain ⟨-, -, cells, tables, -, hexecute, rfl⟩ := executeOn_ok h nofun
  rcases cells with _ | ⟨motorId, _ | ⟨position, _ | _⟩⟩
  · cases hexecute; exact ⟨_, rfl⟩
  · cases hexecute; exact ⟨_, rfl⟩
  · cases Tables.insertPosition_eq_ok hexecute; exact ⟨_, rfl⟩
  · cases hexecute; exact ⟨_, rfl⟩

end TableServer

/-! ### Motors put in one after the other -/

/-- Tables with further motors: no other rows of scans and mnemonics go or come, and those
that come have numbers that were not given out. -/
structure Tables.Grows (t t' : Tables) (added : List MnemonicRow) : Prop where
  scans : t'.scans = t.scans
  mnemonics : t'.mnemonics = t.mnemonics ++ added
  numbers : ∀ m ∈ added, t.lastMotor < m.motorId
  lastMotor : t.lastMotor ≤ t'.lastMotor

theorem Tables.Grows.refl (t : Tables) : t.Grows t [] :=
  ⟨rfl, (List.append_nil _).symm, by simp, Nat.le_refl _⟩

theorem Tables.Grows.trans {t₁ t₂ t₃ : Tables} {as bs : List MnemonicRow} (h : t₁.Grows t₂ as)
    (h' : t₂.Grows t₃ bs) : t₁.Grows t₃ (as ++ bs) where
  scans := h'.scans.trans h.scans
  mnemonics := by rw [h'.mnemonics, h.mnemonics, List.append_assoc]
  numbers := by
    intro m hm
    rcases List.mem_append.mp hm with hm | hm
    · exact h.numbers m hm
    · exact Nat.lt_of_le_of_lt h.lastMotor (h'.numbers m hm)
  lastMotor := Nat.le_trans h.lastMotor h'.lastMotor

namespace TableConnection

variable {c : TableConnection} {fault : Fault}

/-- Motors put in let the tables grow. They stop with a driver error, or at a mnemonic
without a UTF-8 form, which is the first one just if nothing was put in. -/
theorem putMotors_grows {scanId : Int} (hscan : Cell.holdsInt scanId = true) (ps : Positions)
    (hc : c.Bounded) :
    ∃ t added, (c.putMotors (.int scanId) ps.toEntries).2 = { c with working := t } ∧
      c.working.Grows t added ∧
      ∀ fault, (c.putMotors (.int scanId) ps.toEntries).1 = .error fault →
        fault.isDriverError = true ∨
          fault.isEncoding = true ∧
            ((∃ p ∈ ps.head?, (Value.text p.1).isEncodable = true) ∧ added ≠ [] ∨
              (∃ p ∈ ps.head?, (Value.text p.1).isEncodable = false) ∧ t = c.working) := by
  induction ps generalizing c with
  | nil => exact ⟨c.working, [], rfl, .refl _, by rintro _ ⟨⟩⟩
  | cons p rest ih =>
    obtain ⟨mnemonic, position⟩ := p
    rw [Positions.toEntries_cons]
    unfold putMotors
    cases hm : TableServer.executeOn .insertMnemonic (some [.int scanId, .text mnemonic]) c with
    | error fault =>
      refine ⟨c.working, [], rfl, .refl _, ?_⟩
      rintro _ ⟨⟩
      refine (TableServer.executeOn_insertMnemonic_error hc hscan hm).imp id fun h => ?_
      exact ⟨h.1, .inr ⟨⟨_, rfl, h.2⟩, rfl⟩⟩
    | ok inserted =>
      obtain ⟨motor, c₁⟩ := inserted
      have hc₁ : c₁.Bounded := TableServer.executeOn_bounded hc hm
      obtain ⟨hencodable, hlast, hid, rfl⟩ := TableServer.executeOn_insertMnemonic_ok hscan hm
      have hmotor : Cell.holdsInt ((c.working.lastMotor + 1 : Nat) : Int) = true :=
        Cell.holdsInt_of_le hlast
      have hgrows : c.working.Grows { c.working with
          mnemonics := c.working.mnemonics ++
            [⟨c.working.lastMotor + 1, .int scanId, .text mnemonic⟩]
          lastMotor := c.working.lastMotor + 1 }
          [⟨c.working.lastMotor + 1, .int scanId, .text mnemonic⟩] :=
        ⟨rfl, rfl, by simp, Nat.le_succ _⟩
      dsimp only
      rw [hid]
      cases hp : TableServer.executeOn .insertPosition
          (some [.int (c.working.lastMotor + 1), .float position])
          { c with working := { c.working with
            mnemonics := c.working.mnemonics ++
              [⟨c.working.lastMotor + 1, .int scanId, .text mnemonic⟩]
            lastMotor := c.working.lastMotor + 1 } } with
      | error fault =>
        refine ⟨_, _, rfl, hgrows, ?_⟩
        rintro _ ⟨⟩
        exact .inl (TableServer.executeOn_insertPosition_error hc₁ hmotor hp)
      | ok inserted =>
        obtain ⟨_, c₂⟩ := inserted
        have hc₂ : c₂.Bounded := TableServer.executeOn_bounded hc₁ hp
        obtain ⟨positions, rfl⟩ := TableServer.executeOn_insertPosition_ok hp
        obtain ⟨t, added, heq, hrest, hfault⟩ := ih hc₂
        refine ⟨t, _, heq, hgrows.trans ⟨hrest.scans, hrest.mnemonics, hrest.numbers,
          hrest.lastMotor⟩, ?_⟩
        intro fault h
        refine (hfault fault h).imp id fun h => ⟨h.1, .inl ⟨⟨_, rfl, hencodable⟩, by simp⟩⟩

/-- A scan that was put in has a new number. -/
theorem accepts_eq_true {sid : Value} (h : c.accepts sid = true) :
    ∃ scan row, TableServer.executeOn .insertScan (some [sid]) c =
        .ok (scan, { c with working := { c.working with
          scans := c.working.scans ++ [row], lastScan := c.working.lastScan + 1 } }) ∧
      scan.lastId = .int ((c.working.lastScan + 1 : Nat) : Int) ∧
      c.working.lastScan < Tables.lastNumber := by
  unfold accepts at h
  cases hscan : TableServer.executeOn .insertScan (some [sid]) c with
  | error fault => rw [hscan] at h; cases h
  | ok inserted =>
    obtain ⟨scan, d⟩ := inserted
    obtain ⟨-, -, cells, tables, hcells, hexecute, rfl⟩ := TableServer.executeOn_ok hscan nofun
    rw [Option.getD_some, Cell.ofParameters_cons] at hcells
    obtain ⟨cell, -, hcells⟩ := Outcome.bind_eq_ok.mp hcells
    cases hcells
    obtain ⟨hlast, -, -, rfl, rfl⟩ := Tables.insertScan_eq_ok hexecute
    exact ⟨_, _, rfl, rfl, hlast⟩

/-- An insertion that fails has put in the scan and let the tables grow, or has done
nothing. -/
theorem insert_failed {sid : Value} {ps : Positions} {d : TableConnection} (hc : c.Bounded)
    (h : c.insert sid ps.toEntries = (.error fault, d)) :
    c.accepts sid = false ∧ d = c ∧
        (fault.isDriverError = true ∨ ∃ cause, fault = .value cause) ∨
      c.accepts sid = true ∧ (∃ t, d = { c with working := t } ∧ t.scans ≠ c.working.scans) ∧
        (fault.isDriverError = true ∨ fault.isEncoding = true) := by
  unfold TableConnection.insert at h
  cases haccepts : c.accepts sid with
  | false =>
    cases hscan : TableServer.executeOn .insertScan (some [sid]) c with
    | ok inserted => rw [accepts, hscan] at haccepts; cases haccepts
    | error cause =>
      rw [hscan] at h
      cases h
      refine .inl ⟨rfl, rfl, ?_⟩
      rcases TableServer.executeOn_error hc hscan nofun with h | h | h
      · exact .inl (Fault.isDriverError_of_isRefusal h)
      · exact (Cell.ofParameters_eq_error h).imp Fault.isDriverError_of_isRefusal id
      · exact .inl h.1
  | true =>
    obtain ⟨scan, row, hscan, hid, hlast⟩ := accepts_eq_true haccepts
    have hc₁ := TableServer.executeOn_bounded hc hscan
    obtain ⟨t, added, hput, hgrows, hfault⟩ :=
      putMotors_grows (Cell.holdsInt_of_le hlast) ps hc₁
    rw [hscan] at h
    dsimp only at h
    rw [hid] at h
    split at h
    · next hmotors =>
      rw [hmotors] at hput hfault
      cases h
      refine .inr ⟨rfl, ⟨t, hput, ?_⟩, (hfault fault rfl).imp id fun h => h.1⟩
      rw [hgrows.scans]
      simp
    · cases h

/-- What an undone insertion reports is a fault of the store. -/
theorem insertFault_isUndone {sid : Value} {ps : Positions} {reason : DriverFault}
    {d : TableConnection} (hc : c.Bounded)
    (h : c.insert sid ps.toEntries = (.error (.driver reason), d)) :
    (d.undone.insertFault sid reason).isUndone = true := by
  unfold insertFault
  split
  · next hreason =>
    -- The constraint was broken after the sid was bound, so it can be looked up now.
    have hbegun : TableServer.refusal? c .insertScan = none ∧
        ∃ cells, Cell.ofParameters 1 [sid] = .ok cells := by
      cases hscan : TableServer.executeOn .insertScan (some [sid]) c with
      | ok inserted =>
        obtain ⟨hrefusal, -, cells, -, hcells, -⟩ := TableServer.executeOn_ok hscan nofun
        exact ⟨hrefusal, cells, hcells⟩
      | error cause =>
        unfold TableConnection.insert at h
        rw [hscan] at h
        cases h
        rcases TableServer.executeOn_error hc hscan nofun with h | h | h
        · simp [Fault.isRefusal, hreason] at h
        · rcases Cell.ofParameters_eq_error h with h | ⟨_, ⟨⟩⟩
          simp [Fault.isRefusal, hreason] at h
        · exact h.2
    obtain ⟨hrefusal, cells, hcells⟩ := hbegun
    obtain ⟨t, rfl⟩ : ∃ t, d = { c with working := t } := by
      rcases insert_failed hc h with ⟨-, rfl, -⟩ | ⟨-, ⟨t, rfl, -⟩, -⟩
      · exact ⟨d.working, rfl⟩
      · exact ⟨t, rfl⟩
    have hselect : ∃ found, TableServer.executeOn .selectScanId (some [sid])
        { c with working := t }.undone = .ok found := by
      have hrows : ∀ part, Statement.selectScanId ≠ .create part := nofun
      have hbegun : TableServer.refusal? { c with working := t }.undone .selectScanId = none :=
        hrefusal
      rw [TableServer.executeOn_begun hrows hbegun, Option.getD_some, TableServer.executeRows_eq,
        hcells]
      rcases cells with _ | ⟨cell, _ | _⟩ <;> exact ⟨_, rfl⟩
    obtain ⟨⟨found, e⟩, hselect⟩ := hselect
    rw [hselect]
    dsimp only
    split <;> rfl
  · rfl

/-- The number that is found for a sid is that of a scan. -/
theorem scanIdOf_eq_ok {sid scanId : Value} (h : c.scanIdOf sid = .ok scanId) :
    ∃ s ∈ c.working.scans, scanId = .int s.scanId := by
  unfold scanIdOf at h
  split at h
  · cases h
  · next found d hselect =>
    obtain ⟨-, -, cells, tables, hcells, hexecute, rfl⟩ := TableServer.executeOn_ok hselect nofun
    rw [Option.getD_some, Cell.ofParameters_cons] at hcells
    obtain ⟨cell, -, hcells⟩ := Outcome.bind_eq_ok.mp hcells
    cases hcells
    cases hexecute
    dsimp only at h
    split at h
    · cases h
    · next row rest hrows =>
      obtain ⟨s, after, hfound, rfl, -⟩ := List.map_eq_cons_iff.mp hrows
      have hs : s ∈ c.working.scans.filter fun s => s.sid.same cell.asNumeric := by
        rw [hfound]
        exact List.mem_cons_self
      cases h
      exact ⟨s, (List.mem_filter.mp hs).1, rfl⟩

/-- A scan that is not found is a fault of the store, of the driver or of the sid. -/
theorem scanIdOf_eq_error {sid : Value} (hc : c.Bounded) (h : c.scanIdOf sid = .error fault) :
    fault.isDriverError = true ∨ (∃ cause, fault = .value cause) ∨
      fault = .motorStore (.unknownScan sid) := by
  unfold scanIdOf at h
  split at h
  · next hselect =>
    cases h
    rcases TableServer.executeOn_error hc hselect nofun with h | h | h
    · exact .inl (Fault.isDriverError_of_isRefusal h)
    · exact (Cell.ofParameters_eq_error h).imp Fault.isDriverError_of_isRefusal .inl
    · exact .inl h.1
  · split at h
    · cases h
      exact .inr (.inr rfl)
    · next row rest _ =>
      cases row with
      | nil => cases h; exact .inr (.inl ⟨_, rfl⟩)
      | cons v row => cases h

/-- Taking out rows of a scan fails with a driver error only. -/
theorem executeOn_delete (statement : Statement) {scanId : Int} {change : Tables → Tables}
    (hexecute : ∀ t : Tables, t.execute statement [.int scanId] = .ok (change t, {}))
    (hrows : ∀ part, statement ≠ .create part) (hc : c.Bounded)
    (hscan : Cell.holdsInt scanId = true) :
    (∃ fault, TableServer.executeOn statement (some [.int scanId]) c = .error fault ∧
      fault.isDriverError = true) ∨
      TableServer.executeOn statement (some [.int scanId]) c =
        .ok ({}, { c with working := change c.working }) := by
  have hcells : Cell.ofParameters 1 [.int scanId] = .ok [.int scanId] := by
    rw [Cell.ofParameters_cons, Cell.ofParameter_int hscan]
    rfl
  cases h : TableServer.executeOn statement (some [.int scanId]) c with
  | error fault => exact .inl ⟨fault, rfl, TableServer.executeOn_error_of_bound hc h hrows hcells⟩
  | ok found =>
    obtain ⟨result, d⟩ := found
    obtain ⟨-, -, cells, tables, hcells', hexecute', rfl⟩ := TableServer.executeOn_ok h hrows
    rw [Option.getD_some, hcells] at hcells'
    cases hcells'
    rw [hexecute] at hexecute'
    cases hexecute'
    exact .inr rfl

theorem filter_not_of_mnemonicsOf_eq_nil {t : Tables} {scanId : Nat}
    (h : t.mnemonicsOf scanId = []) :
    (t.mnemonics.filter fun m => !m.scanId.same (.int scanId)) = t.mnemonics := by
  refine List.filter_eq_self.mpr fun m hm => ?_
  have hsame := List.filter_eq_nil_iff.mp h m hm
  simpa using hsame

/-- Taking out the motors of a scan without motors leaves all rows. -/
theorem rows_of_mnemonicsOf_eq_nil {t : Tables} {scanId : Nat} (h : t.mnemonicsOf scanId = []) :
    ((t.deletePositions (.int scanId)).deleteMnemonics (.int scanId)).rows = t.rows := by
  have hpositions : (t.deletePositions (.int scanId)).positions = t.positions := by
    refine List.filter_eq_self.mpr fun p _ => ?_
    rw [Bool.not_eq_true', List.any_eq_false]
    intro m hm
    have hsame := List.filter_eq_nil_iff.mp h m hm
    simp [hsame]
  have hmnemonics : ((t.deletePositions (.int scanId)).deleteMnemonics (.int scanId)).mnemonics =
      t.mnemonics := filter_not_of_mnemonicsOf_eq_nil h
  change Rows.mk t.scans _ (t.deletePositions (.int scanId)).positions = _
  rw [hmnemonics, hpositions]
  rfl

/-- Motors in the place of those of a scan change the rows, unless the scan has none and none
is put in: those that are put in have numbers that no motor has. -/
theorem eq_nil_of_grows {t t' : Tables} {scanId : Nat} {added : List MnemonicRow}
    (hnumbers : ∀ m ∈ t.mnemonics, m.motorId ≤ t.lastMotor)
    (hgrows : ((t.deletePositions (.int scanId)).deleteMnemonics (.int scanId)).Grows t' added)
    (hrows : t'.rows = t.rows) : t.mnemonicsOf scanId = [] ∧ added = [] := by
  have hmnemonics : t'.mnemonics =
      (t.mnemonics.filter fun m => !m.scanId.same (.int scanId)) ++ added := hgrows.mnemonics
  have heq : t.mnemonics = (t.mnemonics.filter fun m => !m.scanId.same (.int scanId)) ++ added := by
    rw [← hmnemonics]
    exact (congrArg Rows.mnemonics hrows).symm
  have hnone : t.mnemonicsOf scanId = [] := by
    refine List.filter_eq_nil_iff.mpr fun m hm hsame => ?_
    have hm' := hm
    rw [heq] at hm'
    rcases List.mem_append.mp hm' with hm' | hm'
    · simp [hsame] at hm'
    · exact absurd (hnumbers m hm) (Nat.not_le.mpr (hgrows.numbers m hm'))
  rw [filter_not_of_mnemonicsOf_eq_nil hnone] at heq
  exact ⟨hnone, List.self_eq_append_right.mp heq⟩

/-- A replacement that fails after it found the scan leaves the rows as they are just if
the scan has no motors and none was put in. -/
theorem swapMotors_failed {s : ScanRow} {ps : Positions} {d : TableConnection} (hc : c.Bounded)
    (hs : s ∈ c.working.scans) (h : c.swapMotors (.int s.scanId) ps.toEntries = (.error fault, d)) :
    (∃ t, d = { c with working := t }) ∧
      (fault.isDriverError = true ∨ fault.isEncoding = true ∧
        (d.working.rows = c.working.rows ↔
          c.working.mnemonicsOf s.scanId = [] ∧
            ∀ p ∈ ps.head?, (Value.text p.1).isEncodable = false)) := by
  have hscan : Cell.holdsInt s.scanId = true :=
    Cell.holdsInt_of_le (Nat.le_trans (hc.working.scans s hs) hc.working.lastScan)
  unfold swapMotors at h
  rcases executeOn_delete .deletePositions (fun _ => rfl) nofun hc hscan with
    ⟨cause, h₁, hcause⟩ | h₁
  · rw [h₁] at h
    cases h
    exact ⟨⟨_, rfl⟩, .inl hcause⟩
  have hc₁ := TableServer.executeOn_bounded hc h₁
  rcases executeOn_delete .deleteMnemonics (fun _ => rfl) nofun hc₁ hscan with
    ⟨cause, h₂, hcause⟩ | h₂
  · rw [h₁] at h
    dsimp only at h
    rw [h₂] at h
    cases h
    exact ⟨⟨_, rfl⟩, .inl hcause⟩
  have hc₂ := TableServer.executeOn_bounded hc₁ h₂
  obtain ⟨t, added, hput, hgrows, hfault⟩ := putMotors_grows hscan ps hc₂
  rw [h₁] at h
  dsimp only at h
  rw [h₂] at h
  dsimp only at h
  rcases hmotors : putMotors (.int s.scanId) _ ps.toEntries with ⟨cause | _, e⟩ <;>
    rw [hmotors] at h <;> cases h
  rw [hmotors] at hput hfault
  cases hput
  refine ⟨⟨t, rfl⟩, (hfault fault rfl).imp id fun h => ⟨h.1, ?_⟩⟩
  constructor
  · intro hrows
    obtain ⟨hnone, hadded⟩ := eq_nil_of_grows hc.working.motors hgrows hrows
    refine ⟨hnone, ?_⟩
    rcases h.2 with ⟨-, hsome⟩ | ⟨⟨p, hp, hencodable⟩, -⟩
    · exact absurd hadded hsome
    · intro q hq
      cases hp.symm.trans hq
      exact hencodable
  · rintro ⟨hnone, hfirst⟩
    rcases h.2 with ⟨⟨p, hp, hencodable⟩, -⟩ | ⟨-, ht⟩
    · rw [hfirst p hp] at hencodable
      cases hencodable
    · dsimp only
      rw [ht]
      exact rows_of_mnemonicsOf_eq_nil hnone

/-- A replacement that does not find the scan leaves the rows, or those that last. -/
theorem replaceReported_unknown {sid : Value} {cause : Fault} {d : TableConnection}
    (hc : c.Bounded) (hscan : c.scanIdOf sid = .error cause)
    (h : replaceReported sid (.error cause, c) = (.error fault, d)) :
    d.working.rows = c.working.rows ↔
      (fault.isUndone = true → c.committed.rows = c.working.rows) := by
  rcases scanIdOf_eq_error hc hscan with hdriver | ⟨cause, rfl⟩ | rfl
  · obtain ⟨reason, hreported⟩ := replaceReported_driverError sid hdriver c
    rw [hreported] at h
    cases h
    simp [Fault.isUndone, undone]
  · cases h
    simp [Fault.isUndone]
  · cases h
    simp [Fault.isUndone, undone]

/-- A replacement that fails after it found the scan leaves the rows that last, or a mnemonic
stopped it. -/
theorem replaceReported_found {sid : Value} {s : ScanRow} {ps : Positions} {d : TableConnection}
    (hc : c.Bounded) (hs : s ∈ c.working.scans)
    (h : replaceReported sid (c.swapMotors (.int s.scanId) ps.toEntries) = (.error fault, d)) :
    d.working.rows = c.working.rows ↔
      (fault.isUndone = true → c.committed.rows = c.working.rows) ∧
        (fault.isEncoding = true → c.working.mnemonicsOf s.scanId = [] ∧
          ∀ p ∈ ps.head?, (Value.text p.1).isEncodable = false) := by
  rcases hswap : c.swapMotors (.int s.scanId) ps.toEntries with ⟨cause | _, e⟩
  · rw [hswap] at h
    obtain ⟨⟨t, rfl⟩, hfault⟩ := swapMotors_failed hc hs hswap
    rcases hfault with hdriver | ⟨hencoding, hrows⟩
    · obtain ⟨reason, hreported⟩ := replaceReported_driverError sid hdriver { c with working := t }
      rw [hreported] at h
      cases h
      simp [Fault.isUndone, Fault.isEncoding, undone]
    · obtain ⟨cause, rfl⟩ := Fault.eq_of_isEncoding hencoding
      cases h
      rw [hrows]
      simp [Fault.isUndone, Fault.isEncoding]
  · rw [hswap] at h
    cases h

end TableConnection

/-! ### Sessions -/

namespace Session

variable {session : Session TableServer} {c : TableConnection}

theorem On.rows (h : session.On c) : session.rows = some c.working.rows := by
  rw [Session.rows, h.2, Option.map_some]

theorem On.lastingRows (h : session.On c) : session.lastingRows = some c.committed.rows := by
  rw [Session.lastingRows, h.2, Option.map_some]

theorem On.accepts (h : session.On c) (sid : Value) : session.accepts sid = c.accepts sid := by
  rw [Session.accepts, h.2, Option.any_some]

theorem On.changesMotors (h : session.On c) (sid motors : Value) :
    session.changesMotors sid motors = c.changesMotors sid motors := by
  rw [Session.changesMotors, h.2, Option.any_some]

end Session

namespace MotorStore

variable {config : MotorsConfig} {session session' : Session TableServer} {fault : Fault}

/-- A fault of the check of motors comes before a rollback, and is not that of a text. -/
theorem checkMotors_fault {motors : Value} (h : checkMotors motors = .error fault) :
    fault.isUndone = false ∧ fault.isEncoding = false := by
  rcases checkMotors_eq_error h with ⟨_, rfl⟩ | ⟨_, _, rfl⟩ | rfl | ⟨_, rfl⟩ <;> exact ⟨rfl, rfl⟩

theorem isEncoding_of_isUndone (h : fault.isUndone = true) : fault.isEncoding = false := by
  cases fault with
  | value cause => cases h
  | _ => rfl

/-- A failed insertion leaves the rows as they were just if nothing was pending when it
rolled back, and no mnemonic stopped it after the scan was put in. -/
theorem insert_failed_rows (hs : session.Bounded) {sid motors : Value}
    (h : ((onTables config).insert sid motors).run session = (.error fault, session')) :
    session'.rows = session.rows ↔
      (fault.isUndone = true → session.lastingRows = session.rows) ∧
        ¬ (fault.isEncoding = true ∧ session.accepts sid = true) := by
  cases hm : checkMotors motors with
  | error cause =>
    rw [insert_refused hm] at h
    cases h
    simp [checkMotors_fault hm]
  | ok entries =>
    obtain ⟨ps, rfl, -, -⟩ := checkMotors_eq_ok hm
    by_cases hconnected : session.connected = true
    · obtain ⟨c, hc⟩ := Option.isSome_iff_exists.mp (hs.connected hconnected)
      have hon : session.On c := ⟨hconnected, hc⟩
      have hbounded := hs.connection c hc
      obtain ⟨houtcome, hon'⟩ := (insert_leads hm sid c).outcome_eq hon h
      rw [hon.rows, hon.lastingRows, hon.accepts, hon'.rows]
      rcases hinsert : c.insert sid ps.toEntries with ⟨cause | scanId, d⟩
      · rw [hinsert] at houtcome
        cases hdriver : cause.isDriverError with
        | true =>
          obtain ⟨reason, rfl, hreported⟩ := TableConnection.reported_driverError (α := Value)
            (TableConnection.insertFault · sid) hdriver d
          rw [hreported] at houtcome ⊢
          cases houtcome
          have hundone := TableConnection.insertFault_isUndone hbounded hinsert
          have hd : d.undone.working = c.committed := by
            rcases TableConnection.insert_failed hbounded hinsert with
              ⟨-, rfl, -⟩ | ⟨-, ⟨t, rfl, -⟩, -⟩ <;> rfl
          simp [hd, hundone, isEncoding_of_isUndone hundone]
        | false =>
          rw [TableConnection.reported_error _ hdriver] at houtcome ⊢
          cases houtcome
          rcases TableConnection.insert_failed hbounded hinsert with
            ⟨haccepts, rfl, hfault⟩ | ⟨haccepts, ⟨t, rfl, hscans⟩, hfault⟩
          · obtain ⟨cause, rfl⟩ := hfault.resolve_left (by simp [hdriver])
            simp [haccepts, Fault.isUndone]
          · have hencoding := hfault.resolve_left (by simp [hdriver])
            have hrows : t.rows ≠ c.working.rows := fun h => hscans (congrArg Rows.scans h)
            simp [haccepts, hencoding, hrows]
      · rw [hinsert] at houtcome
        cases houtcome
    · rw [insert_notConnected hm sid (Bool.eq_false_iff.mpr hconnected)] at h
      cases h
      simp [Fault.isUndone, Fault.isEncoding]

theorem changesMotors_eq_true {c : TableConnection} {s : ScanRow} {sid motors : Value}
    {ps : Positions} (hscan : c.scanIdOf sid = .ok (.int s.scanId))
    (hkeys : ps.toEntries.keys = (motors.entries?.getD []).keys) :
    c.changesMotors sid motors = true ↔
      ¬ (c.working.mnemonicsOf s.scanId = [] ∧
        ∀ p ∈ ps.head?, (Value.text p.1).isEncodable = false) := by
  have hfirst : (motors.entries?.getD []).head?.any (fun motor => motor.1.isEncodable) =
      ps.head?.any fun p => (Value.text p.1).isEncodable := by
    have hentries : ∀ entries : Entries, entries.head?.any (fun motor => motor.1.isEncodable) =
        entries.keys.head?.any Value.isEncodable := by
      intro entries
      cases entries <;> rfl
    rw [hentries, ← hkeys]
    cases ps <;> rfl
  unfold TableConnection.changesMotors
  rw [hscan]
  dsimp only
  rw [hfirst, Int.toNat_natCast]
  cases hmotors : c.working.mnemonicsOf s.scanId <;> cases ps <;> simp

/-- A failed replacement leaves the rows as they were just if nothing was pending when it
rolled back, and no mnemonic stopped it after a row went or came. -/
theorem replaceMotors_failed_rows (hs : session.Bounded) {sid motors : Value}
    (h : ((onTables config).replaceMotors sid motors).run session = (.error fault, session')) :
    session'.rows = session.rows ↔
      (fault.isUndone = true → session.lastingRows = session.rows) ∧
        ¬ (fault.isEncoding = true ∧ session.changesMotors sid motors = true) := by
  cases hm : checkMotors motors with
  | error cause =>
    rw [replaceMotors_refused hm] at h
    cases h
    simp [checkMotors_fault hm]
  | ok entries =>
    obtain ⟨ps, rfl, hkeys, -⟩ := checkMotors_eq_ok hm
    by_cases hconnected : session.connected = true
    · obtain ⟨c, hc⟩ := Option.isSome_iff_exists.mp (hs.connected hconnected)
      have hon : session.On c := ⟨hconnected, hc⟩
      have hbounded := hs.connection c hc
      obtain ⟨houtcome, hon'⟩ := (replaceMotors_leads hm sid c).outcome_eq hon h
      generalize hreported :
        TableConnection.replaceReported sid (c.replace sid ps.toEntries) = reported at houtcome hon'
      obtain ⟨outcome, d⟩ := reported
      cases houtcome
      rw [hon.rows, hon.lastingRows, hon.changesMotors, hon'.rows, Option.some_inj, Option.some_inj]
      cases hscan : c.scanIdOf sid with
      | error cause =>
        have hchanges : c.changesMotors sid motors = false := by
          rw [TableConnection.changesMotors, hscan]
        rw [TableConnection.replace, hscan] at hreported
        rw [TableConnection.replaceReported_unknown hbounded hscan hreported, hchanges]
        simp
      | ok scanId =>
        obtain ⟨s, hs, rfl⟩ := TableConnection.scanIdOf_eq_ok hscan
        rw [TableConnection.replace, hscan] at hreported
        rw [TableConnection.replaceReported_found hbounded hs hreported,
          changesMotors_eq_true hscan hkeys, not_and, not_not]
    · rw [replaceMotors_notConnected hm sid (Bool.eq_false_iff.mpr hconnected)] at h
      cases h
      simp [Fault.isUndone, Fault.isEncoding]

/-- A change that fails, in any session that calls can reach, leaves the rows as they were
just if nothing was pending when it rolled back, and no mnemonic without a UTF-8 form
stopped it after a row went or came. -/
theorem failed_rows (hs : session.Reached config) :
    (∀ sid motors fault session',
      ((onTables config).insert sid motors).run session = (.error fault, session') →
        (session'.rows = session.rows ↔
          (fault.isUndone = true → session.lastingRows = session.rows) ∧
            ¬ (fault.isEncoding = true ∧ session.accepts sid = true))) ∧
      ∀ sid motors fault session',
        ((onTables config).replaceMotors sid motors).run session = (.error fault, session') →
          (session'.rows = session.rows ↔
            (fault.isUndone = true → session.lastingRows = session.rows) ∧
              ¬ (fault.isEncoding = true ∧ session.changesMotors sid motors = true)) :=
  ⟨fun _ _ _ _ h => insert_failed_rows hs.bounded h,
    fun _ _ _ _ h => replaceMotors_failed_rows hs.bounded h⟩

end MotorStore

/-! ### A surrogate among the mnemonics -/

/-- A store in memory. -/
def MotorsConfig.inMemory : MotorsConfig := { dbType := "sqlite", dbFile := ":memory:" }

/-- A session of a store in memory that has just been opened. -/
def Session.inMemory : Session TableServer :=
  StoreCall.connect.after .inMemory ⟨false, .inMemory⟩

theorem Session.inMemory_reached : Session.inMemory.Reached .inMemory :=
  .call (.start _ rfl) .connect

/-- Motors of which the second has a mnemonic without a UTF-8 form. -/
def surrogateMotors : Value :=
  .map [("a", .float .zero), (.text ⟨[0xD800]⟩, .float .zero)]

namespace MotorStore

/-- The scan and the first motor stay behind when the second motor cannot be put in. -/
theorem insert_leaves_rows :
    Session.inMemory.Reached .inMemory ∧
      ∃ session', ((onTables .inMemory).insert (.float .zero) surrogateMotors).run .inMemory =
          (.error (.value (.notEncodable ⟨0xD800, 0, 0⟩)), session') ∧
        session'.rows ≠ Session.inMemory.rows :=
  ⟨Session.inMemory_reached, _, rfl, by decide +kernel⟩

/-- A session with a scan of one motor. -/
def oneScan : Session TableServer :=
  (StoreCall.insert (.float .zero) (.map [("b", .float .zero)])).after .inMemory .inMemory

/-- The fault of the surrogate. -/
def surrogateFault : Fault := .value (.notEncodable ⟨0xD800, 0, 0⟩)

theorem failed_rows_surrogate :
    (∃ session', ((onTables .inMemory).insert (.float .zero) surrogateMotors).run .inMemory =
        (.error surrogateFault, session') ∧
      session'.rows ≠ Session.inMemory.rows) ∧
      ∃ session', ((onTables .inMemory).replaceMotors (.float .zero) surrogateMotors).run oneScan =
          (.error surrogateFault, session') ∧
        session'.rows ≠ oneScan.rows := by
  have hinsert : (((onTables .inMemory).insert (.float .zero) surrogateMotors).run .inMemory).1 =
      .error surrogateFault := by decide
  have hreplace : (((onTables .inMemory).replaceMotors (.float .zero) surrogateMotors).run
      oneScan).1 = .error surrogateFault := by decide +kernel
  refine ⟨⟨_, run_eq_of_fst hinsert, ?_⟩, ⟨_, run_eq_of_fst hreplace, ?_⟩⟩
  · have h := (failed_rows Session.inMemory_reached).1 _ _ _ _ (run_eq_of_fst hinsert)
    have haccepts : Session.inMemory.accepts (.float .zero) = true := by decide +kernel
    exact fun hrows => (h.mp hrows).2 ⟨rfl, haccepts⟩
  · have hreached : oneScan.Reached .inMemory := .call Session.inMemory_reached _
    have h := (failed_rows hreached).2 _ _ _ _ (run_eq_of_fst hreplace)
    have hchanges : oneScan.changesMotors (.float .zero) surrogateMotors = true := by decide +kernel
    exact fun hrows => (h.mp hrows).2 ⟨rfl, hchanges⟩

end MotorStore

end ScanCatalog
