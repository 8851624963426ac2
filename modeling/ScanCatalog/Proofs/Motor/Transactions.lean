import ScanCatalog.Proofs.Motor.Holdings
import ScanCatalog.Proofs.Motor.Parameters
import ScanCatalog.Proofs.Motor.Reachable

/-!
# Transactions on what the tables hold

The changes of the motor store as changes of scans and motors. On a connection whose
tables hold something sound an insertion adds a scan with its motors and a replacement
puts motors in the place of those of a scan; a change that fails leaves something sound.

## Main definitions

* `TableConnection.Holds`: a ready connection whose tables hold something sound;
* `Positions.Valid`: positions that can be put in together;
* `Positions.Stops`: why a change stops;
* `Positions.Fit`, `Holdings.Takes`: motors and scans for which a change does not stop;
* `Holdings.Swaps`: other motors for one scan.

## Main statements

* `TableConnection.insert_holds`, `TableConnection.replace_holds`: the changes.
-/

namespace ScanCatalog

/-- A connection that is ready and whose tables hold something sound. -/
structure TableConnection.Holds (c : TableConnection) (h : Holdings) : Prop where
  ready : c.Ready
  working : c.working = h.toTables
  sound : h.Sound

/-- Mnemonics that come once, and finite positions. -/
structure Positions.Valid (ps : Positions) : Prop where
  distinct : ps.Pairwise fun p q => p.1 ≠ q.1
  finite : ∀ p ∈ ps, p.2.isFinite = true

/-- All mnemonics have a UTF-8 form. -/
def Positions.Encodable (ps : Positions) : Prop := ∀ p ∈ ps, p.1.Encodable

/-- Why a change of some motors stops: an error of the driver, or a mnemonic without a
UTF-8 form. -/
def Positions.Stops (ps : Positions) (fault : Fault) : Prop :=
  fault.isDriverError = true ∨ fault.isEncoding = true ∧ ¬ ps.Encodable

theorem Positions.Stops.cons {p : Text × Binary64} {ps : Positions} {fault : Fault}
    (h : ps.Stops fault) : Positions.Stops (p :: ps) fault :=
  h.imp id fun h => ⟨h.1, fun hall => h.2 fun q hq => hall q (List.mem_cons_of_mem p hq)⟩

/-- All mnemonics have a UTF-8 form, and there are numbers left for the motors. -/
structure Positions.Fit (ps : Positions) (h : Holdings) : Prop where
  encodable : ps.Encodable
  room : h.lastMotor + ps.length ≤ Tables.lastNumber

/-- There is a number left for a scan, and its sid is a number that no other scan has. -/
structure Holdings.Takes (h : Holdings) (sid : Binary64) : Prop where
  room : h.lastScan < Tables.lastNumber
  real : sid.same sid = true
  new : ∀ s ∈ h.scans, s.sid.same sid = false

/-- Holdings with other motors for the scan of a sid. -/
def Holdings.Swaps (h : Holdings) (sid : Binary64) (k : Holdings) : Prop :=
  ∃ s ∈ h.scans, s.sid.same sid = true ∧
    ∃ ps : Positions, k = (h.dropMotors s.scanId).addMotors s.scanId ps

theorem Positions.Fit.head {p : Text × Binary64} {ps : Positions} {h : Holdings}
    (hfit : Positions.Fit (p :: ps) h) : h.lastMotor < Tables.lastNumber ∧ p.1.Encodable := by
  have hroom := hfit.room
  rw [List.length_cons] at hroom
  exact ⟨by omega, hfit.encodable p List.mem_cons_self⟩

theorem Positions.Fit.tail {p : Text × Binary64} {ps : Positions} {h : Holdings}
    (hfit : Positions.Fit (p :: ps) h) (scanId : Nat) : ps.Fit (h.addMotor scanId p) where
  encodable := fun q hq => hfit.encodable q (List.mem_cons_of_mem p hq)
  room := by
    have hroom := hfit.room
    rw [List.length_cons] at hroom
    change h.lastMotor + 1 + ps.length ≤ Tables.lastNumber
    omega

theorem Value.toCell_float {x : Binary64} (h : x.same x = true) : (Value.float x).toCell = .real x := by
  cases x with
  | nan => cases h
  | _ => rfl

theorem Cell.real_same_toCell (x y : Binary64) :
    (Cell.real x).same (Value.float y).toCell.asNumeric = x.same y := by
  cases y with
  | nan =>
    rw [Binary64.same]
    cases x.quantity <;> rfl
  | _ => rfl

theorem Value.same_of_toCell {x : Binary64} (h : (Value.float x).toCell.asReal.isNull = false) :
    x.same x = true := by
  rw [Binary64.same, Quantity.same_iff]
  refine ⟨rfl, ?_⟩
  cases x with
  | nan => cases h
  | infinite negative => cases negative <;> simp [Binary64.quantity]
  | finite negative => cases negative <;> simp [Binary64.quantity]

namespace Holdings

variable {h : Holdings}

/-! ### Statements -/

theorem holdsInt_scanId (hs : h.Sound) {scanId : Nat} (hscan : scanId ≤ h.lastScan) :
    Cell.holdsInt scanId = true :=
  Cell.holdsInt_of_le (Nat.le_trans hscan hs.lastScan)

/-- Putting in a scan. -/
theorem insertScan_toTables {sid : Binary64} (hlast : h.lastScan < Tables.lastNumber)
    (hnew : ∀ s ∈ h.scans, s.sid.same sid = false) :
    h.toTables.insertScan (.real sid) =
      .ok ((h.addScan sid).toTables, { lastId := .int ((h.lastScan + 1 : Nat) : Int) }) := by
  have hany : (h.scans.map StoredScan.toRow).any
      (fun s => s.sid.same (Cell.real sid.dropZeroSign)) = false := by
    rw [List.any_map, List.any_eq_false]
    intro s hs
    have hsame : s.sid.same sid.dropZeroSign = false :=
      (Binary64.same_dropZeroSign _ _).trans (hnew s hs)
    exact Bool.eq_false_iff.mp hsame
  have hnull : ¬ (Cell.real sid.dropZeroSign).isNull = true := Bool.false_ne_true
  unfold Tables.insertScan toTables
  dsimp only [Cell.asReal, Cell.asNumeric]
  rw [if_neg (Nat.not_le.mpr hlast), if_neg hnull, hany, if_neg Bool.false_ne_true]
  simp [Holdings.addScan, StoredScan.toRow]

/-- A scan that was put in has a sid that no other has. -/
theorem insertScan_eq_ok {sid : Binary64} {t : Tables} {result : ResultSet}
    (hok : h.toTables.insertScan (Value.float sid).toCell = .ok (t, result)) :
    sid.same sid = true ∧ h.lastScan < Tables.lastNumber ∧
      (∀ s ∈ h.scans, s.sid.same sid = false) ∧ t = (h.addScan sid).toTables ∧
      result.lastId = .int ((h.lastScan + 1 : Nat) : Int) := by
  obtain ⟨hlast, hnull, hany, -, -⟩ := Tables.insertScan_eq_ok hok
  have hsid : sid.same sid = true := Value.same_of_toCell hnull
  rw [Value.toCell_float hsid] at hok hany
  have hnew : ∀ s ∈ h.scans, s.sid.same sid = false := by
    intro s hs
    have hsame : s.sid.same sid.dropZeroSign = false :=
      Bool.eq_false_iff.mpr (List.any_eq_false.mp hany _ (List.mem_map_of_mem hs))
    rwa [Binary64.same_dropZeroSign] at hsame
  rw [insertScan_toTables hlast hnew] at hok
  cases hok
  exact ⟨hsid, hlast, hnew, rfl, rfl⟩

/-- A motor that is put in, with its position. -/
theorem insertMnemonic_toTables (scanId : Nat) (mnemonic : Text)
    (hlast : h.lastMotor < Tables.lastNumber) :
    h.toTables.insertMnemonic (.int scanId) (.text mnemonic) =
      .ok ({ h.toTables with
          mnemonics := h.toTables.mnemonics ++ [⟨h.lastMotor + 1, .int scanId, .text mnemonic⟩]
          lastMotor := h.lastMotor + 1 },
        { lastId := .int ((h.lastMotor + 1 : Nat) : Int) }) := by
  have hscan : ¬ (Cell.int scanId).isNull = true := Bool.false_ne_true
  have hmnemonic : ¬ (Cell.text mnemonic).isNull = true := Bool.false_ne_true
  have hfull : ¬ Tables.lastNumber ≤ h.toTables.lastMotor := Nat.not_le.mpr hlast
  unfold Tables.insertMnemonic
  dsimp only
  rw [if_neg hfull, if_neg hscan, if_neg hmnemonic]
  rfl

theorem insertPosition_toTables (scanId : Nat) (p : Text × Binary64) :
    ({ h.toTables with
        mnemonics := h.toTables.mnemonics ++ [⟨h.lastMotor + 1, .int scanId, .text p.1⟩]
        lastMotor := h.lastMotor + 1 } : Tables).insertPosition
        (.int ((h.lastMotor + 1 : Nat) : Int)) (.real p.2) =
      .ok ((h.addMotor scanId p).toTables, { lastId := .int (h.motors.length + 1) }) := by
  have hmotor : ¬ (Cell.int ((h.lastMotor + 1 : Nat) : Int)).isNull = true := Bool.false_ne_true
  unfold Tables.insertPosition
  rw [if_neg hmotor]
  simp [toTables, Holdings.addMotor, StoredMotor.toMnemonic, StoredMotor.toPosition,
    Cell.asReal, Cell.asNumeric]

/-- Taking out the rows of the motors of a scan takes out these motors. -/
theorem Sound.delete_toTables (hs : h.Sound) (scanId : Nat) :
    (h.toTables.deletePositions (.int scanId)).deleteMnemonics (.int scanId) =
      (h.dropMotors scanId).toTables := by
  have hmnemonics : h.toTables.mnemonics.filter (fun m => !m.scanId.same (.int scanId)) =
      (h.motors.filter fun m => m.scanId ≠ scanId).map StoredMotor.toMnemonic := by
    change (h.motors.map StoredMotor.toMnemonic).filter _ = _
    rw [List.filter_map]
    refine congrArg _ (List.filter_congr fun m _ => ?_)
    rw [Function.comp_apply]
    change (!(Cell.int m.scanId).same (.int scanId)) = _
    rw [same_int]
    simp
  have hpositions : h.toTables.positions.filter (fun p => !h.toTables.mnemonics.any fun m =>
      m.scanId.same (.int scanId) && p.motorId.same (.int m.motorId)) =
      (h.motors.filter fun m => m.scanId ≠ scanId).map StoredMotor.toPosition := by
    change (h.motors.map StoredMotor.toPosition).filter _ = _
    rw [List.filter_map]
    refine congrArg _ (List.filter_congr fun m hm => ?_)
    rw [Function.comp_apply]
    have hany : (h.toTables.mnemonics.any fun n =>
        n.scanId.same (.int scanId) && m.toPosition.motorId.same (.int n.motorId)) =
        decide (m.scanId = scanId) := by
      rw [Bool.eq_iff_iff, List.any_eq_true, decide_eq_true_eq]
      constructor
      · rintro ⟨row, hrow, hsame⟩
        obtain ⟨n, hn, rfl⟩ := List.mem_map.mp hrow
        obtain ⟨hscan, hmotor⟩ := Bool.and_eq_true_iff.mp hsame
        have hscan : n.scanId = scanId := of_decide_eq_true ((same_int _ _).symm.trans hscan)
        have hmotor : m.motorId = n.motorId := of_decide_eq_true ((same_int _ _).symm.trans hmotor)
        rw [hs.eq_of_motorId hm hn hmotor, hscan]
      · rintro rfl
        refine ⟨m.toMnemonic, List.mem_map_of_mem hm, Bool.and_eq_true_iff.mpr ⟨?_, ?_⟩⟩
        · exact (same_int m.scanId m.scanId).trans (decide_eq_true rfl)
        · exact (same_int m.motorId m.motorId).trans (decide_eq_true rfl)
    rw [hany]
    simp
  change Tables.mk _ (h.toTables.mnemonics.filter _) (h.toTables.positions.filter _) _ _ = _
  rw [hmnemonics, hpositions]
  rfl

end Holdings

namespace TableConnection

variable {c : TableConnection} {h : Holdings}

/-- The connection with what other holdings make of its tables. -/
theorem Holds.withWorking (hc : c.Holds h) {k : Holdings} (hk : k.Sound) (committed : Tables) :
    ({ c with committed, working := k.toTables } : TableConnection).Holds k :=
  ⟨hc.ready.withTables _ _, rfl, hk⟩

theorem Holds.self (hc : c.Holds h) : { c with working := h.toTables } = c := by
  rw [← hc.working]

/-- A statement within the limits whose parameters can be bound. -/
theorem Ready.executeOn (hc : c.Ready) (statement : Statement) {parameters : List Value}
    (hrows : ∀ part, statement ≠ .create part) (hlimits : statement.exceeded? = none)
    (hbinds : ∀ v ∈ parameters, v.Binds) :
    TableServer.executeOn statement (some parameters) c =
      match c.working.execute statement (parameters.map Value.toCell) with
      | .error fault => .error fault
      | .ok (tables, result) => .ok (result, { c with working := tables }) := by
  rewrite [TableServer.executeOn_ready hrows hlimits hc, Option.getD_some,
    Cell.ofParameters_binds hbinds]
  rfl

theorem Holds.putPosition (hc : c.Holds h) (hlast : h.lastMotor < Tables.lastNumber)
    (scanId : Nat) {p : Text × Binary64} (hfinite : p.2.isFinite = true) :
    ∃ result, TableServer.executeOn .insertPosition
        (some [.int ((h.lastMotor + 1 : Nat) : Int), .float p.2])
        { c with working := { h.toTables with
          mnemonics := h.toTables.mnemonics ++ [⟨h.lastMotor + 1, .int scanId, .text p.1⟩]
          lastMotor := h.lastMotor + 1 } } =
      .ok (result, { c with working := (h.addMotor scanId p).toTables }) := by
  have hmotor : Cell.holdsInt ((h.lastMotor + 1 : Nat) : Int) = true := Cell.holdsInt_of_le hlast
  have hready : ({ c with working := { h.toTables with
      mnemonics := h.toTables.mnemonics ++ [⟨h.lastMotor + 1, .int scanId, .text p.1⟩]
      lastMotor := h.lastMotor + 1 } } : TableConnection).Ready := hc.ready.withTables _ _
  have hbinds : ∀ v ∈ [Value.int ((h.lastMotor + 1 : Nat) : Int), .float p.2], v.Binds :=
    List.forall_mem_cons.mpr ⟨.int hmotor, List.forall_mem_singleton.mpr (.float p.2)⟩
  refine ⟨{ lastId := .int (h.motors.length + 1) }, ?_⟩
  rw [hready.executeOn .insertPosition nofun rfl hbinds, List.map_cons, List.map_singleton,
    Value.toCell_float (Binary64.same_self_of_isFinite hfinite)]
  change (match Tables.insertPosition _ (.int ((h.lastMotor + 1 : Nat) : Int)) (.real p.2) with
    | .error fault => .error fault
    | .ok (tables, result) => .ok (result, { c with working := tables })) = Except.ok _
  rw [Holdings.insertPosition_toTables]

/-- Putting in a motor adds it, unless its mnemonic cannot be bound or the tables are
full. -/
theorem Holds.putMotor (hc : c.Holds h) {scanId : Nat} (hscan : scanId ≤ h.lastScan)
    {p : Text × Binary64} (hfinite : p.2.isFinite = true) :
    (∃ motor d, TableServer.executeOn .insertMnemonic (some [.int scanId, .text p.1]) c =
        .ok (motor, d) ∧ p.1.Encodable ∧ h.lastMotor < Tables.lastNumber ∧
      ∃ result, TableServer.executeOn .insertPosition (some [motor.lastId, .float p.2]) d =
        .ok (result, { c with working := (h.addMotor scanId p).toTables })) ∨
      ∃ fault, TableServer.executeOn .insertMnemonic (some [.int scanId, .text p.1]) c =
          .error fault ∧
        (fault.isDriverError = true ∨ fault.isEncoding = true ∧ ¬ p.1.Encodable) ∧
        ¬ (h.lastMotor < Tables.lastNumber ∧ p.1.Encodable) := by
  have hid : Cell.holdsInt scanId = true := Holdings.holdsInt_scanId hc.sound hscan
  by_cases hencodable : p.1.Encodable
  · have hbinds : ∀ v ∈ [Value.int scanId, .text p.1], v.Binds :=
      List.forall_mem_cons.mpr ⟨.int hid, List.forall_mem_singleton.mpr (.text hencodable)⟩
    rw [hc.ready.executeOn .insertMnemonic nofun rfl hbinds, hc.working]
    change (∃ motor d, (match h.toTables.insertMnemonic (.int scanId) (.text p.1) with
      | .error fault => .error fault
      | .ok (tables, result) => .ok (result, { c with working := tables })) = Except.ok (motor, d) ∧ _) ∨
      ∃ fault, (match h.toTables.insertMnemonic (.int scanId) (.text p.1) with
        | .error fault => .error fault
        | .ok (tables, result) => .ok (result, { c with working := tables })) = Except.error fault ∧ _
    by_cases hlast : h.lastMotor < Tables.lastNumber
    · rw [Holdings.insertMnemonic_toTables scanId p.1 hlast]
      exact .inl ⟨_, _, rfl, hencodable, hlast, hc.putPosition hlast scanId hfinite⟩
    · have hfull : h.toTables.insertMnemonic (.int scanId) (.text p.1) = .error Tables.fullFault :=
        if_pos (Nat.not_lt.mp hlast)
      rw [hfull]
      exact .inr ⟨_, rfl, .inl rfl, fun hfit => hlast hfit.1⟩
  · cases hfault : p.1.encodeFault? with
    | none => exact absurd ((Text.encodeFault?_eq_none_iff _).mp hfault) hencodable
    | some cause =>
      have hcells : Cell.ofParameters 1 [.int scanId, .text p.1] =
          .error (.value (.notEncodable cause)) := by
        rw [Cell.ofParameters_cons, Cell.ofParameter_int hid, Outcome.ok_bind,
          Cell.ofParameters_cons, Cell.ofParameter_text, hfault]
        rfl
      refine .inr ⟨.value (.notEncodable cause), ?_, .inr ⟨rfl, hencodable⟩,
        fun hfit => hencodable hfit.2⟩
      have hrows : ∀ part, Statement.insertMnemonic ≠ .create part := nofun
      rw [TableServer.executeOn_ready hrows rfl hc.ready, Option.getD_some, hcells]

/-- Putting in motors adds them, or stops after some of them. -/
theorem putMotors_holds (hc : c.Holds h) {scanId : Nat} (hscan : scanId ≤ h.lastScan)
    {ps : Positions} (hps : ps.Valid)
    (hnew : ∀ m ∈ h.motors, m.scanId = scanId → ∀ p ∈ ps, m.mnemonic ≠ p.1) :
    (c.putMotors (.int scanId) ps.toEntries =
        (.ok (), { c with working := (h.addMotors scanId ps).toTables }) ∧
      (h.addMotors scanId ps).Sound) ∨
      ∃ (fault : Fault) (taken : Positions), c.putMotors (.int scanId) ps.toEntries =
        (.error fault, { c with working := (h.addMotors scanId taken).toTables }) ∧
          (h.addMotors scanId taken).Sound ∧ ps.Stops fault ∧ ¬ ps.Fit h := by
  induction ps generalizing c h with
  | nil => exact .inl ⟨by rw [Holdings.addMotors_nil, hc.self]; rfl, hc.sound⟩
  | cons p rest ih =>
    obtain ⟨hp, hrest⟩ := List.pairwise_cons.mp hps.distinct
    obtain ⟨hfinite, hrestFinite⟩ := List.forall_mem_cons.mp hps.finite
    rw [Positions.toEntries_cons]
    unfold putMotors
    rcases hc.putMotor hscan hfinite with ⟨motor, d, hm, hencodable, hlast, result, hput⟩ |
      ⟨fault, hm, hfault, hnot⟩
    · have hsound : (h.addMotor scanId p).Sound := hc.sound.addMotor hlast hscan
        (fun m hm heq => hnew m hm heq p List.mem_cons_self) hencodable
      have hadded : ∀ m ∈ (h.addMotor scanId p).motors, m.scanId = scanId →
          ∀ q ∈ rest, m.mnemonic ≠ q.1 := by
        intro m hm heq q hq
        rcases List.mem_append.mp hm with hm | hm
        · exact hnew m hm heq q (List.mem_cons_of_mem p hq)
        · rw [List.mem_singleton.mp hm]
          exact hp q hq
      have hd := hc.withWorking hsound c.committed
      rw [hm]
      dsimp only
      rw [hput]
      rcases ih hd hscan ⟨hrest, hrestFinite⟩ hadded with
        ⟨heq, hsound⟩ | ⟨fault, taken, heq, htaken, hstops, hnot⟩
      · exact .inl ⟨heq, hsound⟩
      · exact .inr ⟨fault, p :: taken, heq, htaken, hstops.cons, fun hfit => hnot (hfit.tail scanId)⟩
    · rw [hm]
      refine .inr ⟨fault, [], by rw [Holdings.addMotors_nil, hc.self], hc.sound,
        hfault.imp id fun hfault => ?_, fun hfit => hnot hfit.head⟩
      exact ⟨hfault.1, fun hall => hfault.2 (hall p List.mem_cons_self)⟩

/-- The connection after a transaction that left holdings. -/
def hold (c : TableConnection) (k : Holdings) : TableConnection :=
  { c with committed := k.toTables, working := k.toTables }

theorem Holds.hold (hc : c.Holds h) {k : Holdings} (hk : k.Sound) : (c.hold k).Holds k :=
  hc.withWorking hk k.toTables

/-- The statement that puts in a scan does so in the tables. -/
theorem insertScan_holds (hc : c.Holds h) (sid : Binary64) :
    TableServer.executeOn .insertScan (some [.float sid]) c =
      match h.toTables.insertScan (Value.float sid).toCell with
      | .error fault => .error fault
      | .ok (tables, result) => .ok (result, { c with working := tables }) := by
  have hbinds : ∀ v ∈ [Value.float sid], v.Binds := List.forall_mem_singleton.mpr (.float sid)
  rw [hc.ready.executeOn .insertScan nofun rfl hbinds, hc.working]
  rfl

/-- An insertion adds the scan with its motors, or stops with something sound. -/
theorem insert_holds (hc : c.Holds h) (sid : Binary64) {ps : Positions} (hps : ps.Valid) :
    (c.insert (.float sid) ps.toEntries = (.ok (.int ((h.lastScan + 1 : Nat) : Int)),
        c.hold ((h.addScan sid).addMotors (h.lastScan + 1) ps)) ∧
      ((h.addScan sid).addMotors (h.lastScan + 1) ps).Sound ∧
      ∀ s ∈ h.scans, s.sid.same sid = false) ∨
      ∃ (fault : Fault) (k : Holdings), c.insert (.float sid) ps.toEntries =
        (.error fault, { c with working := k.toTables }) ∧ k.Sound ∧ ps.Stops fault ∧
          ¬ (h.Takes sid ∧ ps.Fit h) := by
  unfold TableConnection.insert
  rw [insertScan_holds hc sid]
  cases hinsert : h.toTables.insertScan (Value.float sid).toCell with
  | error fault =>
    have hexecute : h.toTables.execute .insertScan [(Value.float sid).toCell] = .error fault :=
      hinsert
    refine .inr ⟨fault, h, by rw [hc.self], hc.sound, .inl (Tables.execute_error hexecute), ?_⟩
    rintro ⟨⟨hlast, hreal, hnew⟩, -⟩
    rw [Value.toCell_float hreal, Holdings.insertScan_toTables hlast hnew] at hinsert
    cases hinsert
  | ok inserted =>
    obtain ⟨tables, result⟩ := inserted
    obtain ⟨hsid, hlast, hnew, rfl, hid⟩ := Holdings.insertScan_eq_ok hinsert
    have hsound : (h.addScan sid).Sound := hc.sound.addScan hlast hsid hnew
    have hd := hc.withWorking hsound c.committed
    have hmotors : ∀ m ∈ (h.addScan sid).motors, m.scanId = h.lastScan + 1 →
        ∀ p ∈ ps, m.mnemonic ≠ p.1 := by
      intro m hm heq
      have := hc.sound.motorScan_le m hm
      omega
    dsimp only
    rw [hid]
    rcases putMotors_holds hd (Nat.le_refl (h.lastScan + 1)) hps hmotors with
      ⟨heq, hk⟩ | ⟨fault, taken, heq, hk, hstops, hnot⟩
    · rw [heq]
      exact .inl ⟨rfl, hk, hnew⟩
    · rw [heq]
      exact .inr ⟨fault, _, rfl, hk, hstops, fun hfit => hnot ⟨hfit.2.encodable, hfit.2.room⟩⟩

/-- The selection of a scan by its sid finds the scans that have it. -/
theorem selectScanId_holds (hc : c.Holds h) (sid : Binary64) :
    TableServer.executeOn .selectScanId (some [.float sid]) c =
      .ok ({ rows := (h.scans.filter fun s => s.sid.same sid).map fun s => [.int s.scanId] }, c) := by
  have hbinds : ∀ v ∈ [Value.float sid], v.Binds := List.forall_mem_singleton.mpr (.float sid)
  have hfilter : h.toTables.scans.filter
      (fun s => s.sid.same (Value.float sid).toCell.asNumeric) =
      (h.scans.filter fun s => s.sid.same sid).map StoredScan.toRow := by
    change (h.scans.map StoredScan.toRow).filter _ = _
    rw [List.filter_map]
    refine congrArg _ (List.filter_congr fun s _ => ?_)
    rw [Function.comp_apply]
    exact Cell.real_same_toCell s.sid sid
  rw [hc.ready.executeOn .selectScanId nofun rfl hbinds, hc.working]
  change Except.ok (ResultSet.mk ((h.toTables.scans.filter _).map _) _,
    { c with working := h.toTables }) = _
  rw [hfilter, List.map_map, hc.self]
  rfl

/-- The scan of a sid is found by the sid. -/
theorem scanIdOf_holds (hc : c.Holds h) (sid : Binary64) :
    c.scanIdOf (.float sid) =
      match h.scans.find? fun s => s.sid.same sid with
      | some s => .ok (.int s.scanId)
      | none => .error (.motorStore (.unknownScan (.float sid))) := by
  unfold scanIdOf
  rw [selectScanId_holds hc sid]
  dsimp only
  rw [← List.head?_filter]
  cases h.scans.filter fun s => s.sid.same sid <;> rfl

/-- Swapping the motors of a scan takes out those that it has, and puts in others. -/
theorem swapMotors_holds (hc : c.Holds h) {scanId : Nat} (hscan : scanId ≤ h.lastScan)
    (motors : Entries) :
    c.swapMotors (.int scanId) motors =
      match putMotors (.int scanId) { c with working := (h.dropMotors scanId).toTables } motors with
      | (.error fault, d) => (.error fault, d)
      | (.ok (), d) => (.ok (), d.settled) := by
  have hbinds : ∀ v ∈ [Value.int scanId], v.Binds :=
    List.forall_mem_singleton.mpr (.int (Holdings.holdsInt_scanId hc.sound hscan))
  have hpositions : TableServer.executeOn .deletePositions (some [.int scanId]) c =
      .ok ({}, { c with working := h.toTables.deletePositions (.int scanId) }) := by
    rw [hc.ready.executeOn .deletePositions nofun rfl hbinds, hc.working]
    rfl
  have hready : ({ c with working := h.toTables.deletePositions (.int scanId) } :
    TableConnection).Ready := hc.ready.withTables _ _
  have hmnemonics : TableServer.executeOn .deleteMnemonics (some [.int scanId])
      { c with working := h.toTables.deletePositions (.int scanId) } =
      .ok ({}, { c with working := (h.dropMotors scanId).toTables }) := by
    rw [hready.executeOn .deleteMnemonics nofun rfl hbinds, ← hc.sound.delete_toTables]
    rfl
  unfold swapMotors
  rw [hpositions]
  dsimp only
  rewrite [hmnemonics]
  rfl

/-- A replacement puts the motors in the place of those of the scan, or stops with
something sound, in which at most that scan has other motors. -/
theorem replace_holds (hc : c.Holds h) (sid : Binary64) {ps : Positions} (hps : ps.Valid) :
    (∃ s ∈ h.scans, s.sid.same sid = true ∧ c.replace (.float sid) ps.toEntries =
        (.ok (), c.hold ((h.dropMotors s.scanId).addMotors s.scanId ps)) ∧
      ((h.dropMotors s.scanId).addMotors s.scanId ps).Sound) ∨
      ∃ (fault : Fault) (k : Holdings), c.replace (.float sid) ps.toEntries =
        (.error fault, { c with working := k.toTables }) ∧ k.Sound ∧
          (fault = .motorStore (.unknownScan (.float sid)) ∨ ps.Stops fault) ∧
          ¬ ((∃ s ∈ h.scans, s.sid.same sid = true) ∧ ps.Fit h) ∧ (k = h ∨ h.Swaps sid k) := by
  unfold TableConnection.replace
  rw [scanIdOf_holds hc]
  cases hfind : h.scans.find? fun s => s.sid.same sid with
  | none =>
    refine .inr ⟨_, h, by rw [hc.self], hc.sound, .inl rfl, ?_, .inl rfl⟩
    rintro ⟨⟨s, hs, hsame⟩, -⟩
    exact List.find?_eq_none.mp hfind s hs hsame
  | some s =>
    have hs : s ∈ h.scans := List.mem_of_find?_eq_some hfind
    have hsame : s.sid.same sid = true := by simpa using List.find?_some hfind
    have hscan : s.scanId ≤ h.lastScan := hc.sound.scanId_le s hs
    have hsound : (h.dropMotors s.scanId).Sound := hc.sound.dropMotors s.scanId
    have hd := hc.withWorking hsound c.committed
    have hdropped : ∀ m ∈ (h.dropMotors s.scanId).motors, m.scanId = s.scanId →
        ∀ p ∈ ps, m.mnemonic ≠ p.1 := by
      intro m hm heq
      have hne := (List.mem_filter.mp hm).2
      simp [heq] at hne
    dsimp only
    rw [swapMotors_holds hc hscan]
    rcases putMotors_holds hd hscan hps hdropped with
      ⟨heq, hk⟩ | ⟨fault, taken, heq, hk, hstops, hnot⟩
    · rw [heq]
      exact .inl ⟨s, hs, hsame, rfl, hk⟩
    · rw [heq]
      exact .inr ⟨fault, _, rfl, hk, .inr hstops,
        fun hfit => hnot ⟨hfit.2.encodable, hfit.2.room⟩, .inr ⟨s, hs, hsame, taken, rfl⟩⟩

end TableConnection

end ScanCatalog
