import Mathlib.Data.List.Nodup
import ScanCatalog.Proofs.Binary64.Equality
import ScanCatalog.Proofs.Motor.Checked
import ScanCatalog.Proofs.Motor.Connection

/-!
# What the motor tables hold

The motor tables of a store whose sids are numbers, as the scans and motors that they
hold: every motor has one position, and every number is that of a row. Holdings that are
sound give the records of the store; each statement leads from holdings to holdings.

## Main definitions

* `StoredScan`, `StoredMotor`, `Holdings`: the scans and motors of the tables;
* `Holdings.toTables`: the tables that hold them;
* `Holdings.Sound`: sids, numbers and mnemonics that come once;
* `Tables.records`, `Holdings.records`: the motor record of each scan.

## Main statements

* `Holdings.records_toTables`: both give the same records;
* `Holdings.Sound.addScan`, `Holdings.Sound.addMotors`, `Holdings.Sound.dropMotors`: changes
  keep holdings sound.
-/

namespace ScanCatalog

/-- A scan in the tables. -/
structure StoredScan where
  scanId : Nat
  sid : Binary64
deriving DecidableEq, Repr

/-- A motor in the tables, with its position. -/
structure StoredMotor where
  motorId : Nat
  scanId : Nat
  mnemonic : Text
  position : Binary64
deriving DecidableEq, Repr

/-- The scans and motors of the tables, in the order in which they were put in, and the
last numbers given out. -/
structure Holdings where
  scans : List StoredScan := []
  motors : List StoredMotor := []
  lastScan : Nat := 0
  lastMotor : Nat := 0
deriving DecidableEq, Repr

/-- A scan as a row. -/
def StoredScan.toRow (s : StoredScan) : ScanRow := ⟨s.scanId, .real s.sid⟩

/-- A motor as a row of the mnemonics. -/
def StoredMotor.toMnemonic (m : StoredMotor) : MnemonicRow :=
  ⟨m.motorId, .int m.scanId, .text m.mnemonic⟩

/-- A motor as a row of the positions. -/
def StoredMotor.toPosition (m : StoredMotor) : PositionRow := ⟨.int m.motorId, .real m.position⟩

namespace Tables

/-- The motors of a scan, in order. -/
def motorsOf (tables : Tables) (scanId : Nat) : Entries :=
  (tables.mnemonicsOf scanId).flatMap fun m =>
    (tables.positionsOf m.motorId).map fun p => (m.mnemonic.toValue, p.position.toValue)

/-- The motor record of each scan, in order. -/
def records (tables : Tables) : List MotorRecord :=
  tables.scans.map fun s => ⟨s.sid.toValue, tables.motorsOf s.scanId⟩

end Tables

namespace Holdings

/-- The tables that hold scans and motors. -/
def toTables (h : Holdings) : Tables where
  scans := h.scans.map StoredScan.toRow
  mnemonics := h.motors.map StoredMotor.toMnemonic
  positions := h.motors.map StoredMotor.toPosition
  lastScan := h.lastScan
  lastMotor := h.lastMotor

/-- The motors of a scan. -/
def ofScan (h : Holdings) (scanId : Nat) : List StoredMotor :=
  h.motors.filter fun m => m.scanId = scanId

/-- The positions of the motors of a scan. -/
def positionsOf (h : Holdings) (scanId : Nat) : Positions :=
  (h.ofScan scanId).map fun m => (m.mnemonic, m.position)

/-- The motor record of a scan. -/
def recordOf (h : Holdings) (s : StoredScan) : MotorRecord :=
  ⟨.float s.sid, (h.positionsOf s.scanId).toEntries⟩

/-- The motor record of each scan, in order. -/
def records (h : Holdings) : List MotorRecord := h.scans.map h.recordOf

/-- Every number is given out once, every sid is a number that comes once, and so does every
mnemonic of a scan, which has a UTF-8 form. -/
structure Sound (h : Holdings) : Prop where
  lastScan : h.lastScan ≤ Tables.lastNumber
  lastMotor : h.lastMotor ≤ Tables.lastNumber
  scanIds : h.scans.Pairwise fun s t => s.scanId < t.scanId
  scanId_le : ∀ s ∈ h.scans, s.scanId ≤ h.lastScan
  motorIds : h.motors.Pairwise fun m n => m.motorId < n.motorId
  motorId_le : ∀ m ∈ h.motors, m.motorId ≤ h.lastMotor
  motorScan_le : ∀ m ∈ h.motors, m.scanId ≤ h.lastScan
  sids : h.scans.Pairwise fun s t => s.sid.same t.sid = false
  sid_same : ∀ s ∈ h.scans, s.sid.same s.sid = true
  mnemonics : h.motors.Pairwise fun m n => m.scanId = n.scanId → m.mnemonic ≠ n.mnemonic
  encodable : ∀ m ∈ h.motors, m.mnemonic.Encodable

theorem sound_empty : ({} : Holdings).Sound := by
  constructor <;> simp

/-! ### Rows of scans and motors -/

variable {h : Holdings}

theorem beq_mul {u : Nat} (hu : 0 < u) (i j : Nat) :
    ((i : Int) * u == (j : Int) * u) = decide (i = j) := by
  have hu : (u : Int) ≠ 0 := by omega
  by_cases hij : i = j
  · subst hij
    simp
  · have hne : (i : Int) * u ≠ (j : Int) * u := fun heq =>
      hij (Int.ofNat_inj.mp (Int.eq_of_mul_eq_mul_right hu heq))
    simp [hne, hij]

theorem same_int (i j : Nat) : (Cell.int i).same (.int j) = decide (i = j) := by
  have hunits : 0 < Binary64.unitsInOne := twoTo_pos 1074
  exact beq_mul hunits i j

theorem mnemonicsOf_toTables (h : Holdings) (scanId : Nat) :
    h.toTables.mnemonicsOf scanId = (h.ofScan scanId).map StoredMotor.toMnemonic := by
  have hfilter : h.motors.filter ((fun m : MnemonicRow => m.scanId.same (.int scanId)) ∘
      StoredMotor.toMnemonic) = h.ofScan scanId := by
    refine List.filter_congr fun m _ => ?_
    rw [Function.comp_apply]
    exact same_int m.scanId scanId
  unfold Tables.mnemonicsOf toTables
  dsimp only
  rw [List.filter_map, hfilter]

theorem Sound.eq_of_motorId (hs : h.Sound) {m n : StoredMotor} (hm : m ∈ h.motors)
    (hn : n ∈ h.motors) (heq : m.motorId = n.motorId) : m = n := by
  have hforward : h.motors.Pairwise fun a b => a.motorId = b.motorId → a = b :=
    hs.motorIds.imp fun hlt heq => absurd heq (Nat.ne_of_lt hlt)
  have hbackward : h.motors.Pairwise (flip fun a b => a.motorId = b.motorId → a = b) :=
    hs.motorIds.imp fun hlt heq => absurd heq.symm (Nat.ne_of_lt hlt)
  exact List.Pairwise.forall_of_forall_of_flip (fun _ _ _ => rfl) hforward hbackward hm hn heq

/-- A motor has its one position. -/
theorem Sound.positionsOf_toTables (hs : h.Sound) {m : StoredMotor} (hm : m ∈ h.motors) :
    h.toTables.positionsOf m.motorId = [m.toPosition] := by
  have hnodup : h.motors.Nodup := hs.motorIds.imp fun {a b} hlt heq => by
    rw [heq] at hlt
    exact Nat.lt_irrefl _ hlt
  have hone : (h.motors.filter ((fun p : PositionRow => p.motorId.same (.int m.motorId)) ∘
      StoredMotor.toPosition)) = [m] := by
    have hcongr : (h.motors.filter ((fun p : PositionRow => p.motorId.same (.int m.motorId)) ∘
        StoredMotor.toPosition)) = h.motors.filter (· = m) := by
      refine List.filter_congr fun n hn => ?_
      rw [Function.comp_apply]
      refine (same_int n.motorId m.motorId).trans (decide_eq_decide.mpr ?_)
      exact ⟨hs.eq_of_motorId hn hm, congrArg _⟩
    rw [hcongr, List.filter_eq, List.count_eq_one_of_mem hnodup hm]
    rfl
  unfold Tables.positionsOf toTables
  dsimp only
  rw [List.filter_map, hone]
  rfl

theorem Sound.motorsOf_toTables (hs : h.Sound) (scanId : Nat) :
    h.toTables.motorsOf scanId = (h.positionsOf scanId).toEntries := by
  unfold Tables.motorsOf Holdings.positionsOf Positions.toEntries
  rw [mnemonicsOf_toTables, List.flatMap_map, List.map_map, List.map_eq_flatMap]
  refine List.flatMap_congr fun m hm => ?_
  have hmotor : h.toTables.positionsOf m.toMnemonic.motorId = [m.toPosition] :=
    hs.positionsOf_toTables (List.mem_filter.mp hm).1
  rw [hmotor]
  rfl

theorem Sound.records_toTables (hs : h.Sound) : h.toTables.records = h.records := by
  unfold Tables.records records
  change (h.scans.map StoredScan.toRow).map _ = _
  rw [List.map_map]
  refine List.map_congr_left fun s _ => ?_
  change MotorRecord.mk _ (h.toTables.motorsOf s.scanId) = _
  rw [hs.motorsOf_toTables]
  rfl

end Holdings

/-- Positions as a number column holds them. -/
def Positions.stored (positions : Positions) : Positions :=
  positions.map fun p => (p.1, p.2.dropZeroSign)

namespace Holdings

variable {h : Holdings}

/-! ### Changes -/

/-- A scan more. -/
def addScan (h : Holdings) (sid : Binary64) : Holdings :=
  { h with scans := h.scans ++ [⟨h.lastScan + 1, sid.dropZeroSign⟩], lastScan := h.lastScan + 1 }

/-- A motor more. -/
def addMotor (h : Holdings) (scanId : Nat) (p : Text × Binary64) : Holdings :=
  { h with
    motors := h.motors ++ [⟨h.lastMotor + 1, scanId, p.1, p.2.dropZeroSign⟩]
    lastMotor := h.lastMotor + 1 }

/-- Motors more, in order. -/
def addMotors (h : Holdings) (scanId : Nat) (ps : Positions) : Holdings :=
  ps.foldl (fun h p => h.addMotor scanId p) h

/-- The holdings without the motors of a scan. -/
def dropMotors (h : Holdings) (scanId : Nat) : Holdings :=
  { h with motors := h.motors.filter fun m => m.scanId ≠ scanId }

@[simp] theorem addMotors_nil (h : Holdings) (scanId : Nat) : h.addMotors scanId [] = h := rfl

@[simp] theorem addMotors_cons (h : Holdings) (scanId : Nat) (p : Text × Binary64)
    (ps : Positions) : h.addMotors scanId (p :: ps) = (h.addMotor scanId p).addMotors scanId ps :=
  rfl

@[simp] theorem scans_addMotors (h : Holdings) (scanId : Nat) (ps : Positions) :
    (h.addMotors scanId ps).scans = h.scans := by
  induction ps generalizing h with
  | nil => rfl
  | cons p ps ih => exact ih (h.addMotor scanId p)

@[simp] theorem lastScan_addMotors (h : Holdings) (scanId : Nat) (ps : Positions) :
    (h.addMotors scanId ps).lastScan = h.lastScan := by
  induction ps generalizing h with
  | nil => rfl
  | cons p ps ih => exact ih (h.addMotor scanId p)

theorem Sound.addScan (hs : h.Sound) {sid : Binary64} (hlast : h.lastScan < Tables.lastNumber)
    (hsame : sid.same sid = true) (hnew : ∀ s ∈ h.scans, s.sid.same sid = false) :
    (h.addScan sid).Sound where
  lastScan := hlast
  lastMotor := hs.lastMotor
  scanIds := by
    refine List.pairwise_append.mpr ⟨hs.scanIds, List.pairwise_singleton _ _, ?_⟩
    intro s hmem t ht
    rw [List.mem_singleton.mp ht]
    exact Nat.lt_succ_of_le (hs.scanId_le s hmem)
  scanId_le := by
    intro s hmem
    rcases List.mem_append.mp hmem with hmem | hmem
    · exact Nat.le_succ_of_le (hs.scanId_le s hmem)
    · rw [List.mem_singleton.mp hmem]
      exact Nat.le_refl _
  motorIds := hs.motorIds
  motorId_le := hs.motorId_le
  motorScan_le := fun m hm => Nat.le_succ_of_le (hs.motorScan_le m hm)
  sids := by
    refine List.pairwise_append.mpr ⟨hs.sids, List.pairwise_singleton _ _, ?_⟩
    intro s hmem t ht
    rw [List.mem_singleton.mp ht, Binary64.same_dropZeroSign]
    exact hnew s hmem
  sid_same := by
    intro s hmem
    rcases List.mem_append.mp hmem with hmem | hmem
    · exact hs.sid_same s hmem
    · rw [List.mem_singleton.mp hmem, Binary64.same_dropZeroSign, Binary64.dropZeroSign_same]
      exact hsame
  mnemonics := hs.mnemonics
  encodable := hs.encodable

theorem Sound.addMotor (hs : h.Sound) {scanId : Nat} {p : Text × Binary64}
    (hlast : h.lastMotor < Tables.lastNumber) (hscan : scanId ≤ h.lastScan)
    (hnew : ∀ m ∈ h.motors, m.scanId = scanId → m.mnemonic ≠ p.1) (hencodable : p.1.Encodable) :
    (h.addMotor scanId p).Sound where
  lastScan := hs.lastScan
  lastMotor := hlast
  scanIds := hs.scanIds
  scanId_le := hs.scanId_le
  motorIds := by
    refine List.pairwise_append.mpr ⟨hs.motorIds, List.pairwise_singleton _ _, ?_⟩
    intro m hm n hn
    rw [List.mem_singleton.mp hn]
    exact Nat.lt_succ_of_le (hs.motorId_le m hm)
  motorId_le := by
    intro m hm
    rcases List.mem_append.mp hm with hm | hm
    · exact Nat.le_succ_of_le (hs.motorId_le m hm)
    · rw [List.mem_singleton.mp hm]
      exact Nat.le_refl _
  motorScan_le := by
    intro m hm
    rcases List.mem_append.mp hm with hm | hm
    · exact hs.motorScan_le m hm
    · rw [List.mem_singleton.mp hm]
      exact hscan
  sids := hs.sids
  sid_same := hs.sid_same
  mnemonics := by
    refine List.pairwise_append.mpr ⟨hs.mnemonics, List.pairwise_singleton _ _, ?_⟩
    intro m hm n hn
    rw [List.mem_singleton.mp hn]
    exact hnew m hm
  encodable := by
    intro m hm
    rcases List.mem_append.mp hm with hm | hm
    · exact hs.encodable m hm
    · rw [List.mem_singleton.mp hm]
      exact hencodable

theorem Sound.dropMotors (hs : h.Sound) (scanId : Nat) : (h.dropMotors scanId).Sound where
  lastScan := hs.lastScan
  lastMotor := hs.lastMotor
  scanIds := hs.scanIds
  scanId_le := hs.scanId_le
  motorIds := hs.motorIds.filter _
  motorId_le := fun m hm => hs.motorId_le m (List.mem_filter.mp hm).1
  motorScan_le := fun m hm => hs.motorScan_le m (List.mem_filter.mp hm).1
  sids := hs.sids
  sid_same := hs.sid_same
  mnemonics := hs.mnemonics.filter _
  encodable := fun m hm => hs.encodable m (List.mem_filter.mp hm).1

/-! ### Records after a change -/

theorem positionsOf_addMotor (h : Holdings) (scanId other : Nat) (p : Text × Binary64) :
    (h.addMotor scanId p).positionsOf other =
      if other = scanId then h.positionsOf other ++ [(p.1, p.2.dropZeroSign)]
      else h.positionsOf other := by
  unfold positionsOf ofScan Holdings.addMotor
  dsimp only
  rw [List.filter_append]
  by_cases heq : other = scanId
  · rw [if_pos heq, List.filter_cons_of_pos (by simp [heq]), List.filter_nil, List.map_append]
    rfl
  · rw [if_neg heq, List.filter_cons_of_neg (by simpa using fun h => heq h.symm), List.filter_nil,
      List.append_nil]

theorem positionsOf_addMotors (h : Holdings) (scanId other : Nat) (ps : Positions) :
    (h.addMotors scanId ps).positionsOf other =
      if other = scanId then h.positionsOf other ++ ps.stored else h.positionsOf other := by
  induction ps generalizing h with
  | nil => simp [Positions.stored]
  | cons p ps ih =>
    rw [addMotors_cons, ih, positionsOf_addMotor]
    by_cases heq : other = scanId
    · simp [heq, Positions.stored]
    · simp [heq]

theorem positionsOf_dropMotors (h : Holdings) (scanId other : Nat) :
    (h.dropMotors scanId).positionsOf other =
      if other = scanId then [] else h.positionsOf other := by
  unfold positionsOf ofScan Holdings.dropMotors
  dsimp only
  rw [List.filter_filter]
  by_cases heq : other = scanId
  · subst heq
    simp
  · rw [if_neg heq]
    congr 1
    refine List.filter_congr fun m _ => ?_
    by_cases hm : m.scanId = other
    · simp [hm, heq]
    · simp [hm]

/-- A number that was not given out has no motors. -/
theorem Sound.positionsOf_new (hs : h.Sound) {scanId : Nat} (hscan : h.lastScan < scanId) :
    h.positionsOf scanId = [] := by
  unfold positionsOf ofScan
  rw [List.map_eq_nil_iff, List.filter_eq_nil_iff]
  intro m hm
  have := hs.motorScan_le m hm
  simp only [decide_eq_true_eq]
  omega

/-- No record has a sid that no scan has. -/
theorem records_same_eq_false (h : Holdings) {x : Binary64} :
    (∀ r ∈ h.records, r.sid.same (.float x) = false) ↔ ∀ s ∈ h.scans, s.sid.same x = false := by
  unfold records
  rw [List.forall_mem_map]
  rfl

/-- A scan put in with its motors makes one record more. -/
theorem Sound.records_insert (hs : h.Sound) (sid : Binary64) (ps : Positions) :
    ((h.addScan sid).addMotors (h.lastScan + 1) ps).records =
      h.records ++ [⟨.float sid.dropZeroSign, ps.stored.toEntries⟩] := by
  unfold records
  rw [scans_addMotors]
  unfold Holdings.addScan
  dsimp only
  rw [List.map_append]
  congr 1
  · refine List.map_congr_left fun s hmem => ?_
    have hne : s.scanId ≠ h.lastScan + 1 := by
      have := hs.scanId_le s hmem
      omega
    unfold recordOf
    rw [positionsOf_addMotors, if_neg hne]
    rfl
  · unfold recordOf
    rw [List.map_singleton, positionsOf_addMotors, if_pos rfl]
    have hnew : ({ h with
        scans := h.scans ++ [⟨h.lastScan + 1, sid.dropZeroSign⟩]
        lastScan := h.lastScan + 1 } : Holdings).positionsOf (h.lastScan + 1) = [] :=
      hs.positionsOf_new (Nat.lt_succ_self _)
    rw [hnew, List.nil_append]

/-- Motors that replace those of a scan change its record only. -/
theorem records_replace (h : Holdings) (scanId : Nat) (ps : Positions) :
    ((h.dropMotors scanId).addMotors scanId ps).records =
      h.scans.map fun s =>
        if s.scanId = scanId then ⟨.float s.sid, ps.stored.toEntries⟩ else h.recordOf s := by
  unfold records
  rw [scans_addMotors]
  refine List.map_congr_left fun s _ => ?_
  unfold recordOf
  rw [positionsOf_addMotors, positionsOf_dropMotors]
  by_cases heq : s.scanId = scanId
  · simp [heq]
  · simp [heq]

end Holdings

end ScanCatalog
