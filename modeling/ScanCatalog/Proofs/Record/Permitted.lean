import ScanCatalog.Proofs.Record.Validated
import ScanCatalog.Proofs.Value.Updates

/-!
# What the checks of a record ask

A record passes the checks if its motors have the right shape, no required key is missing,
and the schema permits each of its fields. Each field is asked for on its own, so that
records can be checked in parts.

## Main definitions

* `IsMotor`: a mnemonic with its position, as records may have them;
* `Schema.Permits`: a value that a key may have.

## Main statements

* `Schema.validate_eq_ok_iff`: which records pass the checks;
* `IsMotor.asStored`: motors that pass them do so as the tables keep them.
-/

namespace ScanCatalog

/-- A text that is not empty, with a finite number. -/
def IsMotor (motor : Value × Value) : Prop :=
  ∃ t, motor.1 = .text t ∧ t.isEmpty = false ∧ isPosition motor.2 = .ok true

/-- Motors have no problems if each of them has none. -/
theorem motorProblems_eq_nil_iff {motors : Entries} :
    motorProblems motors = .ok [] ↔ ∀ e ∈ motors, IsMotor e := by
  induction motors with
  | nil => exact ⟨fun _ => nofun, fun _ => rfl⟩
  | cons e rest ih =>
    obtain ⟨mnemonic, position⟩ := e
    constructor
    · intro h
      obtain ⟨t, hkey, hempty, hposition, hrest⟩ := motorProblems_cons_eq_nil h
      exact List.forall_mem_cons.mpr ⟨⟨t, hkey, hempty, hposition⟩, ih.mp hrest⟩
    · intro h
      obtain ⟨⟨t, hkey, hempty, hposition⟩, hrest⟩ := List.forall_mem_cons.mp h
      cases hkey
      unfold motorProblems
      dsimp only
      rw [if_neg (Bool.eq_false_iff.mp hempty), hposition, Outcome.ok_bind, if_pos rfl]
      exact ih.mpr hrest

/-- A motor is one as the tables keep it, too. -/
theorem IsMotor.asStored {motor : Value × Value} (h : IsMotor motor) :
    IsMotor (motor.1, motor.2.asStored) := by
  obtain ⟨t, hkey, hempty, hposition⟩ := h
  obtain ⟨x, hx, hfinite⟩ := isPosition_eq_ok hposition
  have hstored : motor.2.asStored = .float x.dropZeroSign := by
    unfold Value.asStored
    rw [hx]
  refine ⟨t, hkey, hempty, ?_⟩
  dsimp only
  rw [hstored]
  exact congrArg Except.ok ((Binary64.isFinite_dropZeroSign x).trans hfinite)

theorem isMotor_of_mem_mapValues {motors : Entries} (h : ∀ e ∈ motors, IsMotor e) :
    ∀ e ∈ Entries.mapValues Value.asStored motors, IsMotor e := by
  intro e he
  obtain ⟨motor, hmotor, rfl⟩ := List.mem_map.mp he
  exact (h motor hmotor).asStored

namespace Entries

/-- The motors of a record are none, or a mapping of mnemonics to positions. -/
def MotorsFit (record : Entries) : Prop :=
  record.get motorsKey = .null ∨
    ∃ motors, record.get motorsKey = .map motors ∧ ∀ e ∈ motors, IsMotor e

theorem MotorsFit.isMotor {record : Entries} (h : record.MotorsFit) :
    ∀ e ∈ (record.get motorsKey).entries?.getD [], IsMotor e := by
  rcases h with hnull | ⟨motors, hmap, hmotors⟩
  · rw [hnull]
    exact nofun
  · rw [hmap]
    exact hmotors

/-- Motors that fit still do as the tables keep them. -/
theorem MotorsFit.storedMotors {record : Entries} (h : record.MotorsFit) :
    ∀ e ∈ record.storedMotors, IsMotor e := isMotor_of_mem_mapValues h.isMotor

theorem shapeProblems_eq_nil_iff {record : Entries} :
    shapeProblems (.map record) = .ok [] ↔ record.MotorsFit := by
  unfold MotorsFit shapeProblems
  dsimp only
  generalize record.get motorsKey = motors
  have hnone (v : Value) (hnull : v ≠ .null) (hmap : ∀ entries, v ≠ .map entries) :
      ¬ (v = .null ∨ ∃ entries, v = .map entries ∧ ∀ e ∈ entries, IsMotor e) := by
    rintro (h | ⟨entries, h, -⟩)
    · exact hnull h
    · exact hmap entries h
  cases motors with
  | null => exact ⟨fun _ => .inl rfl, fun _ => rfl⟩
  | map motors =>
    rw [motorProblems_eq_nil_iff]
    constructor
    · exact fun h => .inr ⟨motors, rfl, h⟩
    · rintro (hnull | ⟨_, hmap, h⟩)
      · cases hnull
      · cases hmap
        exact h
  | _ => exact ⟨nofun, fun h => absurd h (hnone _ nofun nofun)⟩

end Entries

namespace Schema

variable {schema : Schema} {key value : Value} {record : Entries}

/-- The schema permits a value for a key: it says nothing, or finds nothing wrong. -/
def Permits (schema : Schema) (key value : Value) : Prop :=
  schema.entries = [] ∨ schema.fieldProblem? key value = none

/-- The schema requires a key. -/
def Requires (schema : Schema) (key : Text) : Prop :=
  ∃ entry ∈ schema.entries, entry.isOptional = false ∧ entry.key = key

/-- Of the values of a managed key, only the kind counts. -/
theorem Permits.congr {v w : Value} (h : schema.Permits key v) (hnull : v.isNull = w.isNull)
    (hfits : ∀ type : FieldType, type.fits v = type.fits w) : schema.Permits key w := by
  refine h.imp id fun hnone => ?_
  unfold fieldProblem? at hnone ⊢
  split
  · next hfind =>
    rw [hfind] at hnone
    exact hnone
  · next entry hfind =>
    rw [hfind] at hnone
    dsimp only at hnone
    rw [hnull, hfits] at hnone
    split at hnone
    · next hcondition => rw [if_pos hcondition]
    · cases hnone

theorem Permits.float {x : Binary64} (h : schema.Permits key (.float x)) (y : Binary64) :
    schema.Permits key (.float y) := h.congr rfl fun type => by cases type <;> rfl

theorem Permits.map {entries : Entries} (h : schema.Permits key (.map entries))
    (other : Entries) : schema.Permits key (.map other) :=
  h.congr rfl fun type => by cases type <;> rfl

/-- A managed key that is not in the schema may have any value. -/
theorem permits_of_find?_eq_none (hfind : schema.find? key = none)
    (hreserved : isReserved key = true) (value : Value) : schema.Permits key value := by
  refine .inr ?_
  unfold fieldProblem?
  rw [hfind]
  exact if_pos hreserved

theorem problems_eq_nil_iff : schema.problems record = [] ↔
    (∀ key, schema.Requires key → record.has (.text key) = true) ∧
      ∀ e ∈ record, schema.fieldProblem? e.1 e.2 = none := by
  unfold problems Requires
  rw [List.append_eq_nil_iff, List.map_eq_nil_iff, List.filter_eq_nil_iff,
    List.filterMap_eq_nil_iff]
  refine and_congr ⟨?_, ?_⟩ Iff.rfl
  · rintro h _ ⟨entry, hentry, hrequired, rfl⟩
    have hnot := h entry hentry
    rw [hrequired, Bool.not_false, Bool.true_and, Bool.not_eq_true, Bool.not_eq_false'] at hnot
    exact hnot
  · intro h entry hentry hmissing
    rw [Bool.and_eq_true, Bool.not_eq_true', Bool.not_eq_true'] at hmissing
    rw [h entry.key ⟨entry, hentry, hmissing.1, rfl⟩] at hmissing
    cases hmissing.2

/-- A record passes the checks if its motors fit, no required key is missing, and its fields are
permitted. -/
theorem validate_eq_ok_iff : schema.validate (.map record) = .ok () ↔ record.MotorsFit ∧
    (∀ key, schema.Requires key → record.has (.text key) = true) ∧
    ∀ e ∈ record, schema.Permits e.1 e.2 := by
  have hproblems : (if schema.entries.isEmpty then [] else schema.problems record) = [] ↔
      (∀ key, schema.Requires key → record.has (.text key) = true) ∧
        ∀ e ∈ record, schema.Permits e.1 e.2 := by
    unfold Permits
    by_cases hempty : schema.entries = []
    · rw [hempty]
      refine ⟨fun _ => ⟨?_, fun _ _ => .inl rfl⟩, fun _ => rfl⟩
      rintro key ⟨entry, hentry, -, -⟩
      rw [hempty] at hentry
      cases hentry
    · rw [if_neg (by simpa using hempty), problems_eq_nil_iff]
      refine and_congr Iff.rfl (forall₂_congr fun e _ => ?_)
      rw [or_iff_right hempty]
  rw [← Entries.shapeProblems_eq_nil_iff, ← hproblems]
  unfold validate
  cases hshape : shapeProblems (.map record) with
  | error fault => exact ⟨nofun, fun h => nomatch h.1⟩
  | ok problems =>
    rw [liftValue_ok, Outcome.ok_bind]
    cases problems with
    | cons problem rest => exact ⟨nofun, fun h => nomatch h.1⟩
    | nil =>
      dsimp only
      generalize (if schema.entries.isEmpty then [] else schema.problems record) = found
      cases found with
      | nil => exact ⟨fun _ => ⟨rfl, rfl⟩, fun _ => rfl⟩
      | cons problem rest => exact ⟨nofun, fun h => nomatch h.2⟩

/-- The fields of a mapping by texts can be asked for by their keys. -/
theorem forall_permits_iff (htexts : record.TextKeys) (hdistinct : record.Distinct) :
    (∀ e ∈ record, schema.Permits e.1 e.2) ↔
      ∀ t value, record.get? (.text t) = some value → schema.Permits (.text t) value := by
  constructor
  · exact fun h t value hget => h _ (Entries.get?_eq_some_mem hget)
  · intro h e he
    obtain ⟨t, ht⟩ := htexts e he
    rw [ht]
    refine h t e.2 (hdistinct.get?_eq_some_iff.mpr ?_)
    rw [← ht]
    exact he

end Schema

end ScanCatalog
