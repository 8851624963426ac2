import ScanCatalog.Proofs.Motor.History
import ScanCatalog.Proofs.Record.SidClock
import ScanCatalog.Record.Schema

/-!
# Records that pass the checks

What the checks of a record let through can be split: the motors have mnemonics that are
texts and positions that are finite numbers, so they pass the check of the motor store as
well, and are stored as the numbers that they are.

## Main definitions

* `Entries.IsRecord`: the mappings that JSON objects are;
* `Entries.storedMotors`: the motors of a record as the tables keep them;
* `Entries.StartsAt`, `Entries.IsForced`: records whose sid is their start time, and records that
  get one from the clock.

## Main statements

* `Schema.shape_of_validate`: the shape of a record that passes the checks;
* `checkedEntries_of_motorProblems`: motors of that shape pass the check of the motor store;
* `Schema.positions_of_validate`, `Schema.motorsOf_of_validate`: the motors of a record that
  passes the checks;
* `deriveSid_cases`, `deriveSid_within`, `decompose_eq_ok`: the sid and the two parts of a record.
-/

namespace ScanCatalog

open ScanCatalog.Action

namespace Entries

/-- The keys are texts, none of which comes again. The same holds of the motors, whose
mnemonics have a UTF-8 form. -/
structure IsRecord (record : Entries) : Prop where
  texts : ∀ e ∈ record, ∃ t, e.1 = .text t
  distinct : record.Distinct
  mnemonics : (record.get motorsKey).DistinctKeys
  encodable : (record.get motorsKey).EncodableKeys

/-- The motors of a record as the tables keep them. -/
def storedMotors (record : Entries) : Entries := (record.get motorsKey).storedMotors

/-- The number of motors of a record. -/
def motorCount (record : Entries) : Nat := ((record.get motorsKey).entries?.getD []).length

/-- The sid of a record is its start time: that is a number near a finite one, and the record does
not ask for another sid by a number below zero. -/
structure StartsAt (record : Entries) (x : Binary64) : Prop where
  sid : (record.get sidKey).isNegativeNumber = false
  number : (record.get startTimeKey).isNumber = true
  real : (record.get startTimeKey).toReal = .ok x
  finite : x.isFinite = true

/-- A record that gets a sid from the clock: it asks for one by a number below zero, or it has no
start time that is a finite number. -/
def IsForced (record : Entries) : Prop :=
  (record.get sidKey).isNegativeNumber = true ∨ (record.get startTimeKey).isNumber = false ∨
    ∃ x : Binary64, (record.get startTimeKey).toReal = .ok x ∧ x.isFinite = false

end Entries

/-! ### The shape of motors -/

/-- A step of the check that lets a position through. -/
theorem checkedEntries_cons {t : Text} {position : Value} {x : Binary64} {rest tail : Entries}
    (hempty : t.isEmpty = false) (hposition : isPosition position = .ok true)
    (hx : position.toReal = .ok x) (htail : checkedEntries rest = .ok tail) :
    checkedEntries ((.text t, position) :: rest) = .ok ((.text t, .float x) :: tail) := by
  unfold checkedEntries
  dsimp only
  rw [if_neg (Bool.eq_false_iff.mp hempty), hposition, liftValue_ok, Outcome.ok_bind, if_pos rfl,
    hx, liftValue_ok, Outcome.ok_bind, htail]
  rfl

/-- A step without problems. -/
theorem motorProblems_cons_eq_nil {mnemonic position : Value} {rest : Entries}
    (h : motorProblems ((mnemonic, position) :: rest) = .ok []) :
    ∃ t, mnemonic = .text t ∧ t.isEmpty = false ∧ isPosition position = .ok true ∧
      motorProblems rest = .ok [] := by
  unfold motorProblems at h
  split at h
  · next t =>
    by_cases hempty : t.isEmpty = true
    · rw [if_pos hempty] at h
      obtain ⟨_, -, h⟩ := Outcome.bind_eq_ok.mp h
      cases h
    · rw [if_neg hempty] at h
      obtain ⟨ok, hok, h⟩ := Outcome.bind_eq_ok.mp h
      cases ok with
      | false =>
        obtain ⟨_, -, h⟩ := Outcome.bind_eq_ok.mp h
        cases h
      | true => exact ⟨t, rfl, Bool.eq_false_iff.mpr hempty, hok, h⟩
  · obtain ⟨_, -, h⟩ := Outcome.bind_eq_ok.mp h
    cases h

/-- Motors without problems pass the check of the motor store. -/
theorem checkedEntries_of_motorProblems {entries : Entries} (h : motorProblems entries = .ok []) :
    ∃ checked, checkedEntries entries = .ok checked := by
  induction entries with
  | nil => exact ⟨[], rfl⟩
  | cons entry rest ih =>
    obtain ⟨mnemonic, position⟩ := entry
    obtain ⟨t, rfl, hempty, hposition, hrest⟩ := motorProblems_cons_eq_nil h
    obtain ⟨x, hx, -⟩ := isPosition_eq_ok hposition
    obtain ⟨tail, htail⟩ := ih hrest
    exact ⟨_, checkedEntries_cons hempty hposition hx htail⟩

theorem checkMotors_map (entries : Entries) :
    checkMotors (.map entries) = checkedEntries entries := by
  cases entries <;> rfl

/-- Positions pass the check as they are. -/
theorem checkedEntries_toEntries {ps : Positions}
    (hps : ∀ p ∈ ps, p.1.isEmpty = false ∧ p.2.isFinite = true) :
    checkedEntries ps.toEntries = .ok ps.toEntries := by
  induction ps with
  | nil => rfl
  | cons p rest ih =>
    obtain ⟨⟨hempty, hfinite⟩, hrest⟩ := List.forall_mem_cons.mp hps
    have hposition : isPosition (.float p.2) = .ok true := congrArg Except.ok hfinite
    exact checkedEntries_cons hempty hposition (Value.toReal_float p.2) (ih hrest)

/-- Motors that pass the check are as many positions. -/
theorem Positions.length_of_checkMotors {motors : Value} {ps : Positions}
    (h : checkMotors motors = .ok ps.toEntries) :
    ps.length = (motors.entries?.getD []).length := by
  obtain ⟨qs, hqs, hkeys, -⟩ := checkMotors_eq_ok h
  obtain rfl : ps = qs := Positions.toEntries_injective hqs
  have hlengths := congrArg List.length hkeys
  rwa [Positions.keys_toEntries, List.length_map, Entries.keys, List.length_map] at hlengths

/-! ### The motors of a record -/

/-- Motors with distinct mnemonics are split off as the positions that the check of the motor
store gives. -/
theorem positionsOf_of_checkedEntries {entries taken : Entries} {ps : Positions}
    (h : checkedEntries entries = .ok ps.toEntries)
    (hdistinct : Entries.Distinct (taken ++ ps.toEntries)) :
    positionsOf taken entries = .ok (taken ++ ps.toEntries) := by
  induction entries generalizing taken ps with
  | nil =>
    rw [← Except.ok.inj h, List.append_nil]
    rfl
  | cons entry rest ih =>
    obtain ⟨mnemonic, position⟩ := entry
    obtain ⟨t, x, tail, rfl, -, hx, -, htail, heq⟩ := checkedEntries_cons_eq_ok h
    cases ps with
    | nil => cases heq
    | cons p ps =>
      rw [Positions.toEntries_cons, List.cons.injEq] at heq
      obtain ⟨hp, rfl⟩ := heq
      rw [Positions.toEntries_cons, hp] at hdistinct ⊢
      have hnew : Entries.has taken (.text t) = false := Entries.has_eq_false_iff.mpr fun e he =>
        (List.pairwise_append.mp hdistinct).2.2 e he _ List.mem_cons_self
      rw [List.append_cons] at hdistinct ⊢
      unfold positionsOf
      rw [hx, Value.display_text]
      dsimp only
      rw [Entries.set_of_not_has hnew]
      exact ih htail hdistinct

/-- The motors that are split off have mnemonics that come once. -/
theorem positionsOf_distinct {entries taken positions : Entries}
    (h : positionsOf taken entries = .ok positions) (htaken : taken.Distinct) :
    positions.Distinct := by
  induction entries generalizing taken with
  | nil =>
    cases h
    exact htaken
  | cons entry rest ih =>
    unfold positionsOf at h
    split at h
    · exact ih h (htaken.set _ _)
    · cases h

theorem motorsOf_distinct {record motors : Entries} (h : motorsOf record = .ok motors) :
    motors.Distinct := by
  unfold motorsOf at h
  dsimp only at h
  split at h
  · split at h
    · exact positionsOf_distinct h List.Pairwise.nil
    · cases h
  · cases h
    exact List.Pairwise.nil

namespace Schema

variable {schema : Schema} {record : Entries}

/-- A record that passes the checks has a shape without problems. -/
theorem shape_of_validate (h : schema.validate (.map record) = .ok ()) :
    shapeProblems (.map record) = .ok [] := by
  obtain ⟨problems, hproblems, h⟩ := Outcome.bind_eq_ok.mp h
  rw [liftValue_eq_ok] at hproblems
  cases problems with
  | nil => exact hproblems
  | cons problem rest => cases h

/-- The motors of a record that passes the checks are none, or a mapping that passes the check
of the motor store. -/
theorem motors_of_validate (h : schema.validate (.map record) = .ok ()) :
    record.get motorsKey = .null ∨ ∃ entries checked, record.get motorsKey = .map entries ∧
      checkedEntries entries = .ok checked := by
  have hshape := shape_of_validate h
  unfold shapeProblems at hshape
  dsimp only at hshape
  split at hshape
  · next hnull => exact .inl hnull
  · next entries hmap =>
    obtain ⟨checked, hchecked⟩ := checkedEntries_of_motorProblems hshape
    exact .inr ⟨entries, checked, hmap, hchecked⟩
  · cases hshape

/-- The motors of a record that passes the checks are split off as the positions that the check
of the motor store gives, and pass it as such. -/
theorem positions_of_validate (h : schema.validate (.map record) = .ok ())
    (hdistinct : (record.get motorsKey).DistinctKeys) :
    ∃ ps : Positions, motorsOf record = .ok ps.toEntries ∧
      checkMotors (record.get motorsKey) = .ok ps.toEntries ∧
      checkMotors (.map ps.toEntries) = .ok ps.toEntries := by
  unfold motorsOf
  rcases motors_of_validate h with hnull | ⟨entries, checked, hmap, hchecked⟩
  · rw [hnull]
    exact ⟨[], rfl, rfl, rfl⟩
  · have hcheck : checkMotors (.map entries) = .ok checked :=
      (checkMotors_map entries).trans hchecked
    obtain ⟨ps, rfl, hkeys, hps⟩ := checkMotors_eq_ok hcheck
    rw [hmap] at hdistinct ⊢
    refine ⟨ps, ?_, hcheck, (checkMotors_map _).trans (checkedEntries_toEntries hps)⟩
    have hpositions : positionsOf [] entries = .ok ps.toEntries :=
      positionsOf_of_checkedEntries hchecked (Entries.distinct_of_keys_eq hkeys hdistinct)
    cases entries with
    | nil =>
      rw [← Except.ok.inj hpositions]
      rfl
    | cons e rest => exact hpositions

/-- The motors of a record that passes the checks are split off as positions, which pass the
check of the motor store and are stored as the numbers that the record has. -/
theorem motorsOf_of_validate (h : schema.validate (.map record) = .ok ())
    (hrecord : record.IsRecord) :
    ∃ ps : Positions, motorsOf record = .ok ps.toEntries ∧
      checkMotors (.map ps.toEntries) = .ok ps.toEntries ∧ ps.Valid ∧ ps.Encodable ∧
      ps.stored.toEntries = record.storedMotors ∧ ps.length = record.motorCount := by
  obtain ⟨ps, hps, hcheck, hchecked⟩ := positions_of_validate h hrecord.mnemonics
  exact ⟨ps, hps, hchecked, Positions.valid_of_checkMotors hcheck hrecord.mnemonics,
    Positions.encodable_of_checkMotors hcheck hrecord.encodable, Positions.stored_toEntries hcheck,
    Positions.length_of_checkMotors hcheck⟩

end Schema

/-! ### The sid of a record -/

section

variable {record document : Entries} {motorRecord : MotorRecord} {clock clock' : SidClock}
  {steps : Nat}

theorem Entries.StartsAt.deriveSid {x : Binary64} (h : record.StartsAt x) :
    deriveSid record = Action.pure x := by
  simp only [ScanCatalog.deriveSid, h.sid, h.number, h.real, h.finite, Bool.false_eq_true,
    ↓reduceIte]

theorem Entries.IsForced.deriveSid (h : record.IsForced) : deriveSid record = SidClock.next := by
  unfold ScanCatalog.deriveSid
  split
  · rfl
  · next hnegative =>
    dsimp only
    split
    · next hnumber =>
      have hnumber : ¬ (record.get startTimeKey).isNumber = false := by simp [hnumber]
      obtain ⟨x, hreal, hfinite⟩ := (h.resolve_left hnegative).resolve_left hnumber
      rw [hreal]
      exact if_neg (Bool.eq_false_iff.mp hfinite)
    · rfl

/-- A sid comes from the clock, or is a start time that is finite, unless that is too large. -/
theorem deriveSid_cases (record : Entries) :
    record.IsForced ∨ (∃ x, record.StartsAt x) ∨
      ∃ cause, (record.get startTimeKey).isNumber = true ∧
        (record.get startTimeKey).toReal = .error cause ∧
        deriveSid record = Action.fail (.value cause) := by
  cases hnegative : (record.get sidKey).isNegativeNumber with
  | true => exact .inl (.inl hnegative)
  | false =>
    cases hnumber : (record.get startTimeKey).isNumber with
    | false => exact .inl (.inr (.inl hnumber))
    | true =>
      cases hstart : (record.get startTimeKey).toReal with
      | error cause =>
        refine .inr (.inr ⟨cause, rfl, rfl, ?_⟩)
        simp only [deriveSid, hnegative, hnumber, hstart, Bool.false_eq_true, ↓reduceIte]
      | ok x =>
        cases hfinite : x.isFinite with
        | true => exact .inr (.inl ⟨x, hnegative, hnumber, hstart, hfinite⟩)
        | false => exact .inl (.inr (.inr ⟨x, hstart, hfinite⟩))

/-- The sid of a record is a number, and a finite one within the lifetime of the clock, which
goes on by one step at most. -/
theorem deriveSid_within (hc : clock.Within steps) {outcome : Except Fault Binary64}
    (hrun : (deriveSid record).run clock = (outcome, clock')) :
    clock'.Within (steps + 1) ∧ ∀ x, outcome = .ok x →
      x.same x = true ∧ (steps + 1 < SidClock.lifetime → x.isFinite = true) := by
  have hsame : clock.Within (steps + 1) := hc.mono (Nat.le_succ steps)
  rcases deriveSid_cases record with hforced | ⟨x, hstart⟩ | ⟨cause, -, -, hfault⟩
  · rw [hforced.deriveSid] at hrun
    obtain ⟨hwithin, hsid⟩ := hc.next hrun
    refine ⟨hwithin, fun x hx => ?_⟩
    obtain ⟨rank, rfl, hrank⟩ := hsid x hx
    exact ⟨Binary64.same_self_ofRank false rank, SidClock.isFinite_ofRank hrank⟩
  · rw [hstart.deriveSid] at hrun
    cases hrun
    refine ⟨hsame, fun y hy => ?_⟩
    cases hy
    exact ⟨Binary64.same_self_of_isFinite hstart.finite, fun _ => hstart.finite⟩
  · rw [hfault] at hrun
    cases hrun
    exact ⟨hsame, nofun⟩

/-- Whatever the clock, a sid is a number. -/
theorem same_self_of_deriveSid {x : Binary64}
    (hrun : (deriveSid record).run clock = (.ok x, clock')) : x.same x = true := by
  rcases deriveSid_cases record with hforced | ⟨y, hstart⟩ | ⟨cause, -, -, hfault⟩
  · rw [hforced.deriveSid] at hrun
    exact SidClock.same_self_of_next hrun
  · rw [hstart.deriveSid] at hrun
    cases hrun
    exact Binary64.same_self_of_isFinite hstart.finite
  · rw [hfault] at hrun
    cases hrun

/-- A record is split into its document and its motors under its sid. -/
theorem decompose_eq_ok :
    (decompose record).run clock = (.ok (document, motorRecord), clock') ↔
      ∃ x motors, (deriveSid record).run clock = (.ok x, clock') ∧ motorsOf record = .ok motors ∧
        document = documentOf record x ∧ motorRecord = ⟨.float x, motors⟩ := by
  unfold decompose
  rw [run_bind_eq_ok]
  constructor
  · rintro ⟨x, t, hsid, hrun⟩
    obtain ⟨motors, u, hmotorsRun, hrun⟩ := run_bind_eq_ok.mp hrun
    rw [run_ofExcept] at hmotorsRun
    obtain ⟨hmotors, rfl⟩ := Prod.mk.inj hmotorsRun
    cases hrun
    exact ⟨x, motors, hsid, hmotors, rfl, rfl⟩
  · rintro ⟨x, motors, hsid, hmotors, rfl, rfl⟩
    refine ⟨x, clock', hsid, run_bind_eq_ok.mpr ⟨motors, clock', ?_, rfl⟩⟩
    rw [run_ofExcept, hmotors]

/-- The split takes the clock where the sid takes it. -/
theorem decompose_clock :
    ((decompose record).run clock).2 = ((deriveSid record).run clock).2 := by
  unfold decompose
  rw [run_bind]
  rcases (deriveSid record).run clock with ⟨_ | x, t⟩
  · rfl
  · dsimp only
    rw [run_bind, run_ofExcept]
    cases motorsOf record <;> rfl

end

end ScanCatalog
