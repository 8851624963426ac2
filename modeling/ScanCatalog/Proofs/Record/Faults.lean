import ScanCatalog.Proofs.Record.Validated
import ScanCatalog.Proofs.Value.Numbers

/-!
# Records on which the checks fail

The checks report what they find wrong with a record. They fail themselves on one thing only: a
position is compared as the binary64 number nearest to it, and an integer can be too large to
have one. The start time of a record is taken for such a number as well, and so is a reading of
the clock.

## Main definitions

* `Value.HasTooLargePosition`: motors with a position that is too large.

## Main statements

* `Schema.validate_eq_error`: when the checks fail;
* `deriveSid_eq_error`: when no sid is derived.
-/

namespace ScanCatalog

open ScanCatalog.Action

namespace Value

/-- Motors of which one is at an integer that is too large. Without a mnemonic it is not asked
for its position. -/
def HasTooLargePosition (motors : Value) : Prop :=
  ∃ t position, (Value.text t, position) ∈ motors.entries?.getD [] ∧ t.isEmpty = false ∧
    position.IsTooLarge

end Value

/-! ### The checks -/

theorem isPosition_eq_error_iff {v : Value} {fault : ValueFault} :
    isPosition v = .error fault ↔ fault = .intTooLarge ∧ v.IsTooLarge := by
  unfold isPosition
  by_cases hnumber : v.isNumber = true
  · rw [if_pos hnumber, ← Value.toReal_eq_error_iff hnumber, Value.isFiniteNumber]
    cases v.toReal <;> simp
  · rw [if_neg hnumber]
    refine ⟨nofun, ?_⟩
    rintro ⟨-, i, rfl, -⟩
    exact absurd rfl hnumber

/-- Motors fail the check for problems with the first position that is too large. -/
theorem motorProblems_eq_error {motors : Entries} {fault : ValueFault}
    (h : motorProblems motors = .error fault) :
    fault = .intTooLarge ∧ (Value.map motors).HasTooLargePosition := by
  induction motors with
  | nil => cases h
  | cons e rest ih =>
    obtain ⟨mnemonic, position⟩ := e
    have hrest : motorProblems rest = .error fault →
        fault = .intTooLarge ∧ (Value.map ((mnemonic, position) :: rest)).HasTooLargePosition := by
      intro h
      obtain ⟨rfl, t, p, hmem, hp⟩ := ih h
      exact ⟨rfl, t, p, List.mem_cons_of_mem _ hmem, hp⟩
    have hproblem : ∀ problem : Problem,
        (do return problem :: (← motorProblems rest)) = Except.error fault →
          motorProblems rest = .error fault := by
      intro problem h
      rcases Outcome.bind_eq_error.mp h with h | ⟨_, -, h⟩
      · exact h
      · cases h
    unfold motorProblems at h
    split at h
    · next t =>
      split at h
      · exact hrest (hproblem _ h)
      · next hempty =>
        rcases Outcome.bind_eq_error.mp h with h | ⟨ok, -, h⟩
        · obtain ⟨rfl, htoo⟩ := isPosition_eq_error_iff.mp h
          exact ⟨rfl, t, position, List.mem_cons_self, Bool.eq_false_iff.mpr hempty, htoo⟩
        · cases ok with
          | true => exact hrest h
          | false => exact hrest (hproblem _ h)
    · exact hrest (hproblem _ h)

/-- A position that is too large fails the check, whatever else is wrong with the motors. -/
theorem motorProblems_of_tooLarge {motors : Entries} {t : Text} {position : Value}
    (hmem : (Value.text t, position) ∈ motors) (hempty : t.isEmpty = false)
    (htoo : position.IsTooLarge) : motorProblems motors = .error .intTooLarge := by
  induction motors with
  | nil => cases hmem
  | cons e rest ih =>
    obtain ⟨mnemonic, other⟩ := e
    unfold motorProblems
    rcases List.mem_cons.mp hmem with hhead | hmem
    · cases hhead
      dsimp only
      rw [if_neg (Bool.eq_false_iff.mp hempty), isPosition_eq_error_iff.mpr ⟨rfl, htoo⟩]
      rfl
    · rw [ih hmem]
      split
      · split
        · rfl
        · cases hposition : isPosition other with
          | error fault =>
            obtain ⟨rfl, -⟩ := isPosition_eq_error_iff.mp hposition
            rfl
          | ok ok => cases ok <;> rfl
      · rfl

theorem shapeProblems_eq_error_iff {record : Entries} {fault : ValueFault} :
    shapeProblems (.map record) = .error fault ↔
      fault = .intTooLarge ∧ (record.get motorsKey).HasTooLargePosition := by
  unfold shapeProblems
  dsimp only
  cases hmotors : record.get motorsKey with
  | map motors =>
    refine ⟨motorProblems_eq_error, ?_⟩
    rintro ⟨rfl, t, position, hmem, hempty, htoo⟩
    exact motorProblems_of_tooLarge hmem hempty htoo
  | _ =>
    refine ⟨nofun, ?_⟩
    rintro ⟨-, _, _, hmem, -⟩
    cases hmem

namespace Schema

variable {schema : Schema} {record : Entries} {fault : Fault}

/-- The checks report problems, or fail on a position that is too large. -/
theorem validate_eq_error (h : schema.validate (.map record) = .error fault) :
    (∃ problems, fault = .validation problems) ∨
      fault = .value .intTooLarge ∧ (record.get motorsKey).HasTooLargePosition := by
  rcases Outcome.bind_eq_error.mp h with hshape | ⟨problems, -, h⟩
  · cases hproblems : shapeProblems (.map record) with
    | ok _ => rw [hproblems] at hshape; cases hshape
    | error cause =>
      rw [hproblems] at hshape
      cases hshape
      obtain ⟨rfl, htoo⟩ := shapeProblems_eq_error_iff.mp hproblems
      exact .inr ⟨rfl, htoo⟩
  · have hreported : ∀ found : List Problem,
        (if found.isEmpty then .ok () else .error (.validation found)) = Except.error fault →
          ∃ problems, fault = .validation problems := by
      intro found h
      split at h
      · cases h
      · cases h
        exact ⟨_, rfl⟩
    exact .inl (hreported _ h)

end Schema

/-! ### The sid -/

variable {record : Entries} {clock clock' : SidClock} {fault : Fault}

theorem SidClock.seconds_eq_error {reading : Int} {cause : ValueFault}
    (h : SidClock.seconds reading = .error cause) : cause = .intTooLarge := by
  unfold SidClock.seconds at h
  cases hreading : Binary64.ofInt reading with
  | ok x => rw [hreading] at h; cases h
  | error cause =>
    rw [hreading] at h
    cases h
    exact Binary64.ofInt_eq_error hreading

theorem SidClock.next_eq_error (h : SidClock.next.run clock = (.error fault, clock')) :
    fault = .value .intTooLarge ∧
      SidClock.seconds clock.clock.read.1 = .error .intTooLarge := by
  rw [run_apply, SidClock.next_apply] at h
  have hcause : ∀ cause, SidClock.seconds clock.clock.read.1 = .error cause →
      cause = .intTooLarge := fun _ => SidClock.seconds_eq_error
  generalize SidClock.seconds clock.clock.read.1 = rounded at h hcause ⊢
  cases rounded with
  | ok x => cases h
  | error cause =>
    cases h
    rw [hcause cause rfl]
    exact ⟨rfl, rfl⟩

/-- Motors that cannot be split off are no mapping, or have a position that is no number. -/
theorem motorsOf_eq_error {record : Entries} (h : motorsOf record = .error fault) :
    ∃ cause, fault = .value cause := by
  have hpositions : ∀ entries taken, positionsOf taken entries = .error fault →
      ∃ cause, fault = .value cause := by
    intro entries
    induction entries with
    | nil => exact fun _ h => nomatch h
    | cons e rest ih =>
      intro taken h
      unfold positionsOf at h
      split at h
      · exact ih _ h
      · next cause _ => exact ⟨cause, (Except.error.inj h).symm⟩
  unfold motorsOf at h
  dsimp only at h
  split at h
  · split at h
    · exact hpositions _ _ h
    · exact ⟨_, (Except.error.inj h).symm⟩
  · cases h

/-- No sid is derived from a start time that is too large, or from such a reading of the
clock. -/
theorem deriveSid_eq_error (h : (deriveSid record).run clock = (.error fault, clock')) :
    fault = .value .intTooLarge ∧ ((record.get startTimeKey).IsTooLarge ∨
      SidClock.seconds clock.clock.read.1 = .error .intTooLarge) := by
  rcases deriveSid_cases record with hforced | ⟨x, hstart⟩ | ⟨cause, hnumber, hcause, hfault⟩
  · rw [hforced.deriveSid] at h
    exact (SidClock.next_eq_error h).imp id .inr
  · rw [hstart.deriveSid] at h
    cases h
  · rw [hfault] at h
    cases h
    obtain ⟨rfl, htoo⟩ := (Value.toReal_eq_error_iff hnumber).mp hcause
    exact ⟨rfl, .inl htoo⟩

end ScanCatalog
