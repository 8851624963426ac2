import ScanCatalog.Proofs.Record.Completed
import ScanCatalog.Proofs.Record.Permitted

/-!
# Records that are submitted again

A record takes its sid from its start time, and the record that its parts make has this sid. When
that is submitted again, the sid is looked at before the start time, and one below zero asks for
a sid from the clock. So such a record is split into the same parts again, unless its start time
lies below zero.

## Main definitions

* `Entries.completedAt`: the record that the parts of a record make.

## Main statements

* `Entries.documentOf_completedAt`, `Entries.MotorsFit.motorsOf_completedAt`: the parts of what is
  submitted again;
* `decompose_completed`: splitting, completing and splitting again.
-/

namespace ScanCatalog

open ScanCatalog.Action

namespace Entries

/-- The record that the document of a record with a sid makes with motors. -/
def completedAt (record : Entries) (x : Binary64) (motors : Entries) : Entries :=
  (documentOf record x).set motorsKey (.map motors)

variable {record : Entries} {x : Binary64}

/-! ### The record that the parts make -/

theorem get_sid_completedAt (record : Entries) (x : Binary64) (motors : Entries) :
    (record.completedAt x motors).get sidKey = .float x := by
  have hne : motorsKey ≠ Value.text "sid" := by decide
  unfold completedAt get
  rw [get?_set_of_ne hne]
  exact get_sid_documentOf record x

theorem get_startTime_completedAt (record : Entries) (x : Binary64) (motors : Entries) :
    (record.completedAt x motors).get startTimeKey = record.get startTimeKey := by
  have hmotors : motorsKey ≠ Value.text "start_time" := by decide
  have hsid : sidKey ≠ Value.text "start_time" := by decide
  have hkept : ∀ e ∈ record, e.1 = .text "start_time" → (!motorsKey.same e.1) = true := by
    intro e _ hkey
    rw [hkey]
    decide
  unfold completedAt documentOf get
  rw [get?_set_of_ne hmotors, get?_set_of_ne hsid]
  exact congrArg (Option.getD · Value.null) (get?_filter hkept)

theorem get_motors_completedAt (record : Entries) (x : Binary64) (motors : Entries) :
    (record.completedAt x motors).get motorsKey = .map motors := by
  unfold completedAt get
  rw [get?_set_self]
  rfl

/-- The sid that is put in is there already. -/
theorem documentOf_completedAt (record : Entries) (x : Binary64) (motors : Entries) :
    documentOf (record.completedAt x motors) x = documentOf record x := by
  have herase : (record.completedAt x motors).erase motorsKey = documentOf record x := by
    rw [completedAt, erase_set_self, erase_of_not_has (has_motors_documentOf record x)]
  unfold documentOf at herase ⊢
  rw [herase, set_set]

/-! ### The motors -/

/-- Motors that fit are split off, and as they are the next time. -/
theorem MotorsFit.motorsOf_completedAt (h : record.MotorsFit)
    (hkeys : (record.get motorsKey).DistinctKeys) (x : Binary64) :
    ∃ motors, motorsOf record = .ok motors ∧
      motorsOf (record.completedAt x motors) = .ok motors := by
  have hrequired : ∀ key, Schema.empty.Requires key → record.has (.text key) = true := by
    rintro _ ⟨_, hentry, -⟩
    cases hentry
  have hvalid : Schema.empty.validate (.map record) = .ok () :=
    Schema.validate_eq_ok_iff.mpr ⟨h, ⟨hrequired, fun _ _ => .inl rfl⟩⟩
  obtain ⟨ps, hps, -, hchecked⟩ := Schema.positions_of_validate hvalid hkeys
  have hdistinct : ps.toEntries.Distinct := motorsOf_distinct hps
  refine ⟨ps.toEntries, hps, ?_⟩
  rw [checkMotors_map] at hchecked
  unfold motorsOf
  rw [get_motors_completedAt]
  cases ps with
  | nil => rfl
  | cons p rest =>
    have htaken : Entries.Distinct ([] ++ Positions.toEntries (p :: rest)) := hdistinct
    exact positionsOf_of_checkedEntries hchecked htaken

end Entries

/-! ### Splitting again -/

variable {record : Entries} {x : Binary64}

theorem decompose_run_of_deriveSid {motors : Entries} {clock clock' : SidClock}
    (hsid : (deriveSid record).run clock = (.ok x, clock')) (hmotors : motorsOf record = .ok motors) :
    (decompose record).run clock = (.ok (documentOf record x, ⟨.float x, motors⟩), clock') :=
  decompose_eq_ok.mpr ⟨x, motors, hsid, hmotors, rfl, rfl⟩

/-- A record of the right shape whose sid is its start time is split without a look at the clock,
and its parts can be completed. If the start time is not below zero, what they make is split into
the same parts, without a look at the clock again. If it is below zero, the clock gives what they
make another sid. -/
theorem decompose_completed (hjson : (Value.map record).IsJson)
    (hshape : shapeProblems (.map record) = .ok []) (hstarts : record.StartsAt x) :
    ∃ document motorRecord completed,
      (∀ clock, (decompose record).run clock = (.ok (document, motorRecord), clock)) ∧
      complete document motorRecord = .ok completed ∧
      (x.less .zero = false →
        ∀ clock, (decompose completed).run clock = (.ok (document, motorRecord), clock)) ∧
      (x.less .zero = true → deriveSid completed = SidClock.next) := by
  have hkeys : (record.get motorsKey).DistinctKeys := (hjson.get "motors").distinctKeys
  have hfits : record.MotorsFit := Entries.shapeProblems_eq_nil_iff.mp hshape
  obtain ⟨motors, hmotors, hagain⟩ := hfits.motorsOf_completedAt hkeys x
  have hsame : ((documentOf record x).get sidKey).same (.float x) = true := by
    rw [get_sid_documentOf]
    exact Binary64.same_self_of_isFinite hstarts.finite
  have hnegative :
      ((record.completedAt x motors).get sidKey).isNegativeNumber = x.less .zero := by
    rw [Entries.get_sid_completedAt]
    rfl
  refine ⟨documentOf record x, ⟨.float x, motors⟩, record.completedAt x motors, fun clock => ?_,
    if_pos hsame, fun hnot clock => ?_, fun hbelow => ?_⟩
  · refine decompose_run_of_deriveSid ?_ hmotors
    rw [hstarts.deriveSid]
    rfl
  · have hrestarts : (record.completedAt x motors).StartsAt x := by
      refine ⟨hnegative.trans hnot, ?_, ?_, hstarts.finite⟩
      · rw [Entries.get_startTime_completedAt]
        exact hstarts.number
      · rw [Entries.get_startTime_completedAt]
        exact hstarts.real
    rw [← Entries.documentOf_completedAt record x motors]
    refine decompose_run_of_deriveSid ?_ hagain
    rw [hrestarts.deriveSid]
    rfl
  · exact Entries.IsForced.deriveSid (.inl (hnegative.trans hbelow))

/-- The number 2.0. -/
def two : Binary64 := .ofRank false 0x4000000000000000

/-- The number -2.0. -/
def minusTwo : Binary64 := .ofRank true 0x4000000000000000

/-- A record with integers for its start time and its one position, and with a sid that is no
number. -/
def startedRecord : Entries :=
  [("sid", "scan"), ("start_time", .int 2), ("motors", .map [("samx", .int 2)])]

theorem decompose_completed_startedRecord :
    (Value.map startedRecord).IsJson ∧ shapeProblems (.map startedRecord) = .ok [] ∧
      startedRecord.StartsAt two ∧ ∃ document motorRecord completed,
        complete document motorRecord = .ok completed ∧
        (∀ clock, (decompose startedRecord).run clock = (.ok (document, motorRecord), clock)) ∧
        ∀ clock, (decompose completed).run clock = (.ok (document, motorRecord), clock) := by
  have hmotors : (Value.map [("samx", .int 2)]).IsJson :=
    .map (List.forall_mem_singleton.mpr ⟨_, rfl⟩) (List.pairwise_singleton _ _)
      (List.forall_mem_singleton.mpr (.int 2))
  have hjson : (Value.map startedRecord).IsJson := by
    refine .map ?_ (by unfold Entries.Distinct; decide) ?_
    · simp [startedRecord, Entries.TextKeys]
    · simp only [startedRecord, List.forall_mem_cons]
      exact ⟨.text "scan", .int 2, hmotors, List.forall_mem_nil _⟩
  have hshape : shapeProblems (.map startedRecord) = .ok [] := by decide +kernel
  have hstarts : startedRecord.StartsAt two := ⟨rfl, rfl, by decide +kernel, rfl⟩
  obtain ⟨document, motorRecord, completed, hfirst, hcompleted, hagain, -⟩ :=
    decompose_completed hjson hshape hstarts
  exact ⟨hjson, hshape, hstarts, document, motorRecord, completed, hcompleted, hfirst,
    hagain (by decide +kernel)⟩

/-- A record whose start time lies below zero. -/
def earlyRecord : Entries := [("start_time", .float minusTwo)]

/-- Its start time is its sid, but what its parts make is given another sid. -/
theorem decompose_completed_other_sid :
    (Value.map earlyRecord).IsJson ∧ shapeProblems (.map earlyRecord) = .ok [] ∧
      earlyRecord.StartsAt minusTwo ∧ ∃ document motorRecord completed sid clock,
        (decompose earlyRecord).run clock = (.ok (document, motorRecord), clock) ∧
        motorRecord.sid = .float minusTwo ∧ complete document motorRecord = .ok completed ∧
        ((deriveSid completed).run clock).1 = .ok sid ∧ sid.same minusTwo = false := by
  have hjson : (Value.map earlyRecord).IsJson :=
    .map (List.forall_mem_singleton.mpr ⟨_, rfl⟩) (List.pairwise_singleton _ _)
      (List.forall_mem_singleton.mpr (.float _))
  have hcomplete : complete (documentOf earlyRecord minusTwo) ⟨.float minusTwo, []⟩ =
      .ok (earlyRecord.completedAt minusTwo []) := by decide +kernel
  exact ⟨hjson, rfl, ⟨rfl, rfl, rfl, rfl⟩, _, _, _, .finite false 1 (by decide), .ofReadings [0],
    rfl, rfl, hcomplete, by decide +kernel, by decide +kernel⟩

end ScanCatalog
