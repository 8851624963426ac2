import ScanCatalog.Proofs.Action.Batch
import ScanCatalog.Proofs.Record.Validated

/-!
# The sids of one clock

Each sid from the clock is above the one before, whatever the clock reads, until one of them is
the greatest number. So the records that get their sids from one clock get different ones.

## Main definitions

* `Binary64.greatest`: the greatest finite number;
* `Binary64.Rises`: how a sid goes on from the one before;
* `Binary64.Ascending`: positive finite numbers, each above those before;
* `GetsAbove`: what becomes of a record that needs a sid from the clock.

## Main statements

* `SidClock.next_of_reading`: the sid for one reading;
* `SidClock.mapM_next_rises`: the sids for readings in a row;
* `Binary64.ascending_of_rises`: numbers that rise from zero on are ascending;
* `deriveSid_steps`: the sids of records in a row;
* `SidClock.sids_ascend`: the sids of a clock, and those of the records that get them.
-/

namespace ScanCatalog

namespace Binary64

/-- The greatest finite number. -/
def greatest : Binary64 := ofRank false (rankBound - 1)

theorem zero_less_greatest : zero.less greatest = true := by
  have hzero : zero = ofRank false 0 := rfl
  rw [hzero]
  exact less_ofRank (by decide) (by decide)

/-- Numbers that are positive and finite, each above those before. -/
structure Ascending (xs : List Binary64) : Prop where
  positive : ∀ x ∈ xs, zero.less x = true
  finite : ∀ x ∈ xs, x.isFinite = true
  increasing : xs.Pairwise fun x y => x.less y = true

/-- A number goes on from one below the greatest by a finite number above it. -/
def Rises (x y : Binary64) : Prop :=
  x.less greatest = true → x.less y = true ∧ y.isFinite = true

/-- A number below the greatest is of a lower rank. -/
theorem succ_lt_of_less_greatest {rank : Nat}
    (h : (ofRank false rank).less greatest = true) : rank + 1 < rankBound := by
  refine Nat.lt_of_not_le fun hle => ?_
  have hatMost : greatest.atMost (ofRank false rank) = true :=
    atMost_ofRank (Nat.sub_le_of_le_add hle)
  cases (same_eq_false_of_less hatMost h).symm.trans (same_self_ofRank false (rankBound - 1))

/-- A finite number that is not below zero is below those of a higher rank. -/
theorem less_ofRank_of_lt {rank other : Nat} (hlt : rank < other) (hrank : rank < rankBound) :
    (ofRank false rank).less (ofRank false other) = true := by
  by_cases hother : other < rankBound
  · exact less_ofRank hlt hother
  · unfold ofRank less
    rw [dif_pos hrank, dif_neg hother]
    rfl

theorem rises_ofRank {rank further : Nat} (hlt : rank < further)
    (hfinite : rank + 1 < rankBound → further < rankBound) :
    (ofRank false rank).Rises (ofRank false further) := by
  intro hbelow
  have hfurther : further < rankBound := hfinite (succ_lt_of_less_greatest hbelow)
  exact ⟨less_ofRank hlt hfurther, isFinite_ofRank_of_lt hfurther⟩

/-- Numbers that rise go on above the first one, as long as none is the greatest. -/
theorem above_of_rises {first : Binary64} {xs : List Binary64} {n : Nat}
    (hrises : (first :: xs).IsChain Rises) (hfirst : first.less greatest = true)
    (hbelow : ∀ x ∈ xs.take n, x.less greatest = true) :
    (∀ x ∈ xs.take (n + 1), first.less x = true ∧ x.isFinite = true) ∧
      (xs.take (n + 1)).Pairwise fun x y => x.less y = true := by
  -- each number is the first one for those after it
  induction xs generalizing first n with
  | nil => exact ⟨nofun, .nil⟩
  | cons x xs ih =>
    obtain ⟨hx, hrest⟩ := List.isChain_cons_cons.mp hrises
    have habove := hx hfirst
    rw [List.take_succ_cons]
    cases n with
    | zero => exact ⟨List.forall_mem_singleton.mpr habove, List.pairwise_singleton _ _⟩
    | succ n =>
      obtain ⟨hxBelow, hxsBelow⟩ := List.forall_mem_cons.mp hbelow
      obtain ⟨hxs, hpairwise⟩ := ih hrest hxBelow hxsBelow
      refine ⟨List.forall_mem_cons.mpr ⟨habove, fun y hy => ⟨?_, (hxs y hy).2⟩⟩,
        List.pairwise_cons.mpr ⟨fun y hy => (hxs y hy).1, hpairwise⟩⟩
      exact Quantity.less_trans habove.1 (hxs y hy).1

theorem ascending_of_rises {xs : List Binary64} {n : Nat}
    (hrises : (zero :: xs).IsChain Rises)
    (hbelow : ∀ x ∈ xs.take n, x.less greatest = true) : Ascending (xs.take (n + 1)) := by
  obtain ⟨habove, hincreasing⟩ := above_of_rises hrises zero_less_greatest hbelow
  exact ⟨fun x hx => (habove x hx).1, fun x hx => (habove x hx).2, hincreasing⟩

end Binary64

open Binary64 ScanCatalog.Action

namespace SidClock

variable {clock : SidClock} {rank : Nat}

/-- A clock that reads a number of seconds gives out a sid above the last one, which is finite
unless the last one was the greatest number. -/
theorem next_of_reading (hlast : clock.last = ofRank false rank) {reading : Int}
    {rest : List Int} (hclock : clock.clock.readings = reading :: rest)
    (hseconds : ∃ x, seconds reading = .ok x) :
    ∃ further, SidClock.next.run clock =
        (.ok (ofRank false further), ⟨⟨rest, reading⟩, ofRank false further⟩) ∧
      rank < further ∧ (rank + 1 < rankBound → further < rankBound) := by
  obtain ⟨x, hx⟩ := hseconds
  -- the rank may be anything, so it is counted in steps from the bound
  have hrank : rank ≤ secondsBound + (rank - secondsBound) := by omega
  obtain ⟨further, hfurther, hlt, hle⟩ := after_ofRank hrank hx
  have hread : clock.clock.read = (reading, ⟨rest, reading⟩) := by
    unfold Clock.read
    rw [hclock]
  refine ⟨further, ?_, hlt, fun hbelow => ?_⟩
  · have hseconds : seconds clock.clock.read.1 = .ok x := by rw [hread, hx]
    have hnext := next_run_of_seconds hseconds
    rwa [hread, hlast, hfurther] at hnext
  · have hbound : secondsBound + 1 < rankBound := by decide
    omega

/-- The sids for readings in a row rise from the last one before them. -/
theorem mapM_next_rises {readings : List Int} (hlast : clock.last = ofRank false rank)
    (hclock : clock.clock.readings = readings)
    (hseconds : ∀ reading ∈ readings, ∃ x, seconds reading = .ok x) :
    ∃ sids clock', (readings.mapM fun _ => SidClock.next).run clock = (.ok sids, clock') ∧
      sids.length = readings.length ∧ (clock.last :: sids).IsChain Rises := by
  induction readings generalizing clock rank with
  | nil => exact ⟨[], clock, rfl, rfl, .singleton _⟩
  | cons reading readings ih =>
    obtain ⟨hreading, hrest⟩ := List.forall_mem_cons.mp hseconds
    obtain ⟨further, hnext, hlt, hfinite⟩ := next_of_reading hlast hclock hreading
    have hnextLast : (SidClock.mk ⟨readings, reading⟩ (ofRank false further)).last =
        ofRank false further := rfl
    obtain ⟨sids, clock', hrun, hlength, hrises⟩ := ih hnextLast rfl hrest
    refine ⟨ofRank false further :: sids, clock', ?_, congrArg (· + 1) hlength, ?_⟩
    · rw [List.mapM_cons]
      exact run_bind_eq_ok.mpr ⟨_, _, hnext, run_bind_eq_ok.mpr ⟨_, _, hrun, run_pure _ _⟩⟩
    · refine List.isChain_cons_cons.mpr ⟨?_, hrises⟩
      rw [hlast]
      exact rises_ofRank hlt hfinite

end SidClock

/-! ### The sids of records -/

section

variable {clock : SidClock} {rank : Nat} {record : Entries}

/-- A record that needs no sid from the clock leaves it alone. -/
theorem deriveSid_run_of_not_isForced (clock : SidClock) (hforced : ¬ record.IsForced) :
    ∃ outcome, (deriveSid record).run clock = (outcome, clock) := by
  rcases deriveSid_cases record with h | ⟨x, hstarts⟩ | ⟨cause, -, -, hfault⟩
  · exact absurd h hforced
  · exact ⟨_, by rw [hstarts.deriveSid]; rfl⟩
  · exact ⟨_, by rw [hfault]; rfl⟩

/-- The outcome of a record that needs a sid from the clock: a sid of a higher rank. -/
def GetsAbove (rank : Nat) (p : Entries × Except Fault Binary64) : Prop :=
  p.1.IsForced → ∃ further, p.2 = .ok (ofRank false further) ∧ rank < further

/-- Each record that needs a sid from the clock gets one, of a higher rank than those before. -/
theorem deriveSid_steps {records : List Entries} {readings : List Int}
    (hlast : clock.last = ofRank false rank) (hclock : clock.clock.readings = readings)
    (hseconds : ∀ reading ∈ readings, ∃ x, SidClock.seconds reading = .ok x)
    (hlength : records.length ≤ readings.length) :
    ∃ outcomes clock', Steps (Action.Step deriveSid) clock records outcomes clock' ∧
      (∀ p ∈ records.zip outcomes, GetsAbove rank p) ∧
      (records.zip outcomes).Pairwise fun p q => p.1.IsForced →
        ∃ further, p.2 = .ok (ofRank false further) ∧ GetsAbove further q := by
  -- only a record that needs a sid takes a reading, so the readings left are never too few; the rank
  -- of the last sid is below those of all sids to come
  induction records generalizing clock rank readings with
  | nil => exact ⟨[], clock, .nil clock, nofun, .nil⟩
  | cons record records ih =>
    by_cases hforced : record.IsForced
    · cases readings with
      | nil => cases hlength
      | cons reading readings =>
        obtain ⟨hreading, hrest⟩ := List.forall_mem_cons.mp hseconds
        obtain ⟨further, hnext, hlt, -⟩ := SidClock.next_of_reading hlast hclock hreading
        have hnextLast : (SidClock.mk ⟨readings, reading⟩ (ofRank false further)).last =
            ofRank false further := rfl
        obtain ⟨outcomes, clock', hsteps, habove, hpairwise⟩ :=
          ih hnextLast rfl hrest (Nat.le_of_succ_le_succ hlength)
        refine ⟨.ok (ofRank false further) :: outcomes, clock', .cons ?_ hsteps, ?_, ?_⟩
        · rw [Action.Step, hforced.deriveSid, hnext]
        · refine List.forall_mem_cons.mpr ⟨fun _ => ⟨further, rfl, hlt⟩, fun p hp hp' => ?_⟩
          obtain ⟨other, hother, hfurther⟩ := habove p hp hp'
          exact ⟨other, hother, Nat.lt_trans hlt hfurther⟩
        · exact List.pairwise_cons.mpr ⟨fun p hp _ => ⟨further, rfl, habove p hp⟩, hpairwise⟩
    · obtain ⟨outcome, hrun⟩ := deriveSid_run_of_not_isForced clock hforced
      obtain ⟨outcomes, clock', hsteps, habove, hpairwise⟩ :=
        ih hlast hclock hseconds (Nat.le_of_succ_le hlength)
      refine ⟨outcome :: outcomes, clock', .cons hrun hsteps, ?_, ?_⟩
      · exact List.forall_mem_cons.mpr ⟨fun h => absurd h hforced, habove⟩
      · exact List.pairwise_cons.mpr ⟨fun _ _ h => absurd h hforced, hpairwise⟩

end

namespace SidClock

/-- A clock that reads numbers of seconds, whatever they are and in whatever order, gives out a sid
for each. The sids are positive, finite and ascending as long as none of them is the greatest
number. Records that need a sid from the clock get one each, also among others that need none, and
a later one gets a greater sid than one that is below the greatest number, so a different one. -/
theorem sids_ascend {readings : List Int}
    (hseconds : ∀ reading ∈ readings, ∃ x, seconds reading = .ok x) :
    (∃ sids clock, (readings.mapM fun _ => SidClock.next).run (.ofReadings readings) =
        (.ok sids, clock) ∧
      sids.length = readings.length ∧
      ∀ n, (∀ x ∈ sids.take n, x.less greatest = true) → Ascending (sids.take (n + 1))) ∧
    ∀ records : List Entries, records.length ≤ readings.length →
      ∃ outcomes clock,
        Steps (Action.Step deriveSid) (.ofReadings readings) records outcomes clock ∧
        (∀ p ∈ records.zip outcomes, p.1.IsForced → ∃ x, p.2 = .ok x) ∧
        (records.zip outcomes).Pairwise fun p q => p.1.IsForced → q.1.IsForced →
          ∀ x y, p.2 = .ok x → q.2 = .ok y → x.less greatest = true →
            x.less y = true ∧ x.same y = false := by
  have hlast : (SidClock.ofReadings readings).last = ofRank false 0 := rfl
  refine ⟨?_, fun records hlength => ?_⟩
  · obtain ⟨sids, clock, hrun, hlength, hrises⟩ := mapM_next_rises hlast rfl hseconds
    exact ⟨sids, clock, hrun, hlength, fun n => ascending_of_rises hrises⟩
  · obtain ⟨outcomes, clock, hsteps, habove, hpairwise⟩ :=
      deriveSid_steps hlast rfl hseconds hlength
    refine ⟨outcomes, clock, hsteps, fun p hp hforced => ?_, hpairwise.imp ?_⟩
    · obtain ⟨further, hfurther, -⟩ := habove p hp hforced
      exact ⟨_, hfurther⟩
    · intro p q hpq hp hq x y hx hy hbelow
      obtain ⟨rank, hrank, hqAbove⟩ := hpq hp
      obtain ⟨further, hfurther, hlt⟩ := hqAbove hq
      cases hrank.symm.trans hx
      cases hfurther.symm.trans hy
      have hless := less_ofRank_of_lt hlt
        (Nat.lt_of_succ_lt (succ_lt_of_less_greatest hbelow))
      exact ⟨hless, same_eq_false_of_less (atMost_ofRank (Nat.le_refl rank)) hless⟩

/-- Readings of a clock that stands still, goes back and goes below zero. -/
def standingReadings : List Int := [1000000000, 1000000000, 0, -1000000000]

/-- The sids for these readings: one, and the next three numbers above it. -/
theorem sids_ascend_standing :
    (∀ reading ∈ standingReadings, ∃ x, seconds reading = .ok x) ∧
      ∃ sids clock, (standingReadings.mapM fun _ => SidClock.next).run
          (.ofReadings standingReadings) = (.ok sids, clock) ∧
        sids = [ofRank false 0x3FF0000000000000, ofRank false 0x3FF0000000000001,
          ofRank false 0x3FF0000000000002, ofRank false 0x3FF0000000000003] ∧
        Ascending sids := by
  have hseconds : ∀ reading ∈ standingReadings, ∃ x, seconds reading = .ok x := by
    have hok : ∀ reading ∈ standingReadings, (seconds reading).isOk = true := by decide +kernel
    intro reading hreading
    have hreadingOk := hok reading hreading
    generalize seconds reading = rounded at hreadingOk ⊢
    cases rounded with
    | error fault => cases hreadingOk
    | ok x => exact ⟨x, rfl⟩
  obtain ⟨⟨sids, clock, hrun, -, hascending⟩, -⟩ := sids_ascend hseconds
  have hvalue : ((standingReadings.mapM fun _ => SidClock.next).run
      (.ofReadings standingReadings)).1 =
        .ok [ofRank false 0x3FF0000000000000, ofRank false 0x3FF0000000000001,
          ofRank false 0x3FF0000000000002, ofRank false 0x3FF0000000000003] := by
    decide +kernel
  rw [hrun] at hvalue
  obtain rfl := Except.ok.inj hvalue
  exact ⟨hseconds, _, clock, hrun, rfl, hascending 3 (by decide +kernel)⟩

end SidClock

end ScanCatalog
