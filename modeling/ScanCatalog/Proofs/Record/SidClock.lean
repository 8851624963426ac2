import ScanCatalog.Proofs.Action.Outcome
import ScanCatalog.Proofs.Binary64.Integers
import ScanCatalog.Record.SidClock

/-!
# How long the sid clock lasts

A sid from the clock is a number of seconds, or one step above the sid before. Nanoseconds
that are a binary64 number are seconds far below the greatest one, so it takes very many
sids in a row to get there.

## Main definitions

* `SidClock.secondsBound`: a rank that no number of seconds goes beyond;
* `SidClock.Within`: a clock whose last sid is at most so many steps beyond it;
* `SidClock.lifetime`: a number of steps in which no clock gets to infinity.

## Main statements

* `Binary64.rankOfRatio_le`: the rank of a quotient is bounded by its size;
* `SidClock.rank_seconds_le`: the rank of a number of seconds;
* `SidClock.Within.next`: the next sid, and how far the clock has gone on;
* `SidClock.Within.last_atMost`, `SidClock.Within.next_above`: it is above those before.
-/

namespace ScanCatalog

namespace Binary64

/-- The units of a rank are bounded by its binade. -/
theorem unitsOfRank_lt_twoTo {rank scale : Nat} (hbinade : rank / binadeSize ≤ scale + 1) :
    unitsOfRank rank < twoTo (53 + scale) := by
  have hfraction : rank % binadeSize < twoTo 52 := Nat.mod_lt _ (by decide)
  have hsignificand : binadeSize + rank % binadeSize < twoTo 53 := by
    rw [twoTo_succ 52]
    change twoTo 52 + rank % binadeSize < _
    omega
  unfold unitsOfRank
  dsimp only
  by_cases hzero : rank / binadeSize = 0
  · rw [if_pos hzero]
    exact Nat.lt_of_lt_of_le hfraction (twoTo_mono (by omega))
  · have hscale : twoTo (rank / binadeSize - 1) ≤ twoTo scale := twoTo_mono (by omega)
    rw [if_neg hzero, twoTo_add]
    exact Nat.mul_lt_mul_of_lt_of_le hsignificand hscale (twoTo_pos _)

/-- The leading bits of a number are a number of at most 53 bits. -/
theorem div_twoTo_log2_lt (q : Nat) : q / twoTo (q.log2 - 52) < twoTo 53 := by
  refine (Nat.div_lt_iff_lt_mul (twoTo_pos _)).mpr ?_
  calc q < 2 ^ (q.log2 + 1) := Nat.lt_log2_self
    _ ≤ twoTo (53 + (q.log2 - 52)) := twoTo_mono (by omega)
    _ = twoTo 53 * twoTo (q.log2 - 52) := twoTo_add 53 (q.log2 - 52)

/-- The rank of a quotient is bounded by its size. -/
theorem rankOfRatio_le {num den size : Nat} (hsize : 52 ≤ size)
    (hlt : num * unitsInOne / den < twoTo (size + 1)) :
    rankOfRatio num den ≤ (size - 50) * binadeSize := by
  unfold rankOfRatio
  dsimp only
  generalize num * unitsInOne = scaled at hlt ⊢
  generalize hq : scaled / den = q at hlt ⊢
  have hlog : q.log2 ≤ size := by
    rcases Nat.eq_zero_or_pos q with rfl | hpos
    · exact Nat.zero_le _
    · exact Nat.lt_succ_iff.mp ((Nat.log2_lt (Nat.ne_of_gt hpos)).mpr hlt)
  have hround : roundHalfEven scaled (den * twoTo (q.log2 - 52)) ≤ 2 * binadeSize := by
    have hbound := (roundHalfEven_bounds scaled (den * twoTo (q.log2 - 52))).2
    rw [← Nat.div_div_eq_div_mul, hq] at hbound
    exact Nat.le_trans hbound (div_twoTo_log2_lt q)
  calc (q.log2 - 52) * binadeSize + roundHalfEven scaled (den * twoTo (q.log2 - 52))
      ≤ (q.log2 - 52) * binadeSize + 2 * binadeSize := Nat.add_le_add_left hround _
    _ = (q.log2 - 52 + 2) * binadeSize := (Nat.add_mul _ _ _).symm
    _ ≤ (size - 50) * binadeSize := Nat.mul_le_mul_right _ (by omega)

/-- Dividing by a number of 30 bits or more takes 29 binades from the rank. -/
theorem rankOfRatio_divideBy_le {rank scale den : Nat} (hbinade : rank / binadeSize ≤ scale + 1)
    (hden : twoTo 29 ≤ den) (hscale : 29 ≤ scale) :
    rankOfRatio (unitsOfRank rank) (den * unitsInOne) ≤ (scale - 27) * binadeSize := by
  have hunits : 0 < unitsInOne := twoTo_pos 1074
  have hpos : 0 < den := Nat.lt_of_lt_of_le (twoTo_pos 29) hden
  have hquotient : unitsOfRank rank / den < twoTo (scale + 23 + 1) := by
    refine (Nat.div_lt_iff_lt_mul hpos).mpr ?_
    calc unitsOfRank rank < twoTo (53 + scale) := unitsOfRank_lt_twoTo hbinade
      _ = twoTo (scale + 23 + 1 + 29) := congrArg twoTo (by omega)
      _ = twoTo (scale + 23 + 1) * twoTo 29 := twoTo_add _ _
      _ ≤ twoTo (scale + 23 + 1) * den := Nat.mul_le_mul_left _ hden
  have hrank : rankOfRatio (unitsOfRank rank) (den * unitsInOne) ≤
      (scale + 23 - 50) * binadeSize := by
    refine rankOfRatio_le (by omega) ?_
    rw [Nat.mul_div_mul_right _ _ hunits]
    exact hquotient
  rwa [show scale + 23 - 50 = scale - 27 by omega] at hrank

/-- The rank of a finite number is in one of 2047 binades. -/
theorem binade_le {rank : Nat} (hrank : rank < rankBound) : rank / binadeSize ≤ 2045 + 1 := by
  unfold rankBound at hrank
  unfold binadeSize
  omega

theorem divideBy_finite (negative : Bool) {rank : Nat} (hrank : rank < rankBound) (den : Nat) :
    (finite negative rank hrank).divideBy den =
      ofRank negative (rankOfRatio (unitsOfRank rank) (den * unitsInOne)) := by
  unfold divideBy ofRatio
  rfl

/-- Every number of a rank is equal to itself, be it an infinity. -/
theorem same_self_ofRank (negative : Bool) (rank : Nat) :
    (ofRank negative rank).same (ofRank negative rank) = true := by
  unfold ofRank
  split
  · exact same_self_of_isFinite rfl
  · cases negative <;> rfl

theorem isFinite_ofRank_of_lt {rank : Nat} (hrank : rank < rankBound) :
    (ofRank false rank).isFinite = true := by
  rw [ofRank, dif_pos hrank]
  rfl

theorem next_ofRank (rank : Nat) : (ofRank false rank).next = ofRank false (rank + 1) := by
  by_cases hrank : rank < rankBound
  · rw [ofRank, dif_pos hrank]
    rfl
  · rw [ofRank, dif_neg hrank, ofRank, dif_neg fun hsucc => hrank (Nat.lt_of_succ_lt hsucc)]
    rfl

/-- There is a number above every number, be it an infinity. -/
theorem same_self_next_of_atMost {x y : Binary64} (h : x.atMost y = true) :
    y.next.same y.next = true := by
  cases y with
  | nan =>
    have hnot : x.quantity.atMost .nan = false := by cases x.quantity <;> rfl
    cases hnot.symm.trans h
  | infinite negative =>
    cases negative with
    | false => rfl
    | true => exact same_self_of_isFinite rfl
  | finite negative rank _ =>
    cases negative with
    | false => exact same_self_ofRank false (rank + 1)
    | true =>
      cases rank with
      | zero => exact same_self_ofRank false 1
      | succ rank => exact same_self_of_isFinite rfl

/-- A number below zero is at most one that is not. -/
theorem atMost_ofRank_of_negative (rank other : Nat) :
    (ofRank true rank).atMost (ofRank false other) = true := by
  have hless : ∀ a b : Nat, (Quantity.units (-(a : Int))).atMost (.units b) = true := by
    intro a b
    rw [Quantity.atMost, Quantity.less, Quantity.same, Bool.or_eq_true, decide_eq_true_eq,
      beq_iff_eq]
    omega
  unfold ofRank atMost
  by_cases hrank : rank < rankBound
  · rw [dif_pos hrank]
    by_cases hother : other < rankBound
    · rw [dif_pos hother]
      exact hless _ _
    · rw [dif_neg hother]
      rfl
  · rw [dif_neg hrank]
    by_cases hother : other < rankBound
    · rw [dif_pos hother]
      rfl
    · rw [dif_neg hother]
      rfl

/-- A number that is not below zero is below those of a higher rank that are finite. -/
theorem less_ofRank {rank other : Nat} (hlt : rank < other) (hother : other < rankBound) :
    (ofRank false rank).less (ofRank false other) = true := by
  unfold ofRank less
  rw [dif_pos hother, dif_pos (Nat.lt_trans hlt hother)]
  exact decide_eq_true (Int.ofNat_lt.mpr (unitsOfRank_lt hlt))

/-- A number that is not below zero is at most those of its rank and above. -/
theorem atMost_ofRank {rank other : Nat} (h : rank ≤ other) :
    (ofRank false rank).atMost (ofRank false other) = true := by
  rcases Nat.eq_or_lt_of_le h with rfl | hlt
  · exact Bool.or_eq_true_iff.mpr (.inr (same_self_ofRank false rank))
  · by_cases hother : other < rankBound
    · exact Bool.or_eq_true_iff.mpr (.inl (less_ofRank hlt hother))
    · unfold ofRank atMost
      rw [dif_neg hother]
      split <;> rfl

theorem atMost_trans {x y z : Binary64} (hxy : x.atMost y = true) (hyz : y.atMost z = true) :
    x.atMost z = true := by
  unfold atMost Quantity.atMost at *
  rw [Bool.or_eq_true] at *
  rcases hxy with hxy | hxy
  · rcases hyz with hyz | hyz
    · exact .inl (Quantity.less_trans hxy hyz)
    · exact .inl ((Quantity.same_iff.mp hyz).1 ▸ hxy)
  · exact (Quantity.same_iff.mp hxy).1 ▸ hyz

/-- What is at most a number is not equal to one above that. -/
theorem same_eq_false_of_less {x y z : Binary64} (hxy : x.atMost y = true)
    (hyz : y.less z = true) : x.same z = false := by
  refine Bool.eq_false_iff.mpr fun hxz => ?_
  obtain ⟨heq, -⟩ := Quantity.same_iff.mp hxz
  have hzz : z.quantity.less z.quantity = true := by
    rcases Bool.or_eq_true_iff.mp hxy with hless | hsame
    · rw [heq] at hless
      exact Quantity.less_trans hless hyz
    · obtain ⟨hxy, -⟩ := Quantity.same_iff.mp hsame
      rw [less, ← hxy, heq] at hyz
      exact hyz
  cases (Quantity.less_irrefl _).symm.trans hzz

end Binary64

namespace SidClock

open Binary64

/-- A rank that no number of seconds goes beyond. -/
def secondsBound : Nat := 2018 * binadeSize

/-- The last sid is not negative, and at most so many steps beyond the greatest number of
seconds. Past the greatest number there is infinity only. -/
def Within (clock : SidClock) (steps : Nat) : Prop :=
  ∃ rank, clock.last = ofRank false rank ∧ rank ≤ secondsBound + steps

/-- In fewer steps than these no clock gets from its readings to infinity. -/
def lifetime : Nat := 0x100000000000000

variable {clock clock' : SidClock} {steps : Nat}

theorem ofReadings_within (readings : List Int) : (ofReadings readings).Within 0 :=
  ⟨0, rfl, Nat.zero_le _⟩

theorem Within.mono (hc : clock.Within steps) {more : Nat} (hmore : steps ≤ more) :
    clock.Within more := by
  obtain ⟨rank, hlast, hrank⟩ := hc
  exact ⟨rank, hlast, Nat.le_trans hrank (Nat.add_le_add_left hmore _)⟩

/-- Within its lifetime a clock gives out finite numbers. -/
theorem isFinite_ofRank {rank : Nat} (hrank : rank ≤ secondsBound + steps)
    (hsteps : steps < lifetime) : (ofRank false rank).isFinite = true := by
  have hlt : rank < rankBound := by
    unfold secondsBound at hrank
    unfold lifetime at hsteps
    unfold binadeSize at hrank
    unfold rankBound
    omega
  exact isFinite_ofRank_of_lt hlt

/-- A number of seconds is a finite number divided. -/
theorem seconds_eq_ok {reading : Int} {x : Binary64} (h : seconds reading = .ok x) :
    ∃ y : Binary64, y.isFinite = true ∧ x = y.divideBy 1000000000 := by
  unfold seconds at h
  have hfinite : ∀ y, Binary64.ofInt reading = .ok y → y.isFinite = true :=
    fun _ hy => (ofInt_eq_ok hy).2
  generalize Binary64.ofInt reading = rounded at h hfinite
  cases rounded with
  | error fault => cases h
  | ok y => exact ⟨y, hfinite y rfl, (Except.ok.inj h).symm⟩

/-- The rank of a number of seconds is bounded. -/
theorem rank_seconds_le {reading : Int} {x : Binary64} (h : seconds reading = .ok x) :
    ∃ negative rank, x = ofRank negative rank ∧ rank ≤ secondsBound := by
  obtain ⟨y, hfinite, rfl⟩ := seconds_eq_ok h
  cases y with
  | finite negative rank hrank =>
    have hden : twoTo 29 ≤ 1000000000 := by decide
    have hle : rankOfRatio (unitsOfRank rank) (1000000000 * unitsInOne) ≤
        (2045 - 27) * binadeSize := rankOfRatio_divideBy_le (binade_le hrank) hden (by decide)
    exact ⟨negative, _, divideBy_finite negative hrank 1000000000, hle⟩
  | _ => cases hfinite

/-- The sid after one within some steps is above it, and within one more. -/
theorem after_ofRank {rank : Nat} (hrank : rank ≤ secondsBound + steps) {reading : Int}
    {x : Binary64} (hx : seconds reading = .ok x) :
    ∃ next, after (ofRank false rank) x = ofRank false next ∧ rank < next ∧
      next ≤ secondsBound + (steps + 1) := by
  obtain ⟨negative, other, rfl, hother⟩ := rank_seconds_le hx
  unfold after
  by_cases hatMost : (ofRank negative other).atMost (ofRank false rank) = true
  · rw [if_pos hatMost, next_ofRank]
    exact ⟨rank + 1, rfl, Nat.lt_succ_self rank, Nat.succ_le_succ hrank⟩
  · rw [if_neg hatMost]
    cases negative with
    | true => exact absurd (atMost_ofRank_of_negative other rank) hatMost
    | false =>
      exact ⟨other, rfl, Nat.lt_of_not_le fun hle => hatMost (atMost_ofRank hle),
        Nat.le_trans hother (Nat.le_add_right _ _)⟩

theorem next_apply (clock : SidClock) :
    SidClock.next clock = clock.give clock.clock.read.2 (seconds clock.clock.read.1) := rfl

/-- The sid for a number of seconds. -/
theorem next_run_of_seconds {x : Binary64} (hx : seconds clock.clock.read.1 = .ok x) :
    SidClock.next.run clock =
      (.ok (after clock.last x), ⟨clock.clock.read.2, after clock.last x⟩) := by
  rw [Action.run_apply, next_apply]
  -- the number of seconds is a variable from here on, as it would be worked out otherwise
  generalize seconds clock.clock.read.1 = rounded at hx ⊢
  rw [hx]
  rfl

/-- Whatever was given out before, the next sid is a number. -/
theorem same_self_of_next {x : Binary64}
    (hrun : SidClock.next.run clock = (.ok x, clock')) : x.same x = true := by
  rw [Action.run_apply, next_apply] at hrun
  have hseconds : ∀ s, seconds clock.clock.read.1 = .ok s → s.same s = true := by
    intro s hs
    obtain ⟨negative, rank, rfl, -⟩ := rank_seconds_le hs
    exact same_self_ofRank negative rank
  -- the number of seconds is a variable from here on, as it would be worked out otherwise
  generalize seconds clock.clock.read.1 = rounded at hrun hseconds
  cases rounded with
  | error fault => cases hrun
  | ok s =>
    cases hrun
    by_cases hatMost : s.atMost clock.last = true
    · simp only [after, hatMost, ↓reduceIte]
      exact same_self_next_of_atMost hatMost
    · simp only [after, hatMost]
      exact hseconds s rfl

/-- A clock gives a sid above the last one, which is the last one then, and at most one step
further; or it gives none, and the last one stays. -/
theorem next_run_cases {rank : Nat} (hlast : clock.last = ofRank false rank)
    (hrank : rank ≤ secondsBound + steps) {outcome : Except Fault Binary64}
    (hrun : SidClock.next.run clock = (outcome, clock')) :
    (∃ fault, outcome = .error fault ∧ clock'.last = clock.last) ∨
      ∃ further, outcome = .ok (ofRank false further) ∧ clock'.last = ofRank false further ∧
        rank < further ∧ further ≤ secondsBound + (steps + 1) := by
  rw [Action.run_apply, next_apply] at hrun
  have hafter : ∀ x, seconds clock.clock.read.1 = .ok x → ∃ further,
      after clock.last x = ofRank false further ∧ rank < further ∧
        further ≤ secondsBound + (steps + 1) := by
    rw [hlast]
    exact fun x hx => after_ofRank hrank hx
  -- the number of seconds is a variable from here on, as it would be worked out otherwise
  generalize seconds clock.clock.read.1 = rounded at hrun hafter
  cases rounded with
  | error fault =>
    cases hrun
    exact .inl ⟨_, rfl, rfl⟩
  | ok x =>
    obtain ⟨further, hfurther, habove, hle⟩ := hafter x rfl
    cases hrun
    exact .inr ⟨further, congrArg _ hfurther, hfurther, habove, hle⟩

/-- The next sid is one step further at most, and so is the clock. -/
theorem Within.next (hc : clock.Within steps) {outcome : Except Fault Binary64}
    (hrun : SidClock.next.run clock = (outcome, clock')) :
    clock'.Within (steps + 1) ∧ ∀ x, outcome = .ok x →
      ∃ rank, x = ofRank false rank ∧ rank ≤ secondsBound + (steps + 1) := by
  obtain ⟨rank, hlast, hrank⟩ := hc
  rcases next_run_cases hlast hrank hrun with
    ⟨fault, rfl, hsame⟩ | ⟨further, rfl, hfurther, -, hle⟩
  · exact ⟨⟨rank, hsame.trans hlast, Nat.le_succ_of_le hrank⟩, nofun⟩
  · exact ⟨⟨further, hfurther, hle⟩, fun y hy => ⟨further, (Except.ok.inj hy).symm, hle⟩⟩

theorem Within.last_atMost_self (hc : clock.Within steps) :
    clock.last.atMost clock.last = true := by
  obtain ⟨rank, hlast, -⟩ := hc
  rw [hlast]
  exact atMost_ofRank (Nat.le_refl rank)

/-- The last sid of a clock only grows. -/
theorem Within.last_atMost (hc : clock.Within steps) {outcome : Except Fault Binary64}
    (hrun : SidClock.next.run clock = (outcome, clock')) :
    clock.last.atMost clock'.last = true := by
  obtain ⟨rank, hlast, hrank⟩ := id hc
  rcases next_run_cases hlast hrank hrun with
    ⟨fault, -, hsame⟩ | ⟨further, -, hfurther, habove, -⟩
  · rw [hsame]
    exact hc.last_atMost_self
  · rw [hlast, hfurther]
    exact atMost_ofRank (Nat.le_of_lt habove)

/-- A sid from a clock is the last one then, and above the last one before if it is finite. -/
theorem Within.next_above (hc : clock.Within steps) {x : Binary64}
    (hrun : SidClock.next.run clock = (.ok x, clock')) :
    clock'.last = x ∧ (x.isFinite = true → clock.last.less x = true) := by
  obtain ⟨rank, hlast, hrank⟩ := hc
  rcases next_run_cases hlast hrank hrun with ⟨_, houtcome, -⟩ | ⟨further, houtcome, hfurther, habove, -⟩
  · cases houtcome
  · obtain rfl := Except.ok.inj houtcome
    refine ⟨hfurther, fun hfinite => ?_⟩
    rw [hlast]
    refine less_ofRank habove (Nat.lt_of_not_le fun hle => ?_)
    rw [ofRank, dif_neg (Nat.not_lt.mpr hle)] at hfinite
    cases hfinite

end SidClock

end ScanCatalog
