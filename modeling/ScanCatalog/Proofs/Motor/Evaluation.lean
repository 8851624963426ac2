import ScanCatalog.Proofs.Motor.History

/-!
# Queries evaluated in memory

A query can also be asked of the motors of a record without the tables. There a bound that
is passed is looked for, while a statement looks for a bound that is kept. The two agree on
numbers; a bound that is not a number is never passed and never kept, so that it asks for
nothing in memory and lets no scan through in a statement.

## Main definitions

* `PositionQuery.HasNanBound`: a bound that is not a number.

## Main statements

* `PositionQuery.accepts_float`: the bounds and the set of a query;
* `PositionQuery.allSatisfiedBy_positions`: queries on the motors of a record;
* `MotorStore.byQueries_evaluated`: the answer of the tables by the evaluation in memory.
-/

namespace ScanCatalog

open ScanCatalog.Action MotorStore

namespace Quantity

/-- Of two numbers one is less than the other unless the other is at most the one. -/
theorem less_eq_not_atMost {a b : Quantity} (ha : a ≠ .nan) (hb : b ≠ .nan) :
    b.less a = !a.atMost b := by
  cases a with
  | units m =>
    cases b with
    | units n =>
      rw [Bool.eq_iff_iff]
      simp [less, atMost, same]
      omega
    | _ => simp_all [less, atMost, same]
  | _ => cases b <;> simp_all [less, atMost, same]

/-- What is at least a number is not less than it; what is greater is not the same either. -/
theorem ofQuantities_not_below {a b : Quantity} (ha : a ≠ .nan) (hb : b ≠ .nan)
    (inclusive : Bool) :
    (if inclusive then Comparison.atLeast else .greater).ofQuantities a b =
      (!Comparison.less.ofQuantities a b && (inclusive || !a.same b)) := by
  cases inclusive with
  | true => simp [Comparison.ofQuantities, less_eq_not_atMost hb ha]
  | false => simp [Comparison.ofQuantities, less_eq_not_atMost ha hb, atMost]

/-- What is at most a number is not greater than it; what is less is not the same either. -/
theorem ofQuantities_not_above {a b : Quantity} (ha : a ≠ .nan) (hb : b ≠ .nan)
    (inclusive : Bool) :
    (if inclusive then Comparison.atMost else .less).ofQuantities a b =
      (!Comparison.greater.ofQuantities a b && (inclusive || !a.same b)) := by
  cases inclusive with
  | true => simp [Comparison.ofQuantities, less_eq_not_atMost ha hb]
  | false => simp [Comparison.ofQuantities, less_eq_not_atMost hb ha, atMost, same_comm b a]

end Quantity

/-- Nothing compares with what is not a number. -/
theorem Comparison.ofQuantities_nan (c : Comparison) (a : Quantity) :
    c.ofQuantities a .nan = false := by
  cases c <;> cases a <;> rfl

namespace Binary64

theorem quantity_eq_nan_iff {x : Binary64} : x.quantity = .nan ↔ x = .nan := by
  cases x with
  | nan => simp [quantity]
  | infinite negative => cases negative <;> simp [quantity]
  | finite negative => cases negative <;> simp [quantity]

theorem quantity_ne_nan_of_isFinite {x : Binary64} (h : x.isFinite = true) :
    x.quantity ≠ .nan := by
  obtain ⟨n, hn⟩ := isFinite_iff.mp h
  simp [hn]

end Binary64

namespace PositionQuery

/-- A bound that is not a number. -/
def HasNanBound (query : PositionQuery) : Prop :=
  query.minimum = some (.float .nan) ∨ query.maximum = some (.float .nan)

instance (query : PositionQuery) : Decidable query.HasNanBound := instDecidableOr

variable {query : PositionQuery} {position : Binary64}

/-! ### Positions -/

theorem keepsTo_float (beyond : Comparison) (inclusive : Bool) (bound position : Binary64) :
    keepsTo beyond inclusive (some (.float bound)) (.float position) =
      .ok (!beyond.ofQuantities position.quantity bound.quantity &&
        (inclusive || !position.quantity.same bound.quantity)) := by
  unfold keepsTo
  dsimp only
  rw [Value.compare_floats, Outcome.ok_bind, Value.same_float, Binary64.same]
  cases beyond.ofQuantities position.quantity bound.quantity <;> rfl

/-- A bound is kept if it is not passed, but one that is not a number is neither. -/
theorem keepsTo_real {beyond within : Comparison} {inclusive : Bool}
    (hwithin : ∀ a b : Quantity, a ≠ .nan → b ≠ .nan →
      within.ofQuantities a b = (!beyond.ofQuantities a b && (inclusive || !a.same b)))
    (hposition : position.isFinite = true) {bound : Option Value} (hbound : ∀ v ∈ bound, v.IsReal) :
    ∃ kept, keepsTo beyond inclusive bound (.float position) = .ok kept ∧
      ((∀ v ∈ bound, (Value.float position).compare within v = .ok true) ↔
        kept = true ∧ bound ≠ some (.float .nan)) := by
  cases bound with
  | none => exact ⟨true, rfl, by simp⟩
  | some v =>
    obtain ⟨x, rfl⟩ := hbound v rfl
    refine ⟨_, keepsTo_float beyond inclusive x position, ?_⟩
    have hp := Binary64.quantity_ne_nan_of_isFinite hposition
    by_cases hx : x = .nan
    · subst hx
      have hnever : within.ofQuantities position.quantity Binary64.nan.quantity = false :=
        Comparison.ofQuantities_nan within _
      simp [Value.compare_floats, hnever]
    · rw [← hwithin _ _ hp (mt Binary64.quantity_eq_nan_iff.mp hx)]
      simp [Value.compare_floats, hx]

/-- A query accepts the positions that it allows, if its bounds are numbers. -/
theorem accepts_float (hquery : query.Compiled) (hposition : position.isFinite = true) :
    ∃ accepted, query.accepts (.float position) = .ok accepted ∧
      (query.Allows (.float position) ↔ accepted = true ∧ ¬ query.HasNanBound) := by
  obtain ⟨above, habove, hminimum⟩ := keepsTo_real
    (fun _ _ ha hb => Quantity.ofQuantities_not_below ha hb query.minInclusive) hposition
    fun v hv => hquery.minimum v hv
  obtain ⟨below, hbelow, hmaximum⟩ := keepsTo_real
    (fun _ _ ha hb => Quantity.ofQuantities_not_above ha hb query.maxInclusive) hposition
    fun v hv => hquery.maximum v hv
  have hset : (∀ values ∈ query.exact, ∃ v ∈ values, (Value.float position).same v = true) ↔
      (query.exact.all fun values => (Value.float position).isIn values) = true := by
    cases query.exact <;> simp [Value.isIn]
  refine ⟨(query.exact.all fun values => (Value.float position).isIn values) && (above && below),
    ?_, ?_⟩
  · unfold accepts
    rw [habove, hbelow]
    cases query.exact.all fun values => (Value.float position).isIn values
    · rfl
    · cases above <;> rfl
  · unfold Allows HasNanBound
    rw [hset, hminimum, hmaximum, Bool.and_eq_true, Bool.and_eq_true, not_or]
    tauto

/-! ### Motors -/

theorem get?_toEntries (ps : Positions) (t : Text) :
    ps.toEntries.get? (.text t) = (ps.find? fun p => p.1 = t).map fun p => .float p.2 := by
  induction ps with
  | nil => rfl
  | cons p rest ih =>
    rw [Positions.toEntries_cons, Entries.get?_cons, Value.same_text, ih]
    by_cases ht : t = p.1
    · simp [ht]
    · rw [List.find?_cons_of_neg (by simpa using Ne.symm ht), beq_false_of_ne ht]
      rfl

/-- The motors have one of the mnemonic just if it is found at its position. -/
theorem exists_toEntries {ps : Positions} (hps : ps.Pairwise fun p q => p.1 ≠ q.1) (t : Text)
    (property : Value → Prop) :
    (∃ motor ∈ ps.toEntries, motor.1.same (.text t) = true ∧ property motor.2) ↔
      ∃ p, ps.find? (fun p => p.1 = t) = some p ∧ property (.float p.2) := by
  induction ps with
  | nil => simp
  | cons p rest ih =>
    obtain ⟨hp, hrest⟩ := List.pairwise_cons.mp hps
    rw [Positions.toEntries_cons, List.exists_mem_cons_iff, ih hrest, Value.same_text, beq_iff_eq]
    by_cases ht : p.1 = t
    · -- no other motor has the mnemonic
      have hnone : rest.find? (fun q => q.1 = t) = none := by
        rw [List.find?_eq_none]
        intro q hq
        simpa [← ht] using (hp q hq).symm
      simp [ht, hnone]
    · simp [ht]

/-- Asking the motors of a record in memory agrees with what the query asks, if its bounds
are numbers. -/
theorem isSatisfiedBy_positions (hquery : query.Compiled) {ps : Positions} (hps : ps.Valid) :
    ∃ satisfied, query.isSatisfiedBy ps.toEntries = .ok satisfied ∧
      (query.Holds ps.toEntries ↔ satisfied = true ∧ ¬ query.HasNanBound) := by
  obtain ⟨t, ht, -⟩ := hquery.mnemonic
  have hhashable : (Value.text t).isHashable = true := rfl
  unfold isSatisfiedBy Holds
  rw [ht, if_pos hhashable, get?_toEntries]
  cases hpresent : query.present with
  | true =>
    rw [if_pos rfl, exists_toEntries hps.distinct]
    cases hfind : ps.find? fun p => p.1 = t with
    | none => exact ⟨false, rfl, by simp⟩
    | some p =>
      obtain ⟨accepted, haccepted, hallows⟩ :=
        accepts_float hquery (hps.finite p (List.mem_of_find?_eq_some hfind))
      exact ⟨accepted, haccepted, by simp [hallows]⟩
  | false =>
    have hbounds : ¬ query.HasNanBound := by
      have habsent := hquery.absent hpresent
      unfold constrainsPosition at habsent
      rintro (hbound | hbound) <;> simp [hbound] at habsent
    have hnone : (∀ motor ∈ ps.toEntries, motor.1.same (.text t) = false) ↔
        ps.find? (fun p => p.1 = t) = none := by
      have hfound := exists_toEntries hps.distinct t fun _ => True
      rw [Option.eq_none_iff_forall_ne_some]
      refine ⟨fun hnone p hp => ?_, fun hnone motor hmotor => ?_⟩
      · obtain ⟨motor, hmotor, hsame, -⟩ := hfound.mpr ⟨p, hp, trivial⟩
        rw [hnone motor hmotor] at hsame
        cases hsame
      · refine Bool.eq_false_iff.mpr fun hsame => ?_
        obtain ⟨p, hp, -⟩ := hfound.mp ⟨motor, hmotor, hsame, trivial⟩
        exact hnone p hp
    rw [if_neg Bool.false_ne_true, hnone]
    cases ps.find? fun p => p.1 = t
    · exact ⟨true, rfl, by simp [hbounds]⟩
    · exact ⟨false, rfl, by simp⟩

/-- So does asking them for several queries in turn. -/
theorem allSatisfiedBy_positions {ps : Positions} (hps : ps.Valid) {queries : List PositionQuery}
    (hqueries : ∀ query ∈ queries, query.Compiled) :
    ∃ satisfied, allSatisfiedBy ps.toEntries queries = .ok satisfied ∧
      ((∀ query ∈ queries, query.Holds ps.toEntries) ↔
        satisfied = true ∧ ∀ query ∈ queries, ¬ query.HasNanBound) := by
  induction queries with
  | nil => exact ⟨true, rfl, by simp⟩
  | cons query rest ih =>
    obtain ⟨hquery, hrest⟩ := List.forall_mem_cons.mp hqueries
    obtain ⟨first, hfirst, hholds⟩ := isSatisfiedBy_positions hquery hps
    obtain ⟨others, hothers, hall⟩ := ih hrest
    refine ⟨first && others, ?_, ?_⟩
    · unfold allSatisfiedBy
      rw [hfirst, hothers]
      cases first <;> rfl
    · rw [List.forall_mem_cons, List.forall_mem_cons, hall, hholds, Bool.and_eq_true]
      tauto

end PositionQuery

/-! ### Stored records -/

theorem Positions.Valid.stored {ps : Positions} (h : ps.Valid) : ps.stored.Valid where
  distinct := List.pairwise_map.mpr h.distinct
  finite := by
    intro p hp
    obtain ⟨q, hq, rfl⟩ := List.mem_map.mp hp
    rw [Binary64.isFinite_dropZeroSign]
    exact h.finite q hq

/-- The motors of a record that a store was given have distinct mnemonics and finite
positions. -/
theorem Session.Stores.positions {config : MotorsConfig} {session : Session TableServer}
    {records : List MotorRecord} (hs : session.Stores config records) :
    ∀ r ∈ records, ∃ ps : Positions, r.motors = ps.toEntries ∧ ps.Valid := by
  induction hs with
  | connected => simp
  | inserted hs hdistinct _ hrun ih =>
    obtain ⟨h, hshows, -⟩ := hs.shows
    intro r hr
    rcases List.mem_append.mp hr with hr | hr
    · exact ih r hr
    · rw [List.mem_singleton.mp hr]
      rcases hshows.insert hdistinct _ hrun with ⟨ps, hm, -, -, -⟩ | ⟨_, _, houtcome, -, -⟩
      · exact ⟨ps.stored, (Positions.stored_toEntries hm).symm,
          (Positions.valid_of_checkMotors hm hdistinct).stored⟩
      · cases houtcome
  | replaced hs hdistinct _ hrun ih =>
    obtain ⟨h, hshows, -⟩ := hs.shows
    intro r hr
    obtain ⟨r', hr', rfl⟩ := List.mem_map.mp hr
    split
    · rcases hshows.replaceMotors hdistinct _ hrun with
        ⟨ps, _, hm, -, -, -, -⟩ | ⟨_, _, houtcome, -, -⟩
      · exact ⟨ps.stored, (Positions.stored_toEntries hm).symm,
          (Positions.valid_of_checkMotors hm hdistinct).stored⟩
      · cases houtcome
    · exact ih r' hr'
  | notInserted _ _ _ _ ih => exact ih
  | notReplaced _ _ _ _ ih => exact ih

namespace MotorStore

variable {config : MotorsConfig}

/-- A question by compiled queries gives the records whose motors satisfy all queries in
memory, in the order of their scans, if all bounds are numbers, and none if one is not. The
evaluation in memory does not fail. The mnemonics of the queries need a UTF-8 form, and the
statement must be within the limits. -/
theorem byQueries_evaluated {session : Session TableServer} {records : List MotorRecord}
    (hs : session.Stores config records) {queries : List PositionQuery}
    (hqueries : PositionQuery.AreCompiled queries)
    (hencodable : ∀ query ∈ queries, ∀ t, query.mnemonic = .text t → t.Encodable)
    (hlimits : (Statement.ofQueries queries).WithinLimits) :
    (∀ r ∈ records, ∃ satisfied, PositionQuery.allSatisfiedBy r.motors queries = .ok satisfied) ∧
      ∃ session', ((onTables config).byQueries queries).run session =
        (.ok (if ∀ query ∈ queries, ¬ query.HasNanBound then
          records.filter fun r => PositionQuery.allSatisfiedBy r.motors queries = .ok true
        else []), session') := by
  have hmemory : ∀ r ∈ records, ∃ satisfied,
      PositionQuery.allSatisfiedBy r.motors queries = .ok satisfied ∧
        ((∀ query ∈ queries, query.Holds r.motors) ↔
          satisfied = true ∧ ∀ query ∈ queries, ¬ query.HasNanBound) := by
    intro r hr
    obtain ⟨ps, hmotors, hps⟩ := hs.positions r hr
    rw [hmotors]
    exact PositionQuery.allSatisfiedBy_positions hps hqueries.forall
  refine ⟨fun r hr => (hmemory r hr).imp fun _ h => h.1, ?_⟩
  obtain ⟨h, hshows, hrecords⟩ := hs.shows
  obtain ⟨session', hrun, -⟩ := hshows.byQueries config hqueries.forall hencodable hlimits
  refine ⟨session', hrun.trans ?_⟩
  rw [hrecords]
  congr 2
  split
  · next hbounds =>
    refine List.filter_congr fun r hr => decide_eq_decide.mpr ?_
    obtain ⟨satisfied, hsatisfied, hholds⟩ := hmemory r hr
    rw [hholds, hsatisfied, Except.ok.injEq]
    exact and_iff_left hbounds
  · next hbounds =>
    rw [List.filter_eq_nil_iff]
    intro r hr hholds
    obtain ⟨_, -, hiff⟩ := hmemory r hr
    exact hbounds (hiff.mp (of_decide_eq_true hholds)).2

end MotorStore

/-! ### A bound that is infinite, and one that is not a number -/

namespace PositionQuery

/-- The query for a motor from zero to below infinity. -/
def belowInfinity : PositionQuery where
  mnemonic := "b"
  minimum := some (.float .zero)
  maximum := some (.float (.infinite false))
  minInclusive := true

theorem belowInfinity_compiled : AreCompiled [belowInfinity] :=
  .inr ⟨[("motors.b", .map [("$gte", .float .zero), ("$lt", .float (.infinite false))])], rfl⟩

/-- The query for a motor above what is not a number. -/
def aboveNan : PositionQuery := { mnemonic := "b", minimum := some (.float .nan) }

theorem aboveNan_compiled : AreCompiled [aboveNan] :=
  .inr ⟨[("motors.b", .map [("$gt", .float .nan)])], rfl⟩

end PositionQuery

namespace MotorStore

theorem byQueries_evaluated_oneScan :
    ∃ session', ((onTables .inMemory).byQueries [.belowInfinity]).run oneScan =
      (.ok [⟨.float .zero, [("b", .float .zero)]⟩], session') := by
  have hencodable : ∀ query ∈ [PositionQuery.belowInfinity], ∀ t, query.mnemonic = .text t →
      t.Encodable := by
    intro query hmem t ht
    rw [List.mem_singleton.mp hmem] at ht
    cases ht
    decide
  obtain ⟨-, session', hrun⟩ := byQueries_evaluated oneScan_stores
    PositionQuery.belowInfinity_compiled hencodable ⟨by decide, by decide⟩
  refine ⟨session', hrun.trans ?_⟩
  have hbounds : ∀ query ∈ [PositionQuery.belowInfinity], ¬ query.HasNanBound := by decide
  have hfound : ([⟨.float .zero, [("b", .float .zero)]⟩] : List MotorRecord).filter
      (fun r => PositionQuery.allSatisfiedBy r.motors [.belowInfinity] = .ok true) =
      [⟨.float .zero, [("b", .float .zero)]⟩] := by decide
  rw [if_pos hbounds, hfound]

/-- A scan satisfies a query in memory whose bound is not a number, and the tables do not
find it. -/
theorem byQueries_aboveNan :
    oneScan.Stores .inMemory [⟨.float .zero, [("b", .float .zero)]⟩] ∧
      PositionQuery.AreCompiled [.aboveNan] ∧
      PositionQuery.allSatisfiedBy [("b", .float .zero)] [.aboveNan] = .ok true ∧
      (((onTables .inMemory).byQueries [.aboveNan]).run oneScan).1 = .ok [] :=
  ⟨oneScan_stores, PositionQuery.aboveNan_compiled, by decide, by decide +kernel⟩

end MotorStore

end ScanCatalog
