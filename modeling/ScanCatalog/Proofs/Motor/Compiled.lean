import ScanCatalog.Motor.Compile
import ScanCatalog.Proofs.Action.Outcome

/-!
# Compiled queries

What every query is that a filter compiles to: its mnemonic is a text that is not empty,
its set and its bounds are binary64 numbers, and it has neither if the motor has to be
absent.

## Main definitions

* `PositionQuery.Compiled`: what compiled queries are.

## Main statements

* `compileTerms_compiled`, `compileEntries_compiled`: both compilers give such queries.
-/

namespace ScanCatalog

/-- Whether a value is a binary64 number. -/
def Value.IsReal (v : Value) : Prop := ∃ x, v = .float x

/-- The comparison with the bound at an end of a range. -/
def RangeEnd.comparison : RangeEnd → Bool → Comparison
  | .lower, inclusive => if inclusive then .atLeast else .greater
  | .upper, inclusive => if inclusive then .atMost else .less

namespace PositionQuery

/-- A query of a mnemonic for binary64 numbers, without any for an absent motor. -/
structure Compiled (query : PositionQuery) : Prop where
  mnemonic : ∃ t : Text, query.mnemonic = .text t ∧ t.isEmpty = false
  exact : ∀ values, query.exact = some values → ∀ v ∈ values, v.IsReal
  minimum : ∀ bound, query.minimum = some bound → bound.IsReal
  maximum : ∀ bound, query.maximum = some bound → bound.IsReal
  absent : query.present = false → query.constrainsPosition = false

/-- A query of a mnemonic for binary64 numbers. -/
structure Real (mnemonic : Text) (query : PositionQuery) : Prop where
  mnemonic : query.mnemonic = .text mnemonic
  exact : ∀ values, query.exact = some values → ∀ v ∈ values, v.IsReal
  minimum : ∀ bound, query.minimum = some bound → bound.IsReal
  maximum : ∀ bound, query.maximum = some bound → bound.IsReal

variable {mnemonic : Text} {query query' : PositionQuery}

theorem positionsOf_real {values positions : List Value} (h : positionsOf values = .ok positions) :
    ∀ v ∈ positions, v.IsReal := by
  refine Outcome.forall_of_mapM_eq_ok h fun v position hv => ?_
  obtain ⟨x, -, hx⟩ := Outcome.bind_eq_ok.mp hv
  cases hx
  exact ⟨x, rfl⟩

theorem Real.narrow (hq : query.Real mnemonic) {values : List Value}
    (hvalues : ∀ v ∈ values, v.IsReal) : (query.narrow values).Real mnemonic where
  mnemonic := hq.mnemonic
  exact := by
    intro narrowed hnarrowed v hv
    cases hnarrowed
    cases hexact : query.exact with
    | none =>
      rw [hexact] at hv
      exact hvalues v hv
    | some current =>
      rw [hexact] at hv
      exact hq.exact current hexact v (List.mem_filter.mp hv).1
  minimum := hq.minimum
  maximum := hq.maximum

theorem Real.atEnd (hq : query.Real mnemonic) {bound : Option Value} {inclusive : Bool}
    (hbound : ∀ b, bound = some b → b.IsReal) (rangeEnd : RangeEnd) :
    (query.atEnd bound inclusive rangeEnd).Real mnemonic := by
  cases rangeEnd with
  | lower => exact ⟨hq.mnemonic, hq.exact, hbound, hq.maximum⟩
  | upper => exact ⟨hq.mnemonic, hq.exact, hq.minimum, hbound⟩

theorem Real.withBound (hq : query.Real mnemonic) {rangeEnd : RangeEnd} {bound : Value}
    {inclusive : Bool} (h : query.withBound rangeEnd bound inclusive = .ok query') :
    query'.Real mnemonic := by
  unfold PositionQuery.withBound at h
  split at h
  · cases h
    exact hq
  · obtain ⟨x, -, h⟩ := Outcome.bind_eq_ok.mp h
    cases h
    refine hq.atEnd ?_ rangeEnd
    rintro _ ⟨⟩
    exact ⟨x, rfl⟩

theorem Real.withPart (hq : query.Real mnemonic) {part : Filter}
    (h : withPart mnemonic query part = .ok query') : query'.Real mnemonic := by
  cases part with
  | literal v =>
    unfold PositionQuery.withPart at h
    dsimp only at h
    split at h
    · obtain ⟨positions, hpositions, h⟩ := Outcome.bind_eq_ok.mp h
      cases h
      exact hq.narrow (positionsOf_real (liftValue_eq_ok.mp hpositions))
    · cases h
  | valueSet raw values =>
    unfold PositionQuery.withPart at h
    dsimp only at h
    split at h
    · obtain ⟨positions, hpositions, h⟩ := Outcome.bind_eq_ok.mp h
      cases h
      exact hq.narrow (positionsOf_real (liftValue_eq_ok.mp hpositions))
    · cases h
  | range raw lower upper lowerInclusive upperInclusive =>
    unfold PositionQuery.withPart at h
    dsimp only at h
    split at h
    · cases h
    · obtain ⟨lowered, hlower, hupper⟩ := Outcome.bind_eq_ok.mp (liftValue_eq_ok.mp h)
      exact (hq.withBound hlower).withBound hupper
  | exist raw present =>
    cases h
    exact ⟨hq.mnemonic, hq.exact, hq.minimum, hq.maximum⟩
  | operator | compound | nested => cases h

/-- After any number of parts an absent motor has no position asked of it. -/
theorem Real.withParts (hq : query.Real mnemonic)
    (habsent : query.present = false → query.constrainsPosition = false) {parts : List Filter}
    (h : withParts mnemonic query parts = .ok query') :
    query'.Real mnemonic ∧ (query'.present = false → query'.constrainsPosition = false) := by
  induction parts generalizing query with
  | nil =>
    cases h
    exact ⟨hq, habsent⟩
  | cons part rest ih =>
    obtain ⟨next, hnext, h⟩ := Outcome.bind_eq_ok.mp h
    split at h
    · cases h
    · next hcontradiction =>
      refine ih (hq.withPart hnext) ?_ h
      intro hpresent
      simpa [hpresent] using hcontradiction

theorem Real.compiled (hq : query.Real mnemonic) (hmnemonic : mnemonic.isEmpty = false)
    (habsent : query.present = false → query.constrainsPosition = false) : query.Compiled :=
  ⟨⟨mnemonic, hq.mnemonic, hmnemonic⟩, hq.exact, hq.minimum, hq.maximum, habsent⟩

theorem real_ofMnemonic (mnemonic : Text) :
    PositionQuery.Real mnemonic { mnemonic := .text mnemonic } :=
  ⟨rfl, by simp, by simp, by simp⟩

theorem ofMotorTerm_compiled {term : MotorTerm} (h : ofMotorTerm term = .ok query) :
    query.Compiled := by
  unfold ofMotorTerm at h
  split at h
  · cases h
  · next hempty =>
    have hmnemonic : term.mnemonic.isEmpty = false := Bool.eq_false_iff.mpr hempty
    split at h
    · cases h
      exact (real_ofMnemonic _).compiled hmnemonic (by simp)
    · obtain ⟨hreal, habsent⟩ := (real_ofMnemonic _).withParts (by simp) h
      exact hreal.compiled hmnemonic habsent

end PositionQuery

variable {queries : List PositionQuery}

theorem mapM_ofMotorTerm_compiled {terms : List MotorTerm}
    (h : terms.mapM PositionQuery.ofMotorTerm = .ok queries) : ∀ query ∈ queries, query.Compiled :=
  Outcome.forall_of_mapM_eq_ok h fun _ _ => PositionQuery.ofMotorTerm_compiled

theorem compileTerms_compiled {terms : Terms} (h : compileTerms terms = .ok queries) :
    ∀ query ∈ queries, query.Compiled := by
  obtain ⟨motorTerms, -, h⟩ := Outcome.bind_eq_ok.mp h
  exact mapM_ofMotorTerm_compiled h

theorem compileEntries_compiled {entries : Entries} (h : compileEntries entries = .ok queries) :
    ∀ query ∈ queries, query.Compiled := by
  obtain ⟨motorTerms, -, h⟩ := Outcome.bind_eq_ok.mp h
  exact mapM_ofMotorTerm_compiled h

end ScanCatalog
