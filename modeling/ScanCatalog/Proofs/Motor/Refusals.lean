import ScanCatalog.Proofs.Filter.Parts

/-!
# Filters that do not compile

What a filter asks of motors is checked before it becomes queries, and what is wrong is reported.
A number passes the check whatever it is, and becomes a position after it, so that an integer that
is too large for one stops the compiler. Mnemonics are not checked for a UTF-8 form: they reach
the queries as they stand in the filter.

## Main statements

* `compileTerms_eq_error`: why a filter does not compile;
* `compileTerms_mnemonic`: where the mnemonics of its queries come from.
-/

namespace ScanCatalog

namespace PositionQuery

variable {m : Text} {query : PositionQuery} {fault : Fault} {cause : ValueFault}

theorem positionsOf_eq_error {values : List Value} (hnumbers : values.all Value.isNumber = true)
    (h : positionsOf values = .error cause) :
    cause = .intTooLarge ∧ ∃ v ∈ values, v.IsTooLarge := by
  obtain ⟨v, hv, h⟩ := Outcome.exists_of_mapM_eq_error h
  have hnumber := List.all_eq_true.mp hnumbers v hv
  rcases Outcome.bind_eq_error.mp h with h | ⟨x, -, h⟩
  · obtain ⟨rfl, hlarge⟩ := (Value.toReal_eq_error_iff hnumber).mp h
    exact ⟨rfl, v, hv, hlarge⟩
  · cases h

/-- Numbers fail to become positions only if one is too large. -/
theorem narrow_eq_error {values : List Value} (hnumbers : values.all Value.isNumber = true)
    (h : (do return query.narrow (← liftValue (positionsOf values))) = .error fault) :
    fault = .value .intTooLarge ∧ ∃ v ∈ values, v.IsTooLarge := by
  rcases Outcome.bind_eq_error.mp h with h | ⟨positions, -, h⟩
  · obtain ⟨cause, hcause, rfl⟩ := liftValue_eq_error.mp h
    obtain ⟨rfl, hlarge⟩ := positionsOf_eq_error hnumbers hcause
    exact ⟨rfl, hlarge⟩
  · cases h

/-- A bound that is given fails to become a position only if it is too large for one. -/
theorem bound_eq_error {α : Type} {given : α} {next : Binary64 → α} {bound : Value}
    (hnumber : bound.isNull = false → bound.isNumber = true)
    (h : (if bound.isNull then .ok given else do return next (← bound.toReal)) = .error cause) :
    cause = .intTooLarge ∧ bound.isNull = false ∧ bound.IsTooLarge := by
  split at h
  · cases h
  · next hnull =>
    have hnull := Bool.eq_false_iff.mpr hnull
    rcases Outcome.bind_eq_error.mp h with h | ⟨x, -, h⟩
    · obtain ⟨rfl, hlarge⟩ := (Value.toReal_eq_error_iff (hnumber hnull)).mp h
      exact ⟨rfl, hnull, hlarge⟩
    · cases h

/-- A part of a filter is refused, or has a number that is too large for a position. -/
theorem withPart_eq_error {part : Filter} (h : withPart m query part = .error fault) :
    fault.isReported = true ∨
      fault = .value .intTooLarge ∧ ∃ w, part.Mentions w ∧ w.IsTooLarge := by
  cases part with
  | literal v =>
    unfold withPart at h
    dsimp only at h
    split at h
    · next hnumber =>
      have hall : [v].all Value.isNumber = true := by rw [List.all_cons, hnumber]; rfl
      obtain ⟨rfl, w, hw, hlarge⟩ := narrow_eq_error hall h
      rw [List.mem_singleton.mp hw] at hlarge
      exact .inr ⟨rfl, v, .literal v, hlarge⟩
    · cases h
      exact .inl rfl
  | valueSet raw values =>
    unfold withPart at h
    dsimp only at h
    split at h
    · next hall =>
      obtain ⟨rfl, w, hw, hlarge⟩ := narrow_eq_error hall h
      exact .inr ⟨rfl, w, .member hw, hlarge⟩
    · cases h
      exact .inl rfl
  | range raw lower upper lowerInclusive upperInclusive =>
    unfold withPart at h
    dsimp only at h
    split at h
    · cases h
      exact .inl rfl
    · next hbounds =>
      have hbound : ∀ bound ∈ [lower, upper], bound.isNull = false → bound.isNumber = true :=
        fun bound hmem hnull => isNumber_of_boundFault?_eq_none hbounds hmem hnull
      have hlower : lower ∈ [lower, upper] := List.mem_cons_self
      have hupper : upper ∈ [lower, upper] := List.mem_cons_of_mem _ List.mem_cons_self
      obtain ⟨cause, hcause, rfl⟩ := liftValue_eq_error.mp h
      rcases Outcome.bind_eq_error.mp hcause with hcause | ⟨next, -, hcause⟩
      · obtain ⟨rfl, hnull, hlarge⟩ := bound_eq_error (hbound lower hlower) hcause
        exact .inr ⟨rfl, lower, .bound hlower hnull, hlarge⟩
      · obtain ⟨rfl, hnull, hlarge⟩ := bound_eq_error (hbound upper hupper) hcause
        exact .inr ⟨rfl, upper, .bound hupper hnull, hlarge⟩
  | exist raw present => cases h
  | operator | compound | nested =>
    cases h
    exact .inl rfl

theorem withParts_eq_error {parts : List Filter} (h : withParts m query parts = .error fault) :
    fault.isReported = true ∨
      fault = .value .intTooLarge ∧ ∃ part ∈ parts, ∃ w, part.Mentions w ∧ w.IsTooLarge := by
  induction parts generalizing query with
  | nil => cases h
  | cons part rest ih =>
    unfold withParts at h
    rcases Outcome.bind_eq_error.mp h with h | ⟨next, -, h⟩
    · rcases withPart_eq_error h with hreported | ⟨hfault, w, hw⟩
      · exact .inl hreported
      · exact .inr ⟨hfault, part, List.mem_cons_self, w, hw⟩
    · split at h
      · cases h
        exact .inl rfl
      · rcases ih h with hreported | ⟨hfault, part, hpart, w, hw⟩
        · exact .inl hreported
        · exact .inr ⟨hfault, part, List.mem_cons_of_mem _ hpart, w, hw⟩

/-- The parts of a filter mention what the filter mentions. -/
theorem mentions_of_mem_partsOf {filter part : Filter} {w : Value} (hpart : part ∈ partsOf filter)
    (hw : part.Mentions w) : filter.Mentions w := by
  cases filter with
  | compound raw parts => exact .part hpart hw
  | _ =>
    rw [List.mem_singleton.mp hpart] at hw
    exact hw

theorem ofMotorTerm_eq_error {term : MotorTerm} (h : ofMotorTerm term = .error fault) :
    fault.isReported = true ∨ fault = .value .intTooLarge ∧
      ∃ filter, term.filter = some filter ∧ ∃ w, filter.Mentions w ∧ w.IsTooLarge := by
  unfold ofMotorTerm at h
  split at h
  · cases h
    exact .inl rfl
  split at h
  · cases h
  next filter hfilter =>
  rcases withParts_eq_error h with hreported | ⟨hfault, part, hpart, w, hw, hlarge⟩
  · exact .inl hreported
  · exact .inr ⟨hfault, filter, hfilter, w, mentions_of_mem_partsOf hpart hw, hlarge⟩

theorem mnemonic_of_ofMotorTerm {term : MotorTerm} (h : ofMotorTerm term = .ok query) :
    query.mnemonic = .text term.mnemonic := by
  unfold ofMotorTerm at h
  split at h
  · cases h
  split at h
  · cases h
    rfl
  · exact ((real_ofMnemonic _).withParts (by simp) h).1.mnemonic

end PositionQuery

/-! ### Terms -/

namespace MotorTerm

theorem mem_of_mem_textsOf {values : List Value} {t : Text} (h : t ∈ textsOf values) :
    .text t ∈ values := by
  obtain ⟨v, hv, htext⟩ := List.mem_filterMap.mp h
  cases v with
  | text s => exact Option.some.inj htext ▸ hv
  | _ => cases htext

/-- The motor terms of a term have mnemonics and filters from it: a mnemonic is the end of its
key, or in its filter. -/
theorem ofTerm_eq_ok {key : Text} {filter : Filter} {terms : List MotorTerm}
    (h : ofTerm key filter = .ok terms) {term : MotorTerm} (hterm : term ∈ terms) :
    (term.mnemonic = key.drop motorsStart.length ∨ filter.Mentions (.text term.mnemonic)) ∧
      ∀ asked, term.filter = some asked → ∀ w, asked.Mentions w → filter.Mentions w := by
  unfold ofTerm at h
  split at h
  · unfold ofMotors at h
    split at h
    · cases h
      obtain ⟨field, hfield, rfl⟩ := List.mem_map.mp hterm
      refine ⟨.inr (.name hfield), ?_⟩
      rintro _ ⟨⟩ w hw
      exact .field hfield hw
    · cases h
      cases List.mem_singleton.mp hterm
      exact ⟨.inr (.literal _), nofun⟩
    · split at h
      · cases h
        obtain ⟨t, ht, rfl⟩ := List.mem_map.mp hterm
        exact ⟨.inr (.member (mem_of_mem_textsOf ht)), nofun⟩
      · cases h
    · cases h
  · split at h
    · cases h
      cases List.mem_singleton.mp hterm
      refine ⟨.inl rfl, ?_⟩
      rintro _ ⟨⟩ w hw
      exact hw
    · cases h

end MotorTerm

variable {terms : Terms} {fault : Fault}

theorem motorTermsOf_eq_error (h : motorTermsOf terms = .error fault) :
    fault.isReported = true := by
  induction terms with
  | nil => cases h
  | cons term rest ih =>
    obtain ⟨key, filter⟩ := term
    rcases Outcome.bind_eq_error.mp h with h | ⟨first, -, h⟩
    · cases hterm : MotorTerm.ofTerm key filter with
      | ok first =>
        rw [hterm] at h
        cases h
      | error cause =>
        rw [hterm] at h
        cases h
        rfl
    · rcases Outcome.bind_eq_error.mp h with h | ⟨others, -, h⟩
      · exact ih h
      · cases h

theorem mem_motorTermsOf {motorTerms : List MotorTerm} (h : motorTermsOf terms = .ok motorTerms)
    {motorTerm : MotorTerm} (hmem : motorTerm ∈ motorTerms) :
    ∃ term ∈ terms, ∃ own, MotorTerm.ofTerm term.1 term.2 = .ok own ∧ motorTerm ∈ own := by
  induction terms generalizing motorTerms with
  | nil =>
    cases h
    cases hmem
  | cons term rest ih =>
    obtain ⟨first, hfirst, h⟩ := Outcome.bind_eq_ok.mp h
    obtain ⟨others, hothers, h⟩ := Outcome.bind_eq_ok.mp h
    cases h
    rcases List.mem_append.mp hmem with hmem | hmem
    · exact ⟨term, List.mem_cons_self, first, liftFilter_eq_ok.mp hfirst, hmem⟩
    · obtain ⟨term, hterm, hown⟩ := ih hothers hmem
      exact ⟨term, List.mem_cons_of_mem _ hterm, hown⟩

/-- A filter is refused, or one of its terms mentions a number that is too large for a
position. -/
theorem compileTerms_eq_error (h : compileTerms terms = .error fault) :
    fault.isReported = true ∨ fault = .value .intTooLarge ∧
      ∃ term ∈ terms, ∃ w, term.2.Mentions w ∧ w.IsTooLarge := by
  rcases Outcome.bind_eq_error.mp h with h | ⟨motorTerms, hterms, h⟩
  · exact .inl (motorTermsOf_eq_error h)
  obtain ⟨motorTerm, hmem, h⟩ := Outcome.exists_of_mapM_eq_error h
  obtain ⟨term, hterm, own, hown, hmem⟩ := mem_motorTermsOf hterms hmem
  obtain ⟨-, hmentions⟩ := MotorTerm.ofTerm_eq_ok hown hmem
  rcases PositionQuery.ofMotorTerm_eq_error h with hreported | ⟨hfault, asked, hasked, w, hw, hlarge⟩
  · exact .inl hreported
  · exact .inr ⟨hfault, term, hterm, w, hmentions asked hasked w hw, hlarge⟩

/-- The mnemonic of a query is the end of the key of a term, or the term mentions it. -/
theorem compileTerms_mnemonic {queries : List PositionQuery}
    (h : compileTerms terms = .ok queries) {query : PositionQuery} (hquery : query ∈ queries) :
    ∃ m : Text, query.mnemonic = .text m ∧ ∃ term ∈ terms,
      m = term.1.drop MotorTerm.motorsStart.length ∨ term.2.Mentions (.text m) := by
  obtain ⟨motorTerms, hterms, h⟩ := Outcome.bind_eq_ok.mp h
  obtain ⟨motorTerm, hmem, h⟩ := Outcome.exists_of_mapM_eq_ok h hquery
  obtain ⟨term, hterm, own, hown, hmem⟩ := mem_motorTermsOf hterms hmem
  exact ⟨_, PositionQuery.mnemonic_of_ofMotorTerm h, term, hterm,
    (MotorTerm.ofTerm_eq_ok hown hmem).1⟩

end ScanCatalog
