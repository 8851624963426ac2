import ScanCatalog.Motor.Store
import ScanCatalog.Proofs.Action.Outcome
import ScanCatalog.Proofs.Binary64.Integers

/-!
# Checked motors

What the check of motors lets through: mnemonics that are texts and not empty, with
finite positions, in the order and under the keys in which they were given.

## Main definitions

* `Positions`: positions by mnemonics;
* `Positions.toEntries`: the entries of the positions.

## Main statements

* `checkMotors_eq_ok`: the entries that the check gives;
* `checkMotors_eq_error`: the faults that it gives.
-/

namespace ScanCatalog

/-- Positions by mnemonics, in order. -/
abbrev Positions := List (Text × Binary64)

/-- The entries of positions. -/
def Positions.toEntries (positions : Positions) : Entries :=
  positions.map fun p => (.text p.1, .float p.2)

@[simp] theorem Positions.toEntries_nil : Positions.toEntries [] = [] := rfl

@[simp] theorem Positions.toEntries_cons (p : Text × Binary64) (rest : Positions) :
    Positions.toEntries (p :: rest) = (.text p.1, .float p.2) :: Positions.toEntries rest := rfl

theorem Positions.keys_toEntries (positions : Positions) :
    positions.toEntries.keys = positions.map fun p => .text p.1 := by
  simp [Positions.toEntries, Entries.keys]

theorem Positions.toEntries_injective {ps qs : Positions} (h : ps.toEntries = qs.toEntries) :
    ps = qs := by
  refine (List.map_inj_right fun p q hpq => ?_).mp h
  obtain ⟨hmnemonic, hposition⟩ := Prod.mk.inj hpq
  exact Prod.ext (Value.text.inj hmnemonic) (Value.float.inj hposition)

theorem isPosition_eq_ok {v : Value} (h : isPosition v = .ok true) :
    ∃ x, v.toReal = .ok x ∧ x.isFinite = true := by
  unfold isPosition at h
  split at h
  · unfold Value.isFiniteNumber at h
    split at h
    · next x hx =>
      exact ⟨x, hx, Except.ok.inj h⟩
    · cases h
  · cases h

theorem isPosition_eq_error {v : Value} {fault : ValueFault} (h : isPosition v = .error fault) :
    v.toReal = .error fault ∧ fault = .intTooLarge := by
  unfold isPosition at h
  split at h
  · next hnumber =>
    unfold Value.isFiniteNumber at h
    split at h
    · cases h
    · next hreal =>
      cases h
      refine ⟨hreal, ?_⟩
      cases v with
      | int i => exact Binary64.ofInt_eq_error hreal
      | float x => rw [Value.toReal_float] at hreal; cases hreal
      | _ => cases hnumber
  · cases h

/-- The entries of a step of the check. -/
theorem checkedEntries_cons_eq_ok {mnemonic position : Value} {rest checked : Entries}
    (h : checkedEntries ((mnemonic, position) :: rest) = .ok checked) :
    ∃ t x tail, mnemonic = .text t ∧ t.isEmpty = false ∧ position.toReal = .ok x ∧
      x.isFinite = true ∧ checkedEntries rest = .ok tail ∧ checked = (mnemonic, .float x) :: tail := by
  unfold checkedEntries at h
  split at h
  · next t =>
    split at h
    · cases h
    · next hempty =>
      obtain ⟨ok, hok, h⟩ := Outcome.bind_eq_ok.mp h
      rw [liftValue_eq_ok] at hok
      cases ok with
      | false => cases h
      | true =>
        obtain ⟨x, hx, hfinite⟩ := isPosition_eq_ok hok
        rw [if_pos rfl, hx, liftValue_ok, Outcome.ok_bind] at h
        obtain ⟨tail, htail, h⟩ := Outcome.bind_eq_ok.mp h
        cases h
        exact ⟨t, x, tail, rfl, Bool.eq_false_iff.mpr hempty, hx, hfinite, htail, rfl⟩
  · cases h

theorem checkedEntries_eq_ok {entries checked : Entries} (h : checkedEntries entries = .ok checked) :
    ∃ positions : Positions, checked = positions.toEntries ∧ checked.keys = entries.keys ∧
      ∀ p ∈ positions, p.1.isEmpty = false ∧ p.2.isFinite = true := by
  induction entries generalizing checked with
  | nil =>
    cases h
    exact ⟨[], rfl, rfl, by simp⟩
  | cons entry rest ih =>
    obtain ⟨mnemonic, position⟩ := entry
    obtain ⟨t, x, tail, rfl, hempty, hx, hfinite, htail, rfl⟩ := checkedEntries_cons_eq_ok h
    obtain ⟨positions, rfl, hkeys, hpositions⟩ := ih htail
    refine ⟨(t, x) :: positions, rfl, ?_, ?_⟩
    · exact congrArg (Value.text t :: ·) hkeys
    · exact List.forall_mem_cons.mpr ⟨⟨hempty, hfinite⟩, hpositions⟩

/-- Motors that pass the check give positions under the keys that they have, if they are
a mapping, and none otherwise. -/
theorem checkMotors_eq_ok {motors : Value} {checked : Entries} (h : checkMotors motors = .ok checked) :
    ∃ positions : Positions, checked = positions.toEntries ∧
      checked.keys = (motors.entries?.getD []).keys ∧
      ∀ p ∈ positions, p.1.isEmpty = false ∧ p.2.isFinite = true := by
  unfold checkMotors at h
  split at h
  · split at h
    · exact checkedEntries_eq_ok h
    · cases h
  · next htruth =>
    cases h
    refine ⟨[], rfl, ?_, by simp⟩
    cases motors with
    | map entries =>
      have hentries : entries = [] := by simpa [Value.truth] using htruth
      rw [hentries]
      rfl
    | _ => rfl

/-- The check keeps the number that each position is. -/
theorem checkedEntries_reals {entries checked : Entries} (h : checkedEntries entries = .ok checked) :
    checked.map (fun e => (e.1, e.2.toReal)) = entries.map fun e => (e.1, e.2.toReal) := by
  induction entries generalizing checked with
  | nil =>
    cases h
    rfl
  | cons entry rest ih =>
    obtain ⟨mnemonic, position⟩ := entry
    obtain ⟨t, x, tail, rfl, -, hx, -, htail, rfl⟩ := checkedEntries_cons_eq_ok h
    rw [List.map_cons, List.map_cons, ih htail, Value.toReal_float, hx]

theorem checkMotors_reals {motors : Value} {checked : Entries} (h : checkMotors motors = .ok checked) :
    checked.map (fun e => (e.1, e.2.toReal)) =
      (motors.entries?.getD []).map fun e => (e.1, e.2.toReal) := by
  unfold checkMotors at h
  split at h
  · split at h
    · exact checkedEntries_reals h
    · cases h
  · next htruth =>
    cases h
    cases motors with
    | map entries =>
      have hentries : entries = [] := by simpa [Value.truth] using htruth
      rw [hentries]
      rfl
    | _ => rfl

/-- The check of a motor refuses its mnemonic or its position, or the position is an integer that
is too large. -/
theorem checkedEntries_eq_error {entries : Entries} {fault : Fault}
    (h : checkedEntries entries = .error fault) :
    (∃ mnemonic, fault = .motorStore (.badMnemonic mnemonic)) ∨
      (∃ mnemonic position, fault = .motorStore (.badPosition mnemonic position)) ∨
      fault = .value .intTooLarge := by
  induction entries with
  | nil => cases h
  | cons entry rest ih =>
    obtain ⟨mnemonic, position⟩ := entry
    unfold checkedEntries at h
    split at h
    · next t =>
      split at h
      · cases h
        exact .inl ⟨_, rfl⟩
      · rcases Outcome.bind_eq_error.mp h with hok | ⟨ok, hok, h⟩
        · obtain ⟨cause, hcause, rfl⟩ := liftValue_eq_error.mp hok
          rw [(isPosition_eq_error hcause).2]
          exact .inr (.inr rfl)
        · rw [liftValue_eq_ok] at hok
          cases ok with
          | false =>
            cases h
            exact .inr (.inl ⟨_, _, rfl⟩)
          | true =>
            obtain ⟨x, hx, -⟩ := isPosition_eq_ok hok
            rw [if_pos rfl, hx, liftValue_ok, Outcome.ok_bind] at h
            rcases Outcome.bind_eq_error.mp h with h | ⟨tail, htail, h⟩
            · exact ih h
            · cases h
    · cases h
      exact .inl ⟨_, rfl⟩

/-- The check refuses a mnemonic or a position, or finds an integer that is too large or a
value that is no mapping. -/
theorem checkMotors_eq_error {motors : Value} {fault : Fault} (h : checkMotors motors = .error fault) :
    (∃ mnemonic, fault = .motorStore (.badMnemonic mnemonic)) ∨
      (∃ mnemonic position, fault = .motorStore (.badPosition mnemonic position)) ∨
      fault = .value .intTooLarge ∨ ∃ name, fault = .value (.noMember name "items") := by
  unfold checkMotors at h
  split at h
  · split at h
    · rcases checkedEntries_eq_error h with h | h | h
      · exact .inl h
      · exact .inr (.inl h)
      · exact .inr (.inr (.inl h))
    · cases h
      exact .inr (.inr (.inr ⟨_, rfl⟩))
  · cases h

end ScanCatalog
