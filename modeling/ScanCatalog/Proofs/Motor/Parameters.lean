import ScanCatalog.Proofs.Motor.Connection

/-!
# Parameters of statements

Which values can be bound as parameters, and the faults of those that cannot. Numbers
always can, but what is not a number becomes null; a text can if it has a UTF-8 form.

## Main definitions

* `Fault.isRefusal`, `Fault.isEncoding`: the faults of values that cannot be bound;
* `Value.Binds`, `Value.toCell`: the values that can, and the cells that they become.

## Main statements

* `Cell.ofParameters_eq_error`: the faults of parameters;
* `Cell.ofParameters_binds`: the cells of parameters that can be bound.
-/

namespace ScanCatalog

namespace Fault

/-- Whether a fault is a driver error, but none of a broken constraint. -/
def isRefusal : Fault → Bool
  | .driver reason => reason.isError && !reason.isIntegrity
  | _ => false

theorem isDriverError_of_isRefusal {fault : Fault} (h : fault.isRefusal = true) :
    fault.isDriverError = true := by
  cases fault with
  | driver reason => exact (Bool.and_eq_true_iff.mp h).1
  | _ => cases h

/-- Whether a fault is that of a text without a UTF-8 form. -/
def isEncoding : Fault → Bool
  | .value (.notEncodable _) => true
  | _ => false

theorem eq_of_isEncoding {fault : Fault} (h : fault.isEncoding = true) :
    ∃ cause, fault = .value (.notEncodable cause) := by
  unfold isEncoding at h
  split at h
  · exact ⟨_, rfl⟩
  · cases h

theorem isDriverError_of_isEncoding {fault : Fault} (h : fault.isEncoding = true) :
    fault.isDriverError = false := by
  obtain ⟨cause, rfl⟩ := eq_of_isEncoding h
  rfl

end Fault

namespace Cell

/-- Parameters that cannot be bound are a driver error or a fault of a value. -/
theorem ofParameter_eq_error {position : Nat} {v : Value} {fault : Fault}
    (h : ofParameter position v = .error fault) :
    fault.isRefusal = true ∨ ∃ cause, fault = .value cause := by
  unfold ofParameter at h
  split at h
  · cases h
  · cases h
  · split at h <;> cases h
    exact .inr ⟨_, rfl⟩
  · cases h
  · cases h
  · split at h <;> cases h
    exact .inr ⟨_, rfl⟩
  · cases h
  · cases h
    exact .inl rfl

theorem ofParameters_cons (position : Nat) (v : Value) (rest : List Value) :
    ofParameters position (v :: rest) = (do
      let cell ← ofParameter position v
      let cells ← ofParameters (position + 1) rest
      return cell :: cells) := rfl

theorem ofParameters_eq_error {position : Nat} {vs : List Value} {fault : Fault}
    (h : ofParameters position vs = .error fault) :
    fault.isRefusal = true ∨ ∃ cause, fault = .value cause := by
  induction vs generalizing position with
  | nil => cases h
  | cons v rest ih =>
    rw [ofParameters_cons] at h
    rcases Outcome.bind_eq_error.mp h with h | ⟨cell, -, h⟩
    · exact ofParameter_eq_error h
    · rcases Outcome.bind_eq_error.mp h with h | ⟨cells, -, h⟩
      · exact ih h
      · cases h

theorem ofParameter_int {position : Nat} {i : Int} (h : holdsInt i = true) :
    ofParameter position (.int i) = .ok (.int i) := by
  unfold ofParameter
  dsimp only
  rw [if_pos h]

theorem ofParameter_float (position : Nat) (x : Binary64) :
    ∃ cell, ofParameter position (.float x) = .ok cell := by
  cases x with
  | nan => exact ⟨.null, rfl⟩
  | _ => exact ⟨_, rfl⟩

theorem ofParameter_text {position : Nat} (t : Text) :
    ofParameter position (.text t) =
      match t.encodeFault? with
      | none => .ok (.text t)
      | some fault => .error (.value (.notEncodable fault)) := rfl

/-- A row number is an integer of 64 bits. -/
theorem holdsInt_of_le {n : Nat} (h : n ≤ Tables.lastNumber) : holdsInt n = true := by
  unfold Tables.lastNumber at h
  unfold holdsInt
  simp only [Bool.and_eq_true, decide_eq_true_eq]
  omega

end Cell

/-- A number or text that can be bound. -/
inductive Value.Binds : Value → Prop
  | int {i : Int} (h : Cell.holdsInt i = true) : Binds (.int i)
  | float (x : Binary64) : Binds (.float x)
  | text {t : Text} (h : t.Encodable) : Binds (.text t)

/-- The cell that a number or text becomes. -/
def Value.toCell : Value → Cell
  | .int i => .int i
  | .float .nan => .null
  | .float x => .real x
  | .text t => .text t
  | _ => .null

namespace Cell

theorem ofParameter_binds {v : Value} (h : v.Binds) (position : Nat) :
    ofParameter position v = .ok v.toCell := by
  cases h with
  | int h => exact ofParameter_int h
  | float x => cases x <;> rfl
  | text h =>
    rw [ofParameter_text, (Text.encodeFault?_eq_none_iff _).mpr h]
    rfl

theorem ofParameters_binds {vs : List Value} (h : ∀ v ∈ vs, v.Binds) (position : Nat) :
    ofParameters position vs = .ok (vs.map Value.toCell) := by
  induction vs generalizing position with
  | nil => rfl
  | cons v rest ih =>
    obtain ⟨hv, hrest⟩ := List.forall_mem_cons.mp h
    rw [ofParameters_cons, ofParameter_binds hv, Outcome.ok_bind, ih hrest]
    rfl

/-- Texts that were bound have a UTF-8 form. -/
theorem encodable_of_ofParameters {position : Nat} {vs : List Value} {cells : List Cell}
    (h : ofParameters position vs = .ok cells) : ∀ t, .text t ∈ vs → t.Encodable := by
  induction vs generalizing position cells with
  | nil =>
    intro t ht
    cases ht
  | cons v rest ih =>
    rw [ofParameters_cons] at h
    obtain ⟨cell, hcell, h⟩ := Outcome.bind_eq_ok.mp h
    obtain ⟨others, hothers, -⟩ := Outcome.bind_eq_ok.mp h
    intro t ht
    rcases List.mem_cons.mp ht with rfl | ht
    · rw [ofParameter_text] at hcell
      split at hcell
      · next hfault => exact (Text.encodeFault?_eq_none_iff t).mp hfault
      · cases hcell
    · exact ih hothers t ht

end Cell

end ScanCatalog
