import ScanCatalog.Binary64.Basic

/-!
# Equality of numbers

Numbers are equal by what they amount to. This is no equivalence, as what is not a number
is not equal to itself, but it is symmetric and transitive.

## Main statements

* `Binary64.same_comm`, `Binary64.same_congr_left`: symmetry and transitivity;
* `Binary64.same_self_of_isFinite`: finite numbers are equal to themselves;
* `Binary64.quantity_dropZeroSign`: the sign of a zero does not matter.
-/

namespace ScanCatalog

namespace Binary64

variable {x y : Binary64}

theorem same_comm (x y : Binary64) : x.same y = y.same x := Quantity.same_comm _ _

/-- Equal numbers are equal to the same numbers. -/
theorem same_congr_left (h : x.same y = true) (z : Binary64) : x.same z = y.same z := by
  have hquantity : x.quantity = y.quantity := (Quantity.same_iff.mp h).1
  rw [same, same, hquantity]

theorem same_congr_right (h : x.same y = true) (z : Binary64) : z.same x = z.same y := by
  rw [same_comm z x, same_comm z y, same_congr_left h]

/-- Two numbers that are equal to a third are equal. -/
theorem same_of_same {z : Binary64} (hx : x.same z = true) (hy : y.same z = true) :
    x.same y = true := by
  rw [same_congr_left hx, same_comm]
  exact hy

theorem same_self_of_isFinite (h : x.isFinite = true) : x.same x = true := by
  cases x with
  | finite negative rank _ =>
    refine Quantity.same_iff.mpr ⟨rfl, ?_⟩
    cases negative <;> simp [quantity]
  | _ => cases h

/-- Only finite numbers amount to some units. -/
theorem isFinite_iff : x.isFinite = true ↔ ∃ n, x.quantity = .units n := by
  cases x with
  | nan => simp [isFinite, quantity]
  | infinite negative => cases negative <;> simp [isFinite, quantity]
  | finite negative => cases negative <;> simp [isFinite, quantity]

@[simp] theorem quantity_dropZeroSign (x : Binary64) : x.dropZeroSign.quantity = x.quantity := by
  cases x with
  | finite negative rank _ =>
    cases negative with
    | false => rfl
    | true => cases rank <;> rfl
  | _ => rfl

theorem dropZeroSign_dropZeroSign (x : Binary64) :
    x.dropZeroSign.dropZeroSign = x.dropZeroSign := by
  cases x with
  | finite negative rank _ =>
    cases negative with
    | false => rfl
    | true => cases rank <;> rfl
  | _ => rfl

@[simp] theorem same_dropZeroSign (x y : Binary64) : x.same y.dropZeroSign = x.same y := by
  rw [same, quantity_dropZeroSign, same]

@[simp] theorem dropZeroSign_same (x y : Binary64) : x.dropZeroSign.same y = x.same y := by
  rw [same, quantity_dropZeroSign, same]

@[simp] theorem isFinite_dropZeroSign (x : Binary64) :
    x.dropZeroSign.isFinite = x.isFinite := by
  rw [Bool.eq_iff_iff, isFinite_iff, isFinite_iff, quantity_dropZeroSign]

end Binary64

end ScanCatalog
