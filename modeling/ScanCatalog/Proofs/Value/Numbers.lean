import ScanCatalog.Filter.Parser
import ScanCatalog.Motor.Compile
import ScanCatalog.Proofs.Action.Outcome
import ScanCatalog.Proofs.Binary64.Integers
import ScanCatalog.Value.Order

/-!
# Numbers among values

What a binary64 number is equal to, and how it compares, is a matter of what the other value
amounts to. An integer of up to 53 bits amounts to what its binary64 number does, so either
may stand for the other.

## Main definitions

* `Value.IsExact`: numbers that are binary64 numbers;
* `Value.IsTooLarge`: integers without a number near them, such as `Value.tooFar`;
* `Value.Covered`: sets of values up to which of equal values stand in them.

## Main statements

* `Value.same_of_number_same`: what a number is equal to is equal to the same values;
* `Value.number_isIn_intersect`, `Value.isIn_positionsOf`: a number in sets of others;
* `Value.compare_toReal`: the comparison with a number by its binary64 number;
* `Value.toReal_of_same`: the binary64 numbers of equal numbers.
-/

namespace ScanCatalog

namespace Value

/-- Whether a value is a binary64 number if it is a number at all: no integer beyond 53 bits,
and not what is not a number. -/
def IsExact : Value → Prop
  | .int i => i.natAbs ≤ Binary64.exactBound
  | .float x => x.same x = true
  | _ => True

instance : DecidablePred IsExact
  | .int i => inferInstanceAs (Decidable (i.natAbs ≤ Binary64.exactBound))
  | .float x => inferInstanceAs (Decidable (x.same x = true))
  | .null | .bool _ | .text _ | .bytes _ | .list _ | .map _ => .isTrue trivial

/-- An integer that is too large for a binary64 number. -/
def IsTooLarge (v : Value) : Prop := ∃ i, v = .int i ∧ Binary64.ofInt i = .error .intTooLarge

/-- The first power of two beyond all finite numbers. -/
def tooFar : Value := .int (Int.ofNat (twoTo 1024))

variable {v w : Value} {x : Binary64}

theorem exists_quantity (hv : v.isNumber = true) : ∃ a, v.quantity? = some a := by
  cases v <;> first | exact ⟨_, rfl⟩ | cases hv

/-! ### Equality -/

/-- What is equal to a binary64 number is so by what it amounts to. -/
theorem same_float_right (v : Value) (x : Binary64) :
    v.same (.float x) = v.quantity?.any fun q => q.same x.quantity := by
  cases v <;> rfl

theorem sameAtom_comm (v w : Value) : sameAtom v w = sameAtom w v := by
  unfold sameAtom
  cases hv : v.quantity? with
  | some p =>
    cases hw : w.quantity? with
    | some q => exact Quantity.same_comm p q
    | none => rfl
  | none =>
    cases hw : w.quantity? with
    | some q => rfl
    | none => cases v <;> cases w <;> first | rfl | exact Bool.beq_comm

theorem same_scalar (hv : v.isScalar = true) (w : Value) : v.same w = sameAtom v w := by
  cases v <;> first | rfl | cases hv

/-- A number is equal to what amounts to the same. -/
theorem number_same {p : Value} {a : Quantity} (hp : p.quantity? = some a) (v : Value) :
    p.same v = v.quantity?.any fun q => a.same q := by
  have hscalar : p.isScalar = true := by
    cases p <;> first | rfl | cases hp
  rw [same_scalar hscalar]
  unfold sameAtom
  rw [hp]
  cases v.quantity? <;> rfl

theorem float_same (x : Binary64) (v : Value) :
    (Value.float x).same v = v.quantity?.any fun q => x.quantity.same q := number_same rfl v

/-- What is equal to a number amounts to it. -/
theorem quantity?_of_same {p : Value} {a : Quantity} (hp : p.quantity? = some a)
    (h : p.same v = true) : v.quantity? = some a := by
  rw [number_same hp] at h
  cases hv : v.quantity? with
  | none =>
    rw [hv] at h
    cases h
  | some q =>
    rw [hv] at h
    rw [(Quantity.same_iff.mp h).1]

/-- It is equal to the same values, too. -/
theorem same_of_number_same {p : Value} {a : Quantity} (hp : p.quantity? = some a)
    (h : p.same v = true) (w : Value) : v.same w = p.same w := by
  rw [number_same (quantity?_of_same hp h), number_same hp]

theorem same_of_float_same (h : (Value.float x).same v = true) (w : Value) :
    v.same w = (Value.float x).same w := same_of_number_same rfl h w

/-- Equality with a binary64 number is symmetric. -/
theorem same_float_comm (v : Value) (x : Binary64) :
    v.same (.float x) = (Value.float x).same v := by
  rw [same_float_right, float_same]
  cases v.quantity? with
  | none => rfl
  | some q => exact Quantity.same_comm q x.quantity

/-- Equality of scalars is symmetric. -/
theorem same_comm_of_isScalar (hv : v.isScalar = true) (hw : w.isScalar = true) :
    v.same w = w.same v := by
  rw [same_scalar hv, same_scalar hw, sameAtom_comm]

/-- A number is in the values that two sets have if it is in both. -/
theorem number_isIn_intersect {p : Value} {a : Quantity} (hp : p.quantity? = some a)
    (current values : List Value) :
    p.isIn (Filter.intersect (some current) values) = (p.isIn current && p.isIn values) := by
  change (current.filter fun v => v.isIn values).any _ = _
  rw [List.any_filter]
  induction current with
  | nil => rfl
  | cons v rest ih =>
    have hfirst : (v.isIn values && p.same v) = (p.same v && p.isIn values) := by
      by_cases hsame : p.same v = true
      · have hcongr : v.isIn values = p.isIn values :=
          congrArg (values.any ·) (funext (same_of_number_same hp hsame))
        rw [hcongr, hsame, Bool.and_true, Bool.true_and]
      · rw [Bool.eq_false_iff.mpr hsame, Bool.and_false, Bool.false_and]
    rw [List.any_cons, ih, hfirst, ← Bool.and_or_distrib_right]
    rfl

theorem isIn_intersect (x : Binary64) (current values : List Value) :
    (Value.float x).isIn (Filter.intersect (some current) values) =
      ((Value.float x).isIn current && (Value.float x).isIn values) :=
  number_isIn_intersect rfl current values

/-! ### Numbers by their binary64 numbers -/

/-- A number that is exact amounts to what its binary64 number does, which is a number. -/
theorem quantity_of_toReal (hexact : v.IsExact) (hnumber : v.isNumber = true)
    (h : v.toReal = .ok x) : v.quantity? = some x.quantity ∧ x.same x = true := by
  cases v with
  | int i =>
    have hquantity := Binary64.quantity_of_ofInt hexact h
    refine ⟨by rw [hquantity]; rfl, Binary64.same_self_of_isFinite ?_⟩
    exact Binary64.isFinite_iff.mpr ⟨_, hquantity⟩
  | float y =>
    cases h
    exact ⟨rfl, hexact⟩
  | _ => cases hnumber

/-- A number has a binary64 number, or is an integer that is too large. -/
theorem toReal_cases (hnumber : v.isNumber = true) :
    (∃ x, v.toReal = .ok x) ∨ v.toReal = .error .intTooLarge := by
  cases v with
  | int i =>
    cases hi : Binary64.ofInt i with
    | ok x => exact .inl ⟨x, hi⟩
    | error fault =>
      obtain rfl := Binary64.ofInt_eq_error hi
      exact .inr hi
  | float x => exact .inl ⟨x, rfl⟩
  | _ => cases hnumber

theorem toReal_eq_error_iff {fault : ValueFault} (hnumber : v.isNumber = true) :
    v.toReal = .error fault ↔ fault = .intTooLarge ∧ v.IsTooLarge := by
  constructor
  · intro h
    cases v with
    | int i =>
      obtain rfl := Binary64.ofInt_eq_error h
      exact ⟨rfl, i, rfl, h⟩
    | float x => cases h
    | _ => cases hnumber
  · rintro ⟨rfl, i, rfl, h⟩
    exact h

/-- Equal numbers have binary64 numbers that are equal, or are integers that are too large. -/
theorem toReal_of_same (hv : v.isNumber = true) (hw : w.isNumber = true) (h : v.same w = true) :
    (∃ x y, v.toReal = .ok x ∧ w.toReal = .ok y ∧ x.quantity = y.quantity) ∨
      v.toReal = .error .intTooLarge ∧ w.toReal = .error .intTooLarge := by
  cases v with
  | int i =>
    cases w with
    | int j =>
      have hequal : i * (Binary64.unitsInOne : Int) = j * Binary64.unitsInOne := eq_of_beq h
      have hpos : (Binary64.unitsInOne : Int) ≠ 0 := by
        have := twoTo_pos 1074
        unfold Binary64.unitsInOne
        omega
      obtain rfl := Int.eq_of_mul_eq_mul_right hpos hequal
      cases hi : Binary64.ofInt i with
      | ok x => exact .inl ⟨x, x, hi, hi, rfl⟩
      | error fault =>
        obtain rfl := Binary64.ofInt_eq_error hi
        exact .inr ⟨hi, hi⟩
    | float y =>
      have hquantity : Quantity.units (i * Binary64.unitsInOne) = y.quantity :=
        (Quantity.same_iff.mp h).1
      obtain ⟨x, hx, hsame⟩ := Binary64.ofInt_of_quantity hquantity.symm
      exact .inl ⟨x, y, hx, rfl, hsame⟩
    | _ => cases hw
  | float x =>
    cases w with
    | int j =>
      have hquantity := (Quantity.same_iff.mp h).1
      obtain ⟨y, hy, hsame⟩ := Binary64.ofInt_of_quantity hquantity
      exact .inl ⟨x, y, rfl, hy, hsame.symm⟩
    | float y => exact .inl ⟨x, y, rfl, rfl, (Quantity.same_iff.mp h).1⟩
    | _ => cases hw
  | _ => cases hv

theorem same_toReal (hexact : v.IsExact) (hnumber : v.isNumber = true) {y : Binary64}
    (h : v.toReal = .ok y) (x : Binary64) :
    (Value.float x).same v = (Value.float x).same (.float y) := by
  rw [float_same, float_same, (quantity_of_toReal hexact hnumber h).1]
  rfl

theorem compare_toReal (hexact : v.IsExact) (hnumber : v.isNumber = true) {y : Binary64}
    (h : v.toReal = .ok y) (c : Comparison) (x : Binary64) :
    (Value.float x).compare c v = (Value.float x).compare c (.float y) := by
  change compareAtoms c (.float x) v = compareAtoms c (.float x) (.float y)
  unfold compareAtoms
  rw [(quantity_of_toReal hexact hnumber h).1]
  rfl

/-- A number is among others if it is among their binary64 numbers. -/
theorem isIn_positionsOf {values positions : List Value}
    (hexact : ∀ v ∈ values, v.IsExact ∧ v.isNumber = true)
    (h : PositionQuery.positionsOf values = .ok positions) (x : Binary64) :
    (Value.float x).isIn positions = (Value.float x).isIn values := by
  induction values generalizing positions with
  | nil =>
    cases h
    rfl
  | cons v rest ih =>
    obtain ⟨⟨hv, hnumber⟩, hrest⟩ := List.forall_mem_cons.mp hexact
    obtain ⟨position, others, hposition, hothers, rfl⟩ := Outcome.mapM_cons_eq_ok.mp h
    obtain ⟨y, hy, hreal⟩ := Outcome.bind_eq_ok.mp hposition
    cases hreal
    change ((Value.float x).same (.float y) || (Value.float x).isIn others) = _
    rw [ih hrest hothers, ← same_toReal hv hnumber hy]
    rfl

/-! ### Values that are alike -/

/-- Two values that are alike: the same one, or equal ones that are both numbers or both none. -/
def Alike (v w : Value) : Prop := v = w ∨ v.same w = true ∧ v.isNumber = w.isNumber

/-- Each of some values has one like it among others. -/
def Covered (values others : List Value) : Prop := ∀ v ∈ values, ∃ w ∈ others, v.Alike w

theorem Covered.refl (values : List Value) : Covered values values := fun v hv => ⟨v, hv, .inl rfl⟩

theorem Alike.isNumber (h : v.Alike w) : v.isNumber = w.isNumber := by
  rcases h with rfl | ⟨-, h⟩
  · rfl
  · exact h

/-- Numbers that are alike are the same position, or both too large. -/
theorem Alike.toReal (h : v.Alike w) (hnumber : v.isNumber = true) :
    (∃ x y, v.toReal = .ok x ∧ w.toReal = .ok y ∧ x.quantity = y.quantity) ∨
      v.toReal = .error .intTooLarge ∧ w.toReal = .error .intTooLarge := by
  have hnumber' := h.isNumber.symm.trans hnumber
  rcases h with rfl | ⟨hsame, -⟩
  · rcases toReal_cases hnumber with ⟨x, hx⟩ | hlarge
    · exact .inl ⟨x, x, hx, hx, rfl⟩
    · exact .inr ⟨hlarge, hlarge⟩
  · exact toReal_of_same hnumber hnumber' hsame

theorem Covered.exists_tooLarge {values others : List Value} (h : Covered values others)
    (hnumbers : values.all isNumber = true) (hlarge : ∃ v ∈ values, v.toReal = .error .intTooLarge) :
    ∃ w ∈ others, w.toReal = .error .intTooLarge := by
  obtain ⟨v, hv, hlarge⟩ := hlarge
  obtain ⟨w, hw, halike⟩ := h v hv
  rcases halike.toReal (List.all_eq_true.mp hnumbers v hv) with ⟨x, y, hx, -⟩ | ⟨-, hlarge'⟩
  · rw [hx] at hlarge
    cases hlarge
  · exact ⟨w, hw, hlarge'⟩

theorem Covered.exists_position {values others : List Value} (h : Covered values others)
    (hnumbers : values.all isNumber = true) {p : Value}
    (hin : ∃ v ∈ values, ∃ x, v.toReal = .ok x ∧ p.same (.float x) = true) :
    ∃ w ∈ others, ∃ y, w.toReal = .ok y ∧ p.same (.float y) = true := by
  obtain ⟨v, hv, x, hx, hsame⟩ := hin
  obtain ⟨w, hw, halike⟩ := h v hv
  rcases halike.toReal (List.all_eq_true.mp hnumbers v hv) with ⟨x', y, hx', hy, hequal⟩ |
    ⟨hlarge, -⟩
  · obtain rfl := Except.ok.inj (hx.symm.trans hx')
    rw [same_float_right, hequal, ← same_float_right] at hsame
    exact ⟨w, hw, y, hy, hsame⟩
  · rw [hx] at hlarge
    cases hlarge

theorem Covered.all_isNumber {values others : List Value} (h : Covered values others)
    (hnumbers : others.all isNumber = true) : values.all isNumber = true := by
  refine List.all_eq_true.mpr fun v hv => ?_
  obtain ⟨w, hw, halike⟩ := h v hv
  exact halike.isNumber.trans (List.all_eq_true.mp hnumbers w hw)

end Value

end ScanCatalog
