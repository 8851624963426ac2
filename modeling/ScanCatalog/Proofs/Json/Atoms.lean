import ScanCatalog.Proofs.Binary64.Integers
import ScanCatalog.Proofs.Json.Size

/-!
# What atoms are read to

An atom is a word of the grammar, a name of a number that is not finite, where those are allowed,
an integer with no more digits than are allowed, or a decimal: a number with a fraction or an
exponent, which is rounded.

## Main definitions

* `Json.decimalAt?`: the decimal at the beginning of some code points;
* `Json.IsAtom`: what the atom at the beginning of some code points is read to.

## Main statements

* `Json.isAtom_of_readAtom`: a reader makes nothing else of an atom.
-/

namespace ScanCatalog.Json

/-- Whether the number at the beginning has a sign, and the code points of numbers after it. -/
def signAt (codes : List Nat) : Bool × List Nat :=
  match codes.takeWhile isOfNumber with
  | 45 :: rest => (true, rest)
  | _ => (false, codes.takeWhile isOfNumber)

/-- The coefficient and the power of ten of the decimal at the beginning of some code points, a
number with a fraction or an exponent. -/
def decimalAt? (codes : List Nat) : Option (Nat × Int) :=
  let (whole, afterWhole) := spanWhole (signAt codes).2
  let (fraction, afterFraction) := spanFraction afterWhole
  let (exponent, unread) := Numeral.spanExponent afterFraction
  if whole.isEmpty || unread.length == afterWhole.length then none
  else some (Numeral.valueOf (whole ++ fraction), exponent - fraction.length)

/-- What the atom at the beginning of some code points is read to. -/
inductive IsAtom (allowConstants : Bool) (codes : List Nat) : Value → Prop
  | null : IsAtom allowConstants codes .null
  | bool (b : Bool) : IsAtom allowConstants codes (.bool b)
  | constant (hallowed : allowConstants = true) (x : Binary64) :
      IsAtom allowConstants codes (.float x)
  | int {i : Int} (hi : i.natAbs < tenTo Numeral.digitLimit) : IsAtom allowConstants codes (.int i)
  | decimal {coefficient : Nat} {exponent : Int} (negative : Bool)
      (hdecimal : decimalAt? codes = some (coefficient, exponent)) :
      IsAtom allowConstants codes (.float (.ofDecimal negative coefficient exponent))

variable {allowConstants : Bool} {offset : Nat} {codes : List Nat} {part : Part Value}

theorem valueOf_lt {digits : List Nat} (h : ∀ c ∈ digits, Numeral.isDigit c = true) :
    Numeral.valueOf digits < tenTo digits.length := by
  have hfold : ∀ n,
      digits.foldl (fun n c => n * 10 + (c - 48)) n < (n + 1) * 10 ^ digits.length := by
    induction digits with
    | nil => exact fun n => by simp
    | cons c rest ih =>
      intro n
      obtain ⟨hc, hrest⟩ := List.forall_mem_cons.mp h
      unfold Numeral.isDigit at hc
      simp only [Bool.and_eq_true, decide_eq_true_eq] at hc
      calc rest.foldl (fun n c => n * 10 + (c - 48)) (n * 10 + (c - 48))
          < (n * 10 + (c - 48) + 1) * 10 ^ rest.length := ih hrest _
        _ ≤ ((n + 1) * 10) * 10 ^ rest.length := Nat.mul_le_mul_right _ (by omega)
        _ = (n + 1) * 10 ^ (rest.length + 1) := by rw [Nat.pow_succ, Nat.mul_assoc, Nat.mul_comm 10]
  have h := hfold 0
  rwa [Nat.zero_add, Nat.one_mul] at h

theorem natAbs_signed (negative : Bool) (n : Nat) :
    (if negative then -(n : Int) else (n : Int)).natAbs = n := by
  cases negative with
  | false => exact Int.natAbs_natCast n
  | true => exact Int.natAbs_neg n

theorem isAtom_of_readNumber (h : readNumber offset codes = .ok part) :
    IsAtom allowConstants codes part.value := by
  unfold readNumber at h
  dsimp only at h
  split at h
  · cases h
  next whole afterWhole hne hwhole =>
  split at h
  · split at h
    · cases h
    next hlimit =>
    cases h
    have hdigits : ∀ c ∈ whole, Numeral.isDigit c = true := fun c hc =>
      isDigit_of_mem_spanWhole (by rwa [hwhole])
    refine .int ?_
    rw [natAbs_signed]
    exact Nat.lt_of_lt_of_le (valueOf_lt hdigits) (tenTo_mono (Nat.not_lt.mp hlimit))
  next hlonger =>
    cases h
    have hwhole : spanWhole (signAt codes).2 = (whole, afterWhole) := hwhole
    have hdigits : whole.isEmpty = false := by
      cases whole with
      | nil => exact absurd rfl hne
      | cons => rfl
    refine .decimal _ ?_
    unfold decimalAt?
    rw [hwhole]
    dsimp only
    rw [hdigits, Bool.false_or, if_neg fun heq => hlonger (eq_of_beq heq)]

/-- A reader makes nothing else of an atom. -/
theorem isAtom_of_readAtom (h : readAtom allowConstants offset codes = .ok part) :
    IsAtom allowConstants codes part.value := by
  have hwords : ∀ word ∈ words, IsAtom allowConstants codes word.2 :=
    List.forall_mem_cons.mpr ⟨.null, List.forall_mem_cons.mpr
      ⟨.bool true, List.forall_mem_singleton.mpr (.bool false)⟩⟩
  have hconstants : allowConstants = true →
      ∀ word ∈ constants, IsAtom allowConstants codes word.2 := fun hallowed =>
    List.forall_mem_cons.mpr ⟨.constant hallowed _, List.forall_mem_cons.mpr
      ⟨.constant hallowed _, List.forall_mem_singleton.mpr (.constant hallowed _)⟩⟩
  unfold readAtom at h
  split at h
  · next hword =>
    cases h
    exact hwords _ (List.mem_of_find?_eq_some hword)
  split at h
  · next hword =>
    split at h
    · next hallowed =>
      cases h
      exact hconstants hallowed _ (List.mem_of_find?_eq_some hword)
    · cases h
  · exact isAtom_of_readNumber h

end ScanCatalog.Json
