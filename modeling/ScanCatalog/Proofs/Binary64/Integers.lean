import ScanCatalog.Proofs.Binary64.Equality
import ScanCatalog.Value.Conversion

/-!
# Integers as binary64 numbers

An integer of at most 53 bits is a binary64 number: rounding it loses nothing. So it is with
any greater integer that is one.

## Main definitions

* `Binary64.exactBound`: the greatest magnitude up to which all integers are exact.

## Main statements

* `Binary64.rankOfRatio_exact`: a quotient of 53 bits and a scale is exact;
* `Binary64.quantity_of_ofInt`: an integer up to the bound is exact;
* `Binary64.ofInt_of_quantity`: an integer that is a binary64 number is rounded to it.
-/

namespace ScanCatalog

theorem roundHalfEven_mul {n den : Nat} (hden : 0 < den) : roundHalfEven (n * den) den = n := by
  unfold roundHalfEven
  dsimp only
  rw [Nat.mul_mod_left, Nat.mul_zero, if_pos hden, Nat.mul_div_cancel _ hden]

theorem tenTo_add (m n : Nat) : tenTo (m + n) = tenTo m * tenTo n := Nat.pow_add 10 m n

theorem tenTo_mono {m n : Nat} (h : m ≤ n) : tenTo m ≤ tenTo n :=
  Nat.pow_le_pow_right (by decide) h

namespace Binary64

/-- The magnitude up to which all integers are binary64 numbers. -/
def exactBound : Nat := 2 * binadeSize

theorem twoTo_add (m n : Nat) : twoTo (m + n) = twoTo m * twoTo n := Nat.pow_add 2 m n

theorem twoTo_mono {m n : Nat} (h : m ≤ n) : twoTo m ≤ twoTo n :=
  Nat.pow_le_pow_right (by decide) h

theorem log2_mul_twoTo {significand : Nat} (hlow : binadeSize ≤ significand)
    (hhigh : significand < 2 * binadeSize) (scale : Nat) :
    (significand * twoTo scale).log2 = 52 + scale := by
  have hpos : significand * twoTo scale ≠ 0 :=
    Nat.mul_ne_zero (by unfold binadeSize at hlow; omega) (Nat.ne_of_gt (twoTo_pos scale))
  refine (Nat.log2_eq_iff hpos).mpr ⟨?_, ?_⟩
  · rw [Nat.pow_add]
    exact Nat.mul_le_mul_right _ hlow
  · rw [show 52 + scale + 1 = 53 + scale by omega, Nat.pow_add]
    exact Nat.mul_lt_mul_of_pos_right hhigh (twoTo_pos scale)

theorem unitsOfRank_normal {significand : Nat} (hlow : binadeSize ≤ significand)
    (hhigh : significand < 2 * binadeSize) (scale : Nat) :
    unitsOfRank (scale * binadeSize + significand) = significand * twoTo scale := by
  have hbinade : (scale * binadeSize + significand) / binadeSize = scale + 1 := by
    unfold binadeSize at *
    omega
  have hfraction : (scale * binadeSize + significand) % binadeSize = significand - binadeSize := by
    unfold binadeSize at *
    omega
  unfold unitsOfRank
  dsimp only
  rw [hbinade, hfraction, if_neg (Nat.succ_ne_zero scale), Nat.add_sub_cancel,
    Nat.add_sub_cancel' hlow]

/-- A quotient of 53 bits and a scale has a rank of its own. -/
theorem rankOfRatio_exact {num den significand scale : Nat} (hden : 0 < den)
    (hlow : binadeSize ≤ significand) (hhigh : significand < 2 * binadeSize)
    (hexact : num * unitsInOne = significand * twoTo scale * den) :
    rankOfRatio num den = scale * binadeSize + significand := by
  have hround : roundHalfEven (significand * twoTo scale * den) (den * twoTo scale) =
      significand := by
    rw [Nat.mul_assoc, Nat.mul_comm (twoTo scale) den]
    exact roundHalfEven_mul (Nat.mul_pos hden (twoTo_pos scale))
  unfold rankOfRatio
  dsimp only
  rw [hexact, Nat.mul_div_cancel _ hden, log2_mul_twoTo hlow hhigh, Nat.add_sub_cancel_left, hround]

theorem unitsOfRank_rankOfRatio {num den significand scale : Nat} (hden : 0 < den)
    (hlow : binadeSize ≤ significand) (hhigh : significand < 2 * binadeSize)
    (hexact : num * unitsInOne = significand * twoTo scale * den) :
    unitsOfRank (rankOfRatio num den) = significand * twoTo scale := by
  rw [rankOfRatio_exact hden hlow hhigh hexact, unitsOfRank_normal hlow hhigh]

/-- A whole number up to the bound has 53 bits and a scale. -/
theorem exists_significand {n : Nat} (hpos : 0 < n) (hbound : n ≤ exactBound) :
    ∃ significand scale, binadeSize ≤ significand ∧ significand < 2 * binadeSize ∧
      n * unitsInOne = significand * twoTo scale := by
  rcases Nat.lt_or_eq_of_le hbound with hlt | rfl
  -- the bound itself has 54 bits, the last of which is a zero
  · have hbits : n < 2 ^ 53 := hlt
    have hlog : n.log2 ≤ 52 :=
      Nat.le_of_lt_succ ((Nat.log2_lt (Nat.ne_of_gt hpos)).mpr hbits)
    have hlow : twoTo n.log2 ≤ n := Nat.log2_self_le (Nat.ne_of_gt hpos)
    have hhigh : n < twoTo (n.log2 + 1) := Nat.lt_log2_self
    refine ⟨n * twoTo (52 - n.log2), 1022 + n.log2, ?_, ?_, ?_⟩
    · have hle := Nat.mul_le_mul_right (twoTo (52 - n.log2)) hlow
      rwa [← twoTo_add, Nat.add_sub_cancel' hlog] at hle
    · have hlt := Nat.mul_lt_mul_of_pos_right hhigh (twoTo_pos (52 - n.log2))
      rwa [← twoTo_add, show n.log2 + 1 + (52 - n.log2) = 53 by omega] at hlt
    · have hscale : twoTo (52 - n.log2) * twoTo (1022 + n.log2) = unitsInOne := by
        rw [← twoTo_add, unitsInOne]
        exact congrArg twoTo (by omega)
      rw [Nat.mul_assoc, hscale]
  · refine ⟨binadeSize, 1075, Nat.le_refl _, by decide, ?_⟩
    unfold exactBound unitsInOne
    rw [Nat.mul_comm 2, Nat.mul_assoc, Nat.mul_comm 2, ← twoTo_succ]

theorem unitsOfRank_whole {n : Nat} (hbound : n ≤ exactBound) :
    unitsOfRank (rankOfRatio n 1) = n * unitsInOne := by
  rcases Nat.eq_zero_or_pos n with rfl | hpos
  · rw [Nat.zero_mul]
    unfold rankOfRatio
    dsimp only
    rw [Nat.zero_mul]
    rfl
  · obtain ⟨significand, scale, hlow, hhigh, hexact⟩ := exists_significand hpos hbound
    rw [hexact]
    exact unitsOfRank_rankOfRatio Nat.one_pos hlow hhigh (by rw [hexact, Nat.mul_one])

/-- The number nearest to an integer is the one of its sign and rank, which has to be finite. -/
theorem ofInt_eq_ok {i : Int} {x : Binary64} (h : ofInt i = .ok x) :
    ofRank (decide (i < 0)) (rankOfRatio i.natAbs 1) = x ∧ x.isFinite = true := by
  unfold ofInt at h
  cases hi : ofInt? i with
  | none =>
    rw [hi] at h
    cases h
  | some y =>
    rw [hi] at h
    rw [← Except.ok.inj h]
    exact finite?_eq_some_iff.mp hi

theorem ofInt_eq_error {i : Int} {fault : ValueFault} (h : ofInt i = .error fault) :
    fault = .intTooLarge := by
  unfold ofInt at h
  cases hx : ofInt? i with
  | some x => rw [hx] at h; cases h
  | none => rw [hx] at h; exact (Except.error.inj h).symm

/-- The number of the sign and the magnitude of an integer is that integer. -/
theorem quantity_of_natAbs {i : Int} {rank : Nat} (hunits : unitsOfRank rank = i.natAbs * unitsInOne)
    (hrank : rank < rankBound) :
    (Binary64.finite (decide (i < 0)) rank hrank).quantity = .units (i * unitsInOne) := by
  by_cases hnegative : i < 0
  · have habs : (i.natAbs : Int) = -i := by omega
    rw [decide_eq_true hnegative, quantity, hunits, Int.natCast_mul, habs, Int.neg_mul, Int.neg_neg]
  · have habs : (i.natAbs : Int) = i := by omega
    rw [decide_eq_false hnegative, quantity, hunits, Int.natCast_mul, habs]

/-- An integer up to the bound is rounded to the number that it is. -/
theorem quantity_of_ofInt {i : Int} (hbound : i.natAbs ≤ exactBound) {x : Binary64}
    (h : ofInt i = .ok x) : x.quantity = .units (i * unitsInOne) := by
  obtain ⟨rfl, hfinite⟩ := ofInt_eq_ok h
  unfold ofRank at hfinite ⊢
  split
  · next hrank => exact quantity_of_natAbs (unitsOfRank_whole hbound) hrank
  · next hrank =>
    rw [dif_neg hrank] at hfinite
    cases hfinite

/-! ### Integers that are binary64 numbers -/

/-- A magnitude beyond the lowest binade has 53 bits and a scale. -/
theorem exists_normal {rank : Nat} (h : binadeSize ≤ unitsOfRank rank) :
    ∃ significand scale, binadeSize ≤ significand ∧ significand < 2 * binadeSize ∧
      rank = scale * binadeSize + significand := by
  have hbinade : rank / binadeSize ≠ 0 := by
    intro hzero
    unfold unitsOfRank at h
    dsimp only at h
    rw [if_pos hzero] at h
    unfold binadeSize at *
    omega
  refine ⟨binadeSize + rank % binadeSize, rank / binadeSize - 1, ?_, ?_, ?_⟩
  · exact Nat.le_add_right _ _
  · unfold binadeSize
    omega
  · unfold binadeSize at *
    omega

/-- A whole number that is the magnitude of a rank is rounded to that rank. -/
theorem rankOfRatio_of_units {n rank : Nat} (h : unitsOfRank rank = n * unitsInOne) :
    rankOfRatio n 1 = rank := by
  rcases Nat.eq_zero_or_pos n with rfl | hpos
  · rcases Nat.eq_zero_or_pos rank with rfl | hrank
    · unfold rankOfRatio
      dsimp only
      rw [Nat.zero_mul]
      rfl
    · have hlt := unitsOfRank_lt hrank
      omega
  · have hlarge : binadeSize ≤ unitsInOne := twoTo_mono (m := 52) (by decide)
    have hnormal : binadeSize ≤ unitsOfRank rank := by
      rw [h]
      exact Nat.le_trans hlarge (Nat.le_mul_of_pos_left _ hpos)
    obtain ⟨significand, scale, hlow, hhigh, rfl⟩ := exists_normal hnormal
    refine rankOfRatio_exact Nat.one_pos hlow hhigh ?_
    rw [← h, unitsOfRank_normal hlow hhigh, Nat.mul_one]

/-- An integer that is a binary64 number, however great it is, is rounded to it. -/
theorem ofInt_of_quantity {i : Int} {x : Binary64} (h : x.quantity = .units (i * unitsInOne)) :
    ∃ y, ofInt i = .ok y ∧ y.quantity = x.quantity := by
  cases x with
  | nan => cases h
  | infinite negative => cases negative <;> cases h
  | finite negative rank hrank =>
    have hunits : unitsOfRank rank = i.natAbs * unitsInOne := by
      have habs : (unitsOfRank rank : Int).natAbs = (i * unitsInOne).natAbs := by
        cases negative with
        | false => exact congrArg Int.natAbs (Quantity.units.inj h)
        | true =>
          rw [← Int.natAbs_neg]
          exact congrArg Int.natAbs (Quantity.units.inj h)
      rwa [Int.natAbs_mul, Int.natAbs_natCast, Int.natAbs_natCast] at habs
    refine ⟨.finite (decide (i < 0)) rank hrank, ?_, ?_⟩
    · unfold ofInt ofInt? ofRatio ofRank
      rw [rankOfRatio_of_units hunits, dif_pos hrank]
      rfl
    · rw [h, quantity_of_natAbs hunits hrank]

end Binary64

end ScanCatalog
