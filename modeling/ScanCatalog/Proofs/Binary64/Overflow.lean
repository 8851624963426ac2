import ScanCatalog.Proofs.Binary64.Integers

/-!
# Decimals beyond the binary64 numbers

Rounding gives an infinity only from half a step above the greatest finite number on. A decimal of
a lower magnitude is rounded to a finite number.

## Main definitions

* `Binary64.overflowBound`: the magnitude half a step above the greatest finite number;
* `Binary64.Overflows`: the decimals of that magnitude and beyond.

## Main statements

* `Binary64.overflows_of_ofDecimal`: a decimal that is rounded to an infinity overflows.
-/

namespace ScanCatalog

/-- Rounding goes up from the middle on. -/
theorem lt_twice_of_lt_roundHalfEven {num den : Nat} (h : num / den < roundHalfEven num den) :
    (2 * (num / den) + 1) * den ≤ 2 * num := by
  have hhalf : den ≤ 2 * (num % den) := by
    unfold roundHalfEven at h
    dsimp only at h
    split at h
    · exact absurd h (Nat.lt_irrefl _)
    · next hlow => exact Nat.not_lt.mp hlow
  calc (2 * (num / den) + 1) * den
      = 2 * (den * (num / den)) + den := by
        rw [Nat.add_mul, Nat.one_mul, Nat.mul_assoc, Nat.mul_comm den]
    _ ≤ 2 * (den * (num / den)) + 2 * (num % den) := Nat.add_le_add_left hhalf _
    _ = 2 * num := by rw [← Nat.mul_add, Nat.div_add_mod]

namespace Binary64

/-- The magnitude half a step above the greatest finite number, `2 ^ 1024 - 2 ^ 970`. -/
def overflowBound : Nat := (twoTo 54 - 1) * twoTo 970

/-- The decimal `coefficient * 10 ^ exponent` is at least half a step above the greatest finite
number. -/
def Overflows (coefficient : Nat) (exponent : Int) : Prop :=
  overflowBound * tenTo (-exponent).toNat ≤ coefficient * tenTo exponent.toNat

instance (coefficient : Nat) (exponent : Int) : Decidable (Overflows coefficient exponent) :=
  inferInstanceAs (Decidable (_ ≤ _))

variable {num den coefficient : Nat} {exponent : Int} {negative : Bool}

/-- A quotient beyond all ranks is at least half a step above the greatest finite number, in
units. -/
theorem le_scaled_of_rankOfRatio (h : rankBound ≤ rankOfRatio num den) :
    (twoTo 54 - 1) * (den * twoTo 2044) ≤ num * unitsInOne := by
  have hbits : twoTo 53 = 2 * binadeSize := rfl
  have hmore : twoTo 54 = 4 * binadeSize := rfl
  unfold rankOfRatio at h
  dsimp only at h
  generalize num * unitsInOne = scaled at *
  generalize hshift : (scaled / den).log2 - 52 = shift at h
  -- the quotient is cut to 53 bits, so only rounding can carry it beyond them
  have hcut : scaled / (den * twoTo shift) < twoTo 53 := by
    have hlog : scaled / den < twoTo (shift + 53) :=
      Nat.lt_of_lt_of_le Nat.lt_log2_self (twoTo_mono (by omega))
    rw [← Nat.div_div_eq_div_mul]
    refine Nat.div_lt_of_lt_mul ?_
    rwa [twoTo_add] at hlog
  have hround := (roundHalfEven_bounds scaled (den * twoTo shift)).2
  have hlow : 2045 ≤ shift := by
    unfold binadeSize rankBound at *
    omega
  rcases Nat.eq_or_lt_of_le hlow with heq | hhigh
  · have hdouble : den * twoTo shift = den * twoTo 2044 * 2 := by
      rw [← heq, twoTo_succ, Nat.mul_assoc]
    have hquotient : scaled / (den * twoTo shift) = twoTo 53 - 1 := by
      unfold binadeSize rankBound at *
      omega
    have hup : scaled / (den * twoTo shift) < roundHalfEven scaled (den * twoTo shift) := by
      unfold binadeSize rankBound at *
      omega
    have hhalf := lt_twice_of_lt_roundHalfEven hup
    rw [hquotient, hdouble] at hhalf
    generalize den * twoTo 2044 = unit at hhalf
    rw [hbits] at hhalf
    rw [hmore]
    unfold binadeSize at *
    omega
  · have hquotient : twoTo 2098 ≤ scaled / den := by
      have hlog : 2098 ≤ (scaled / den).log2 := by omega
      have hne : scaled / den ≠ 0 := by
        intro hzero
        rw [hzero, Nat.log2_zero] at hlog
        exact absurd hlog (by decide)
      exact Nat.le_trans (twoTo_mono hlog) (Nat.log2_self_le hne)
    calc (twoTo 54 - 1) * (den * twoTo 2044)
        ≤ twoTo 54 * (den * twoTo 2044) := Nat.mul_le_mul_right _ (Nat.sub_le _ _)
      _ = twoTo 2098 * den := by
        rw [Nat.mul_comm den, ← Nat.mul_assoc, ← twoTo_add]
      _ ≤ scaled / den * den := Nat.mul_le_mul_right den hquotient
      _ ≤ scaled := Nat.div_mul_le_self scaled den

theorem overflowBound_mul_le_of_rankOfRatio (h : rankBound ≤ rankOfRatio num den) :
    overflowBound * den ≤ num := by
  have hscaled := le_scaled_of_rankOfRatio h
  have hexponents : twoTo 2044 = twoTo 970 * twoTo 1074 := twoTo_add 970 1074
  refine Nat.le_of_mul_le_mul_right ?_ (twoTo_pos 1074)
  calc overflowBound * den * twoTo 1074
      = (twoTo 54 - 1) * (den * twoTo 2044) := by
        rw [overflowBound, hexponents, Nat.mul_assoc, Nat.mul_assoc, ← Nat.mul_assoc (twoTo 970),
          Nat.mul_comm (twoTo 970) den, Nat.mul_assoc den]
    _ ≤ num * twoTo 1074 := hscaled

/-- A number is at least the power of ten that has as many digits. -/
theorem tenTo_length_le (h : coefficient ≠ 0) :
    tenTo ((Nat.toDigits 10 coefficient).length - 1) ≤ coefficient := by
  refine Nat.not_lt.mp fun hlt => ?_
  have hpos : 0 < (Nat.toDigits 10 coefficient).length :=
    List.length_pos_iff.mpr Nat.toDigits_ne_nil
  rcases Nat.eq_zero_or_pos ((Nat.toDigits 10 coefficient).length - 1) with hone | hmore
  · rw [hone] at hlt
    exact h (Nat.lt_one_iff.mp hlt)
  · have hle := (Nat.length_toDigits_le_iff (by decide) hmore).mpr hlt
    omega

theorem twoTo_three_mul_le (n : Nat) : twoTo (3 * n) ≤ tenTo n :=
  calc twoTo (3 * n)
      = 8 ^ n := Nat.pow_mul 2 3 n
    _ ≤ tenTo n := Nat.pow_le_pow_left (by decide) n

/-- Decimals with an exponent that is great for their digits overflow. -/
theorem overflows_of_decimalBound (hne : coefficient ≠ 0)
    (hsize : decimalBound < exponent + (Nat.toDigits 10 coefficient).length) :
    Overflows coefficient exponent := by
  have hdigits := tenTo_length_le hne
  have hbound : overflowBound ≤ tenTo 400 :=
    calc overflowBound
        ≤ twoTo 54 * twoTo 970 := Nat.mul_le_mul_right _ (Nat.sub_le _ _)
      _ = twoTo 1024 := (twoTo_add 54 970).symm
      _ ≤ twoTo (3 * 342) := twoTo_mono (by decide)
      _ ≤ tenTo 342 := twoTo_three_mul_le 342
      _ ≤ tenTo 400 := tenTo_mono (by decide)
  generalize (Nat.toDigits 10 coefficient).length = size at *
  have hexponents : 400 + (-exponent).toNat ≤ size - 1 + exponent.toNat := by
    unfold decimalBound at hsize
    omega
  calc overflowBound * tenTo (-exponent).toNat
      ≤ tenTo 400 * tenTo (-exponent).toNat := Nat.mul_le_mul_right _ hbound
    _ = tenTo (400 + (-exponent).toNat) := (tenTo_add _ _).symm
    _ ≤ tenTo (size - 1 + exponent.toNat) := tenTo_mono hexponents
    _ = tenTo (size - 1) * tenTo exponent.toNat := tenTo_add _ _
    _ ≤ coefficient * tenTo exponent.toNat := Nat.mul_le_mul_right _ hdigits

/-- A decimal that is rounded to an infinity overflows. -/
theorem overflows_of_ofDecimal (h : (ofDecimal negative coefficient exponent).isFinite = false) :
    Overflows coefficient exponent := by
  have hrank : ∀ {num den : Nat}, (ofRatio negative num den).isFinite = false →
      rankBound ≤ rankOfRatio num den := by
    intro num den hinfinite
    unfold ofRatio ofRank at hinfinite
    split at hinfinite
    · cases hinfinite
    · next hbound => exact Nat.not_lt.mp hbound
  unfold ofDecimal at h
  split at h
  · cases h
  next hne =>
  dsimp only at h
  split at h
  · next hsize => exact overflows_of_decimalBound hne hsize
  unfold Overflows
  split at h
  · cases h
  split at h
  · next hexponent =>
    have hle := overflowBound_mul_le_of_rankOfRatio (hrank h)
    have hnone : (-exponent).toNat = 0 := by omega
    have hone : tenTo 0 = 1 := rfl
    rw [hnone, hone]
    exact hle
  · next hexponent =>
    have hle := overflowBound_mul_le_of_rankOfRatio (hrank h)
    have hnone : exponent.toNat = 0 := by omega
    have hone : tenTo 0 = 1 := rfl
    rw [hnone, hone, Nat.mul_one]
    exact hle

end Binary64

end ScanCatalog
