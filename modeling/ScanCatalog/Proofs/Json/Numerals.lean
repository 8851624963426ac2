import ScanCatalog.Binary64.Shortest
import ScanCatalog.Json.Reader

/-!
# Numbers in JSON

A number of JSON has a sign or none, digits that do not begin with a zero unless that is the only
one, and may have a fraction and an exponent. The reader takes such a number as a whole, and
integers and finite binary64 numbers are written as one.

## Main definitions

* `Json.IsUnsigned`, `Json.IsNumeral`: the code points of a number, without and with its sign;
* `Json.IsApart`: code points that do not go on with a number.

## Main statements

* `Json.IsNumeral.readNumber`: a number is read as a whole;
* `Json.isNumeral_ofInt`, `Json.isNumeral_shown`: numbers are written as numbers.
-/

namespace ScanCatalog

/-! ### Digits of natural numbers -/

namespace Text

theorem isDigit_of_mem_ofNat {n c : Nat} (hc : c ∈ (ofNat n).codes) :
    Numeral.isDigit c = true := by
  obtain ⟨digit, hdigit, rfl⟩ := List.mem_map.mp hc
  have h : digit.isDigit = true := Nat.isDigit_of_mem_toDigits (by decide) (by decide) hdigit
  simp only [Char.isDigit, Bool.and_eq_true, decide_eq_true_eq, UInt32.le_iff_toNat_le] at h
  unfold Numeral.isDigit
  simp only [Bool.and_eq_true, decide_eq_true_eq]
  exact ⟨h.1, Nat.lt_succ_of_le h.2⟩

theorem ofNat_ne_nil (n : Nat) : (ofNat n).codes ≠ [] := by
  unfold ofNat
  exact fun h => Nat.toDigits_ne_nil (List.map_eq_nil_iff.mp h)

/-- Only the zero begins with a zero. -/
theorem head?_ofNat {n : Nat} (hn : n ≠ 0) : (ofNat n).codes.head? ≠ some 48 := by
  unfold ofNat
  rw [List.head?_map]
  induction n using Nat.strongRecOn with
  | ind n ih =>
    rw [Nat.toDigits_eq_if (by decide)]
    by_cases hlt : n < 10
    · have hdigit : ∀ d < 10, d ≠ 0 → [d.digitChar].head?.map Char.toNat ≠ some 48 := by decide
      rw [if_pos hlt]
      exact hdigit n hlt hn
    · have hih := ih (n / 10) (by omega) (by omega)
      rw [if_neg hlt]
      cases hdigits : Nat.toDigits 10 (n / 10) with
      | nil => exact absurd hdigits Nat.toDigits_ne_nil
      | cons digit rest =>
        rw [hdigits] at hih
        exact hih

theorem length_ofNat_le {n count : Nat} (hcount : 0 < count) (hn : n < tenTo count) :
    (ofNat n).codes.length ≤ count := by
  unfold ofNat
  rw [List.length_map]
  exact (Nat.length_toDigits_le_iff (by decide) hcount).mpr hn

end Text

/-- A decimal that is not zero, unless it stands behind the point. -/
def Decimal.Leads (d : Decimal) : Prop := d.coefficient ≠ 0 ∨ d.exponent < 0

namespace Json

/-! ### The grammar -/

/-- The digits before the point: one of them, or several that do not begin with a zero. -/
structure IsWhole (codes : List Nat) : Prop where
  ne_nil : codes ≠ []
  digits : ∀ c ∈ codes, Numeral.isDigit c = true
  zero : codes.head? = some 48 → codes = [48]

/-- A point and digits, or nothing. -/
def IsFraction (codes : List Nat) : Prop :=
  codes = [] ∨ ∃ digits, digits ≠ [] ∧ (∀ c ∈ digits, Numeral.isDigit c = true) ∧
    codes = 46 :: digits

/-- An exponent with a sign, or nothing. -/
def IsExponent (codes : List Nat) : Prop :=
  codes = [] ∨ ∃ sign digits, (sign = 43 ∨ sign = 45) ∧ digits ≠ [] ∧
    (∀ c ∈ digits, Numeral.isDigit c = true) ∧ codes = 101 :: sign :: digits

/-- A number without a sign. One that has neither a fraction nor an exponent has no more digits
than are read. -/
inductive IsUnsigned : List Nat → Prop
  | mk {whole fraction exponent : List Nat} (hwhole : IsWhole whole)
      (hfraction : IsFraction fraction) (hexponent : IsExponent exponent)
      (hsize : fraction ++ exponent = [] → whole.length ≤ Numeral.digitLimit) :
      IsUnsigned (whole ++ (fraction ++ exponent))

/-- A number, after a minus if it is negative. -/
def IsNumeral (codes : List Nat) : Prop :=
  IsUnsigned codes ∨ ∃ body, IsUnsigned body ∧ codes = 45 :: body

/-- Code points that do not go on with a number. -/
def IsApart (codes : List Nat) : Prop := codes.takeWhile isOfNumber = []

theorem isOfNumber_of_isDigit {c : Nat} (h : Numeral.isDigit c = true) : isOfNumber c = true := by
  unfold isOfNumber
  rw [h]
  rfl

theorem ne_of_isDigit {c d : Nat} (h : Numeral.isDigit c = true)
    (hd : Numeral.isDigit d = false) : c ≠ d := by
  rintro rfl
  rw [h] at hd
  cases hd

theorem IsWhole.isOfNumber {codes : List Nat} (h : IsWhole codes) :
    ∀ c ∈ codes, isOfNumber c = true := fun c hc => isOfNumber_of_isDigit (h.digits c hc)

theorem IsFraction.isOfNumber {codes : List Nat} (h : IsFraction codes) :
    ∀ c ∈ codes, isOfNumber c = true := by
  rcases h with rfl | ⟨digits, -, hdigits, rfl⟩
  · exact List.forall_mem_nil _
  · exact List.forall_mem_cons.mpr ⟨rfl, fun c hc => isOfNumber_of_isDigit (hdigits c hc)⟩

theorem IsExponent.isOfNumber {codes : List Nat} (h : IsExponent codes) :
    ∀ c ∈ codes, isOfNumber c = true := by
  rcases h with rfl | ⟨sign, digits, hsign, -, hdigits, rfl⟩
  · exact List.forall_mem_nil _
  · have hsign : Json.isOfNumber sign = true := by rcases hsign with rfl | rfl <;> rfl
    exact List.forall_mem_cons.mpr ⟨rfl, List.forall_mem_cons.mpr
      ⟨hsign, fun c hc => isOfNumber_of_isDigit (hdigits c hc)⟩⟩

theorem IsUnsigned.isOfNumber {codes : List Nat} (h : IsUnsigned codes) :
    ∀ c ∈ codes, isOfNumber c = true := by
  cases h with
  | mk hwhole hfraction hexponent _ =>
    exact List.forall_mem_append.mpr ⟨hwhole.isOfNumber,
      List.forall_mem_append.mpr ⟨hfraction.isOfNumber, hexponent.isOfNumber⟩⟩

theorem IsNumeral.isOfNumber {codes : List Nat} (h : IsNumeral codes) :
    ∀ c ∈ codes, isOfNumber c = true := by
  rcases h with h | ⟨body, h, rfl⟩
  · exact h.isOfNumber
  · exact List.forall_mem_cons.mpr ⟨rfl, h.isOfNumber⟩

/-- A number begins with a digit, after its sign. -/
theorem IsUnsigned.head {codes : List Nat} (h : IsUnsigned codes) :
    ∃ c rest, codes = c :: rest ∧ Numeral.isDigit c = true := by
  cases h with
  | @mk whole fraction exponent hwhole _ _ _ =>
    obtain ⟨c, rest, rfl⟩ := List.exists_cons_of_ne_nil hwhole.ne_nil
    exact ⟨c, rest ++ (fraction ++ exponent), rfl, hwhole.digits c List.mem_cons_self⟩

/-! ### Reading -/

/-- Digits are spanned up to what is no digit. -/
theorem spanDigits_append {digits rest : List Nat}
    (hdigits : ∀ c ∈ digits, Numeral.isDigit c = true)
    (hrest : rest.takeWhile Numeral.isDigit = []) :
    Numeral.spanDigits (digits ++ rest) = (digits, rest) := by
  unfold Numeral.spanDigits
  have hdrop : rest.dropWhile Numeral.isDigit = rest := by
    have h := List.takeWhile_append_dropWhile (p := Numeral.isDigit) (l := rest)
    rwa [hrest, List.nil_append] at h
  rw [List.takeWhile_append_of_pos hdigits, List.dropWhile_append_of_pos hdigits, hrest, hdrop,
    List.append_nil]

theorem spanWhole_append {whole rest : List Nat} (hwhole : IsWhole whole)
    (hrest : rest.takeWhile Numeral.isDigit = []) : spanWhole (whole ++ rest) = (whole, rest) := by
  obtain ⟨c, digits, rfl⟩ := List.exists_cons_of_ne_nil hwhole.ne_nil
  by_cases hc : c = 48
  · subst hc
    rw [hwhole.zero rfl]
    rfl
  · unfold spanWhole
    rw [List.cons_append]
    split
    · next heq => exact absurd (List.cons.inj heq).1 hc
    · exact spanDigits_append hwhole.digits hrest

theorem spanFraction_point (rest : List Nat) :
    spanFraction (46 :: rest) =
      match Numeral.spanDigits rest with
      | ([], _) => ([], 46 :: rest)
      | spanned => spanned := rfl

theorem IsFraction.spanFraction {fraction rest : List Nat} (h : IsFraction fraction)
    (hrest : rest.takeWhile Numeral.isDigit = []) (hpoint : rest.head? ≠ some 46) :
    ∃ digits, spanFraction (fraction ++ rest) = (digits, rest) := by
  rcases h with rfl | ⟨digits, hne, hdigits, rfl⟩
  · refine ⟨[], ?_⟩
    unfold Json.spanFraction
    rw [List.nil_append]
    split
    · exact absurd rfl hpoint
    · rfl
  · refine ⟨digits, ?_⟩
    rw [List.cons_append, spanFraction_point, spanDigits_append hdigits hrest]
    split
    · next heq => exact absurd (Prod.mk.inj heq).1 hne
    · rfl

theorem spanExponent_letter (rest : List Nat) :
    Numeral.spanExponent (101 :: rest) =
      match Numeral.spanDigits (Numeral.spanSign rest).2 with
      | ([], _) => (0, 101 :: rest)
      | (digits, behind) =>
        (if (Numeral.spanSign rest).1 then -(Numeral.valueOf digits : Int)
          else Numeral.valueOf digits, behind) := rfl

theorem IsExponent.spanExponent {codes : List Nat} (h : IsExponent codes) :
    ∃ e, Numeral.spanExponent codes = (e, []) := by
  rcases h with rfl | ⟨sign, digits, hsign, hne, hdigits, rfl⟩
  · exact ⟨0, rfl⟩
  · have hspan : Numeral.spanDigits (Numeral.spanSign (sign :: digits)).2 = (digits, []) := by
      have h : Numeral.spanDigits (digits ++ []) = (digits, []) := spanDigits_append hdigits rfl
      rw [List.append_nil] at h
      rcases hsign with rfl | rfl <;> exact h
    obtain ⟨d, rest, rfl⟩ := List.exists_cons_of_ne_nil hne
    rw [spanExponent_letter, hspan]
    exact ⟨_, rfl⟩

/-- The digits, the fraction and the exponent of a number are what is spanned. -/
theorem IsUnsigned.spans {codes : List Nat} (h : IsUnsigned codes) :
    ∃ whole behind digits tail e, spanWhole codes = (whole, behind) ∧ whole ≠ [] ∧
      spanFraction behind = (digits, tail) ∧ Numeral.spanExponent tail = (e, []) ∧
      (behind = [] → whole.length ≤ Numeral.digitLimit) := by
  cases h with
  | @mk whole fraction exponent hwhole hfraction hexponent hsize =>
    have hexponentDigit : exponent.takeWhile Numeral.isDigit = [] := by
      rcases hexponent with rfl | ⟨sign, digits, -, -, -, rfl⟩ <;> rfl
    have hpoint : exponent.head? ≠ some 46 := by
      rcases hexponent with rfl | ⟨sign, digits, -, -, -, rfl⟩ <;> exact nofun
    have hbehind : (fraction ++ exponent).takeWhile Numeral.isDigit = [] := by
      rcases hfraction with rfl | ⟨digits, -, -, rfl⟩
      · exact hexponentDigit
      · rfl
    obtain ⟨digits, hspan⟩ := hfraction.spanFraction hexponentDigit hpoint
    obtain ⟨e, he⟩ := hexponent.spanExponent
    exact ⟨whole, fraction ++ exponent, digits, exponent, e, spanWhole_append hwhole hbehind,
      hwhole.ne_nil, hspan, he, hsize⟩

/-- A number is read as a whole. -/
theorem IsNumeral.readNumber {codes rest : List Nat} (h : IsNumeral codes) (hrest : IsApart rest)
    (offset : Nat) : ∃ v after, readNumber offset (codes ++ rest) = .ok ⟨v, after, rest⟩ := by
  have hspan : (codes ++ rest).takeWhile Json.isOfNumber = codes := by
    rw [List.takeWhile_append_of_pos h.isOfNumber, hrest, List.append_nil]
  have hdrop : (codes ++ rest).drop codes.length = rest := List.drop_left
  unfold Json.readNumber
  dsimp only
  rw [hspan]
  generalize hsigned : Prod.snd _ = body
  have hbody : IsUnsigned body := by
    rw [← hsigned]
    rcases h with h | ⟨body, h, rfl⟩
    · obtain ⟨c, tail, rfl, hc⟩ := h.head
      split
      · next heq =>
        rw [(List.cons.inj heq).1] at hc
        cases hc
      · exact h
    · exact h
  obtain ⟨whole, behind, digits, tail, e, hwhole, hne, hfraction, hexponent, hsize⟩ := hbody.spans
  obtain ⟨d, others, rfl⟩ := List.exists_cons_of_ne_nil hne
  rw [hwhole]
  dsimp only
  rw [hfraction, hexponent]
  dsimp only
  rw [List.length_nil, Nat.sub_zero, hdrop]
  by_cases hbehind : behind = []
  · rw [if_pos (by rw [hbehind]; rfl), if_neg (Nat.not_lt.mpr (hsize hbehind))]
    exact ⟨_, _, rfl⟩
  · rw [if_neg fun hlength => hbehind (List.length_eq_zero_iff.mp hlength.symm)]
    exact ⟨_, _, rfl⟩

/-! ### Integers -/

theorem isWhole_ofNat (n : Nat) : IsWhole (Text.ofNat n).codes where
  ne_nil := Text.ofNat_ne_nil n
  digits _ hc := Text.isDigit_of_mem_ofNat hc
  zero h := by
    by_cases hn : n = 0
    · subst hn
      rfl
    · exact absurd h (Text.head?_ofNat hn)

theorem isUnsigned_ofNat {n : Nat} (hn : n < tenTo Numeral.digitLimit) :
    IsUnsigned (Text.ofNat n).codes := by
  have h : IsUnsigned ((Text.ofNat n).codes ++ ([] ++ [])) :=
    .mk (isWhole_ofNat n) (.inl rfl) (.inl rfl) fun _ => Text.length_ofNat_le (by decide) hn
  rwa [List.append_nil, List.append_nil] at h

/-- Integers that are not too long are written as numbers. -/
theorem isNumeral_ofInt {i : Int} (hi : i.natAbs < tenTo Numeral.digitLimit) :
    IsNumeral (Text.ofInt i).codes := by
  cases i with
  | ofNat n => exact .inl (isUnsigned_ofNat hi)
  | negSucc n => exact .inr ⟨_, isUnsigned_ofNat hi, rfl⟩

/-! ### Decimals -/

/-- A number with a fraction or an exponent. -/
theorem isUnsigned_decimal {whole fraction exponent : List Nat} (hwhole : IsWhole whole)
    (hfraction : IsFraction fraction) (hexponent : IsExponent exponent)
    (hne : fraction ++ exponent ≠ []) : IsUnsigned (whole ++ (fraction ++ exponent)) :=
  .mk hwhole hfraction hexponent fun h => absurd h hne

theorem isFraction_of_digits {digits : List Nat} (hne : digits ≠ [])
    (hdigits : ∀ c ∈ digits, Numeral.isDigit c = true) : IsFraction (46 :: digits) :=
  .inr ⟨digits, hne, hdigits, rfl⟩

/-- A number with a fraction. -/
theorem isUnsigned_point {whole digits : List Nat} (hwhole : IsWhole whole) (hne : digits ≠ [])
    (hdigits : ∀ c ∈ digits, Numeral.isDigit c = true) : IsUnsigned (whole ++ 46 :: digits) := by
  have h : IsUnsigned (whole ++ (46 :: digits ++ [])) :=
    isUnsigned_decimal hwhole (isFraction_of_digits hne hdigits) (.inl rfl) (List.cons_ne_nil _ _)
  rwa [List.append_nil] at h

theorem isExponent_exponentPart (e : Int) : IsExponent (NumberFormat.exponentPart e).codes := by
  have hdigits : ∀ t : Text, (∀ c ∈ t.codes, Numeral.isDigit c = true) → t.codes ≠ [] →
      IsExponent (Text.ofString (if e < 0 then "e-" else "e+") ++ t).codes := by
    intro t ht hne
    split
    · exact .inr ⟨45, t.codes, .inr rfl, hne, ht, rfl⟩
    · exact .inr ⟨43, t.codes, .inl rfl, hne, ht, rfl⟩
  unfold NumberFormat.exponentPart
  refine hdigits _ ?_ ?_
  · split
    · exact List.forall_mem_cons.mpr ⟨rfl, fun _ => Text.isDigit_of_mem_ofNat⟩
    · exact fun _ => Text.isDigit_of_mem_ofNat
  · split
    · exact List.cons_ne_nil _ _
    · exact Text.ofNat_ne_nil _

theorem exponentPart_ne_nil (e : Int) : (NumberFormat.exponentPart e).codes ≠ [] := by
  unfold NumberFormat.exponentPart
  dsimp only
  rw [Text.codes_append]
  refine List.append_ne_nil_of_left_ne_nil ?_ _
  split <;> exact List.cons_ne_nil _ _

theorem isDigit_of_mem_zeros {count c : Nat} (hc : c ∈ List.replicate count 48) :
    Numeral.isDigit c = true := by
  rw [(List.mem_replicate.mp hc).2]
  rfl

/-- The digits of a number that is not zero, with zeros behind them or without some of them, may
stand before the point. -/
theorem isWhole_of_leading {n : Nat} (hn : n ≠ 0) {codes : List Nat} (hne : codes ≠ [])
    (hhead : codes.head? = (Text.ofNat n).codes.head?)
    (hdigits : ∀ c ∈ codes, Numeral.isDigit c = true) : IsWhole codes where
  ne_nil := hne
  digits := hdigits
  zero h := absurd (hhead.symm.trans h) (Text.head?_ofNat hn)

/-- The digits stand behind the point and some zeros. -/
theorem isUnsigned_below (n count : Nat) :
    IsUnsigned ([48, 46] ++ List.replicate count 48 ++ (Text.ofNat n).codes) := by
  have hwhole : IsWhole [48] := ⟨nofun, List.forall_mem_singleton.mpr rfl, fun _ => rfl⟩
  exact isUnsigned_point hwhole (List.append_ne_nil_of_right_ne_nil _ (Text.ofNat_ne_nil n))
    (List.forall_mem_append.mpr
      ⟨fun _ => isDigit_of_mem_zeros, fun _ => Text.isDigit_of_mem_ofNat⟩)

/-- The digits and some zeros stand before the point. -/
theorem isUnsigned_above {n : Nat} (hn : n ≠ 0) (count : Nat) :
    IsUnsigned ((Text.ofNat n).codes ++ List.replicate count 48 ++ [46, 48]) := by
  have hne := Text.ofNat_ne_nil n
  refine isUnsigned_point (isWhole_of_leading hn ?_ ?_ ?_) (List.cons_ne_nil 48 [])
    (List.forall_mem_singleton.mpr rfl)
  · exact List.append_ne_nil_of_left_ne_nil hne _
  · obtain ⟨c, rest, hcons⟩ := List.exists_cons_of_ne_nil hne
    rw [hcons]
    rfl
  · exact List.forall_mem_append.mpr
      ⟨fun _ => Text.isDigit_of_mem_ofNat, fun _ => isDigit_of_mem_zeros⟩

/-- The point stands between two of the digits. -/
theorem isUnsigned_between {n count : Nat} (hn : n ≠ 0) (hpos : 0 < count)
    (hlt : count < (Text.ofNat n).codes.length) :
    IsUnsigned ((Text.ofNat n).codes.take count ++ [46] ++ (Text.ofNat n).codes.drop count) := by
  rw [List.append_assoc, List.singleton_append]
  refine isUnsigned_point (isWhole_of_leading hn ?_ ?_ ?_) ?_ ?_
  · rw [Ne, List.take_eq_nil_iff]
    rintro (h | h)
    · omega
    · exact Text.ofNat_ne_nil n h
  · rw [List.head?_take, if_neg (by omega)]
  · exact fun c hc => Text.isDigit_of_mem_ofNat (List.mem_of_mem_take hc)
  · rw [Ne, List.drop_eq_nil_iff]
    omega
  · exact fun c hc => Text.isDigit_of_mem_ofNat (List.mem_of_mem_drop hc)

/-- One digit stands before the point, and there is an exponent. -/
theorem isUnsigned_scientific (n : Nat) (pointed : Bool) (e : Int) :
    IsUnsigned ((Text.ofNat n).codes.take 1 ++
      ((if ((Text.ofNat n).codes.drop 1).isEmpty then (if pointed then [46, 48] else [])
        else 46 :: (Text.ofNat n).codes.drop 1) ++ (NumberFormat.exponentPart e).codes)) := by
  have hdigits : ∀ c ∈ (Text.ofNat n).codes, Numeral.isDigit c = true :=
    fun _ => Text.isDigit_of_mem_ofNat
  obtain ⟨c, rest, hcons⟩ := List.exists_cons_of_ne_nil (Text.ofNat_ne_nil n)
  rw [hcons] at hdigits ⊢
  obtain ⟨hc, hrest⟩ := List.forall_mem_cons.mp hdigits
  have hwhole : IsWhole [c] :=
    ⟨List.cons_ne_nil _ _, List.forall_mem_singleton.mpr hc, fun h => by
      rw [Option.some.inj h]⟩
  refine isUnsigned_decimal hwhole ?_ (isExponent_exponentPart _) ?_
  · change IsFraction (if rest.isEmpty then _ else 46 :: rest)
    split
    · split
      · exact isFraction_of_digits (List.cons_ne_nil 48 []) (List.forall_mem_singleton.mpr rfl)
      · exact .inl rfl
    · next hrestNe =>
      exact isFraction_of_digits (fun h => hrestNe (List.isEmpty_iff.mpr h)) hrest
  · exact List.append_ne_nil_of_right_ne_nil _ (exponentPart_ne_nil _)

/-- A decimal is written as a number, whatever the format. -/
theorem isUnsigned_render (format : NumberFormat) {d : Decimal} (hd : d.Leads) :
    IsUnsigned (format.render d).codes := by
  have hcount : 0 < (Text.ofNat d.coefficient).codes.length :=
    List.length_pos_iff.mpr (Text.ofNat_ne_nil d.coefficient)
  have hzero : d.coefficient = 0 → (Text.ofNat d.coefficient).codes.length = 1 := by
    intro h
    rw [h]
    rfl
  unfold NumberFormat.render
  dsimp only
  split
  · split
    · exact isUnsigned_below _ _
    next hpower =>
    have hcoefficient : d.coefficient ≠ 0 := by
      rcases hd with hd | hd
      · exact hd
      · intro h
        have hlength := hzero h
        omega
    split
    · exact isUnsigned_above hcoefficient _
    · exact isUnsigned_between hcoefficient (by omega) (by omega)
  · rw [Text.codes_append, List.append_assoc]
    exact isUnsigned_scientific _ _ _

end Json

/-! ### Shortest decimals -/

theorem Decimal.Leads.trimZeros {d : Decimal} (h : d.Leads) (fuel : Nat) :
    (Decimal.trimZeros fuel d).Leads := by
  induction fuel generalizing d with
  | zero => exact h
  | succ fuel ih =>
    unfold Decimal.trimZeros
    split
    · next hzero => exact ih (.inl (by dsimp only; omega))
    · exact h

namespace Binary64

variable {rank num den c : Nat} {p : Int}

/-- A zero reads back to no other magnitude. -/
theorem ne_zero_of_readsBack (hrank : rank ≠ 0) (hbound : rank < rankBound)
    (h : (ofDecimal false c p == ofRank false rank) = true) : c ≠ 0 := by
  rintro rfl
  have hzero : ofDecimal false 0 p = ofRank false 0 := rfl
  have hpositive : 0 < rankBound := by decide
  rw [beq_iff_eq, hzero, ofRank, ofRank, dif_pos hbound, dif_pos hpositive] at h
  cases h
  exact hrank rfl

theorem ne_zero_of_gridPoint? (hrank : rank ≠ 0) (hbound : rank < rankBound)
    (h : gridPoint? rank num den p = some c) : c ≠ 0 := by
  unfold gridPoint? at h
  dsimp only at h
  split at h
  · next hlow _ =>
    have hne := ne_zero_of_readsBack hrank hbound hlow
    cases h
    exact Nat.ne_of_gt (Nat.lt_of_lt_of_le (Nat.pos_of_ne_zero hne) (roundHalfEven_bounds _ _).1)
  · next hlow _ =>
    cases h
    exact ne_zero_of_readsBack hrank hbound hlow
  · next hhigh =>
    cases h
    exact ne_zero_of_readsBack hrank hbound hhigh
  · cases h

/-- Grids are tried until one has a point that is not zero, or until they are too fine for a
zero. -/
theorem leads_shortestFrom (hrank : rank ≠ 0) (hbound : rank < rankBound) {fuel : Nat}
    (hfine : 0 ≤ p - fuel → den ≤ num ∧ 0 < den) : (shortestFrom rank num den fuel p).Leads := by
  induction fuel generalizing p with
  | zero =>
    unfold shortestFrom
    by_cases hp : p < 0
    · exact .inr hp
    · obtain ⟨hle, hden⟩ := hfine (by omega)
      have hpower : (-p).toNat = 0 := by omega
      refine .inl ?_
      dsimp only
      rw [hpower, tenTo, Nat.pow_eq, Nat.pow_zero, Nat.mul_one]
      exact Nat.ne_of_gt (Nat.div_pos hle hden)
  | succ fuel ih =>
    unfold shortestFrom
    split
    · next hpoint => exact .inl (ne_zero_of_gridPoint? hrank hbound hpoint)
    · exact ih fun h => hfine (by push_cast; omega)

/-- The bit lengths are enough to see that a quotient is not below one. -/
theorem le_of_leadingPower (h : 17 ≤ leadingPower num den) : den ≤ num := by
  unfold leadingPower at h
  dsimp only at h
  generalize hguess : Int.fdiv _ _ = guess at h
  have hlarge : 16 ≤ guess := by
    split at h
    · omega
    · split at h <;> omega
  rw [Int.fdiv_eq_ediv_of_nonneg _ (by decide)] at hguess
  have hbits : den.log2 + 1 ≤ num.log2 := by omega
  have hnum : num ≠ 0 := by
    rintro rfl
    rw [Nat.log2_zero] at hbits
    omega
  calc den ≤ 2 ^ (den.log2 + 1) := Nat.le_of_lt Nat.lt_log2_self
    _ ≤ 2 ^ num.log2 := Nat.pow_le_pow_right (by decide) hbits
    _ ≤ num := Nat.log2_self_le hnum

theorem leads_shortest (hrank : rank ≠ 0) (hbound : rank < rankBound) : (shortest rank).Leads := by
  have hden : 0 < unitsInOne := twoTo_pos 1074
  unfold shortest
  refine (leads_shortestFrom hrank hbound fun hfine => ⟨le_of_leadingPower ?_, hden⟩).trimZeros 17
  omega

end Binary64

namespace Json

/-- Finite numbers are written as numbers. -/
theorem isNumeral_shown {x : Binary64} (hx : x.isFinite = true) : IsNumeral x.shown.codes := by
  cases x with
  | nan => cases hx
  | infinite => cases hx
  | finite negative rank hbound =>
    have hmagnitude : IsUnsigned
        (if rank = 0 then ("0.0" : Text)
          else Binary64.messageFormat.render (Binary64.shortest rank)).codes := by
      split
      · have hwhole : IsWhole [48] := ⟨nofun, List.forall_mem_singleton.mpr rfl, fun _ => rfl⟩
        exact isUnsigned_point hwhole (List.cons_ne_nil 48 []) (List.forall_mem_singleton.mpr rfl)
      · next hrank => exact isUnsigned_render _ (Binary64.leads_shortest hrank hbound)
    cases negative with
    | false => exact .inl hmagnitude
    | true => exact .inr ⟨_, hmagnitude, rfl⟩

end Json

end ScanCatalog
