import ScanCatalog.Text.Utf8

/-!
# Reading UTF-8

Bytes are read just if they are the UTF-8 form of a text of scalar values, the code points
up to U+10FFFF that are no surrogates, and it is this text that they are read to.

## Main definitions

* `Text.IsScalar`: the code points that have a UTF-8 form of their own.

## Main statements

* `Text.utf8Head_eq_code`, `Text.utf8Head_utf8OfCode`: the form of the first code point;
* `Text.ofUtf8_eq_ok_iff`: what is read is what would be written.
-/

namespace ScanCatalog.Text

/-- A code point up to U+10FFFF that is no surrogate. -/
def IsScalar (c : Nat) : Prop := c < 0x110000 ∧ isSurrogate c = false

variable {lead c size pos : Nat} {rest octets codes : List Nat} {t : Text}

theorem isTail_iff {b : Nat} : isTail b = true ↔ 0x80 ≤ b ∧ b ≤ 0xBF := by
  simp [isTail]

theorem isSurrogate_eq_false_iff : isSurrogate c = false ↔ c < 0xD800 ∨ 0xE000 ≤ c := by
  simp only [isSurrogate, Bool.and_eq_false_iff, decide_eq_false_iff_not]
  omega

/-! ### The form of a code point -/

theorem utf8OfCode_two (hc : 0x80 ≤ c) (hlt : c < 0x800) :
    utf8OfCode c = [0xC0 + c / 0x40, 0x80 + c % 0x40] := by
  rw [utf8OfCode, if_neg (by omega), if_pos hlt]

theorem utf8OfCode_three (hc : 0x800 ≤ c) (hlt : c < 0x10000) :
    utf8OfCode c = [0xE0 + c / 0x1000, 0x80 + c / 0x40 % 0x40, 0x80 + c % 0x40] := by
  rw [utf8OfCode, if_neg (by omega), if_neg (by omega), if_pos hlt]

theorem utf8OfCode_four (hc : 0x10000 ≤ c) : utf8OfCode c =
    [0xF0 + c / 0x40000, 0x80 + c / 0x1000 % 0x40, 0x80 + c / 0x40 % 0x40, 0x80 + c % 0x40] := by
  rw [utf8OfCode, if_neg (by omega), if_neg (by omega), if_neg (by omega)]

/-- A second byte that may follow the first of three keeps the code point in its range. -/
theorem mayFollow_iff {b : Nat} : mayFollow lead b = true ↔ (0x80 ≤ b ∧ b ≤ 0xBF) ∧
    (lead = 0xE0 → 0xA0 ≤ b) ∧ (lead = 0xED → b < 0xA0) ∧ (lead = 0xF0 → 0x90 ≤ b) ∧
    (lead = 0xF4 → b < 0x90) := by
  rw [mayFollow, Bool.and_eq_true, isTail_iff]
  refine and_congr_right fun _ => ?_
  split
  · subst lead; simp
  split
  · subst lead; simp
  split
  · subst lead; simp
  split
  · subst lead; simp
  · simp_all

/-! ### Reading the form of a code point -/

variable {b b' b'' : Nat}

theorem form_two (hlead : 0xC2 ≤ lead) (hlt : lead < 0xE0) (hb : isTail b = true) :
    IsScalar (lead % 0x20 * 0x40 + tailBits b) ∧
      utf8OfCode (lead % 0x20 * 0x40 + tailBits b) = [lead, b] := by
  rw [isTail_iff] at hb
  unfold tailBits
  refine ⟨⟨by omega, isSurrogate_eq_false_iff.mpr (by omega)⟩, ?_⟩
  rw [utf8OfCode_two (by omega) (by omega), List.cons.injEq, List.cons.injEq]
  refine ⟨by omega, by omega, rfl⟩

theorem form_three (hlead : 0xE0 ≤ lead) (hlt : lead < 0xF0) (hb : mayFollow lead b = true)
    (hb' : isTail b' = true) :
    IsScalar (lead % 0x10 * 0x1000 + tailBits b * 0x40 + tailBits b') ∧
      utf8OfCode (lead % 0x10 * 0x1000 + tailBits b * 0x40 + tailBits b') = [lead, b, b'] := by
  obtain ⟨hb, hlow, hhigh, -, -⟩ := mayFollow_iff.mp hb
  rw [isTail_iff] at hb'
  unfold tailBits
  refine ⟨⟨by omega, isSurrogate_eq_false_iff.mpr (by omega)⟩, ?_⟩
  rw [utf8OfCode_three (by omega) (by omega), List.cons.injEq, List.cons.injEq, List.cons.injEq]
  refine ⟨by omega, by omega, by omega, rfl⟩

theorem form_four (hlead : 0xF0 ≤ lead) (hlt : lead < 0xF5) (hb : mayFollow lead b = true)
    (hb' : isTail b' = true) (hb'' : isTail b'' = true) :
    IsScalar (lead % 0x08 * 0x40000 + tailBits b * 0x1000 + tailBits b' * 0x40 + tailBits b'') ∧
      utf8OfCode (lead % 0x08 * 0x40000 + tailBits b * 0x1000 + tailBits b' * 0x40 +
        tailBits b'') = [lead, b, b', b''] := by
  obtain ⟨hb, -, -, hlow, hhigh⟩ := mayFollow_iff.mp hb
  rw [isTail_iff] at hb' hb''
  unfold tailBits
  refine ⟨⟨by omega, isSurrogate_eq_false_iff.mpr (by omega)⟩, ?_⟩
  rw [utf8OfCode_four (by omega), List.cons.injEq, List.cons.injEq, List.cons.injEq,
    List.cons.injEq]
  refine ⟨by omega, by omega, by omega, by omega, rfl⟩

/-- What is read first is a scalar value, and its form is what is read. -/
theorem utf8Head_eq_code (h : utf8Head lead rest = .code c size) :
    IsScalar c ∧ ∃ tail more, rest = tail ++ more ∧ size = tail.length + 1 ∧
      utf8OfCode c = lead :: tail := by
  revert h
  fun_cases utf8Head lead rest
  -- the other cases are faults
  all_goals rintro ⟨⟩
  case case1 hone =>
    refine ⟨⟨by omega, isSurrogate_eq_false_iff.mpr (by omega)⟩, [], rest, rfl, rfl, ?_⟩
    rw [utf8OfCode, if_pos hone]
  case case4 hlow hlt b more hb =>
    obtain ⟨hscalar, hform⟩ := form_two (Nat.not_lt.mp hlow) hlt hb
    exact ⟨hscalar, [b], more, rfl, rfl, hform⟩
  case case9 hlow hlt b hb b' more hb' =>
    obtain ⟨hscalar, hform⟩ := form_three (Nat.not_lt.mp hlow) hlt (by simpa using hb) hb'
    exact ⟨hscalar, [b, b'], more, rfl, rfl, hform⟩
  case case16 hlow hlt b hb b' hb' b'' more hb'' =>
    obtain ⟨hscalar, hform⟩ :=
      form_four (Nat.not_lt.mp hlow) hlt (by simpa using hb) (by simpa using hb') hb''
    exact ⟨hscalar, [b, b', b''], more, rfl, rfl, hform⟩

/-- The form of a scalar value is read first, whatever follows it. -/
theorem utf8Head_utf8OfCode (hc : IsScalar c) (more : List Nat) :
    ∃ lead tail, utf8OfCode c = lead :: tail ∧
      utf8Head lead (tail ++ more) = .code c (tail.length + 1) := by
  obtain ⟨hbound, hsurrogate⟩ := hc
  rw [isSurrogate_eq_false_iff] at hsurrogate
  by_cases hone : c < 0x80
  · refine ⟨c, [], by rw [utf8OfCode, if_pos hone], ?_⟩
    rw [utf8Head.eq_def, if_pos hone]
    rfl
  by_cases htwo : c < 0x800
  · refine ⟨_, _, utf8OfCode_two (by omega) htwo, ?_⟩
    have htail : isTail (0x80 + c % 0x40) = true := isTail_iff.mpr (by omega)
    rw [utf8Head.eq_def, if_neg (by omega), if_neg (by omega), if_pos (by omega)]
    simp only [List.cons_append, List.nil_append, htail, ↓reduceIte, tailBits, List.length_cons,
      List.length_nil, Utf8Head.code.injEq, and_true]
    omega
  by_cases hthree : c < 0x10000
  · refine ⟨_, _, utf8OfCode_three (by omega) hthree, ?_⟩
    have hfollow : mayFollow (0xE0 + c / 0x1000) (0x80 + c / 0x40 % 0x40) = true :=
      mayFollow_iff.mpr (by omega)
    have htail : isTail (0x80 + c % 0x40) = true := isTail_iff.mpr (by omega)
    rw [utf8Head.eq_def, if_neg (by omega), if_neg (by omega), if_neg (by omega), if_pos (by omega)]
    simp only [List.cons_append, List.nil_append, hfollow, Bool.not_true, Bool.false_eq_true, htail,
      ↓reduceIte, tailBits, List.length_cons, List.length_nil, Utf8Head.code.injEq, and_true]
    omega
  · refine ⟨_, _, utf8OfCode_four (by omega), ?_⟩
    have hfollow : mayFollow (0xF0 + c / 0x40000) (0x80 + c / 0x1000 % 0x40) = true :=
      mayFollow_iff.mpr (by omega)
    have htail : isTail (0x80 + c / 0x40 % 0x40) = true := isTail_iff.mpr (by omega)
    have htail' : isTail (0x80 + c % 0x40) = true := isTail_iff.mpr (by omega)
    rw [utf8Head.eq_def, if_neg (by omega), if_neg (by omega), if_neg (by omega), if_neg (by omega),
      if_pos (by omega)]
    simp only [List.cons_append, List.nil_append, hfollow, Bool.not_true, Bool.false_eq_true, htail,
      htail', ↓reduceIte, tailBits, List.length_cons, List.length_nil, Utf8Head.code.injEq,
      and_true]
    omega

/-! ### Reading bytes -/

/-- The bytes of the code point that was read last are passed over. -/
theorem codesOfUtf8_append (pos : Nat) (tail more : List Nat) :
    codesOfUtf8 pos tail.length (tail ++ more) = codesOfUtf8 (pos + tail.length) 0 more := by
  induction tail generalizing pos with
  | nil => rfl
  | cons b rest ih =>
    rw [List.cons_append, List.length_cons, codesOfUtf8, ih, Nat.add_right_comm, Nat.add_assoc]

/-- What is read is written as the bytes that were read. The induction is on how many they are,
as each step takes a whole code point off them. -/
theorem forms_of_codesOfUtf8 (h : codesOfUtf8 pos 0 octets = .ok codes) :
    (∀ c ∈ codes, IsScalar c) ∧ codes.flatMap utf8OfCode = octets := by
  induction hlength : octets.length using Nat.strongRecOn generalizing octets codes pos with
  | ind length ih =>
    cases octets with
    | nil =>
      cases h
      exact ⟨List.forall_mem_nil _, rfl⟩
    | cons b rest =>
      rw [codesOfUtf8] at h
      cases hhead : utf8Head b rest with
      | fault cause size => simp [hhead] at h
      | code c size =>
        obtain ⟨hscalar, tail, more, rfl, rfl, hform⟩ := utf8Head_eq_code hhead
        simp only [hhead, Nat.add_sub_cancel, codesOfUtf8_append] at h
        cases hmore : codesOfUtf8 (pos + 1 + tail.length) 0 more with
        | error fault => simp [hmore] at h
        | ok others =>
          simp only [hmore, Except.ok.injEq] at h
          subst h
          have hshorter : more.length < length := by
            rw [← hlength, List.length_cons, List.length_append]
            omega
          obtain ⟨hothers, hforms⟩ := ih _ hshorter hmore rfl
          refine ⟨List.forall_mem_cons.mpr ⟨hscalar, hothers⟩, ?_⟩
          rw [List.flatMap_cons, hform, hforms, List.cons_append]

/-- What is written is read to what was written. -/
theorem codesOfUtf8_flatMap (hcodes : ∀ c ∈ codes, IsScalar c) (pos : Nat) :
    codesOfUtf8 pos 0 (codes.flatMap utf8OfCode) = .ok codes := by
  induction codes generalizing pos with
  | nil => rfl
  | cons c rest ih =>
    obtain ⟨hscalar, hrest⟩ := List.forall_mem_cons.mp hcodes
    obtain ⟨lead, tail, hform, hhead⟩ := utf8Head_utf8OfCode hscalar (rest.flatMap utf8OfCode)
    rw [List.flatMap_cons, hform, List.cons_append, codesOfUtf8]
    simp only [hhead, Nat.add_sub_cancel, codesOfUtf8_append, ih hrest]

/-- Bytes are read to a text just if they are its form, and it has scalar values only. -/
theorem ofUtf8_eq_ok_iff :
    ofUtf8 octets = .ok t ↔ (∀ c ∈ t.codes, IsScalar c) ∧ t.toUtf8 = octets := by
  constructor
  · intro h
    unfold ofUtf8 at h
    cases hcodes : codesOfUtf8 0 0 octets with
    | error fault => simp [hcodes] at h
    | ok codes =>
      simp only [hcodes, Except.ok.injEq] at h
      subst h
      exact forms_of_codesOfUtf8 hcodes
  · rintro ⟨hscalar, rfl⟩
    simp only [ofUtf8, toUtf8, codesOfUtf8_flatMap hscalar]

end ScanCatalog.Text
