import ScanCatalog.Json.Reader

/-!
# Texts that are too large to read

A reader stops at the size of a text for two reasons: an integer has more digits than are
allowed, or containers lie deeper in each other than there is room. The digits of such an
integer stand together in the text, and each container takes an opening bracket, so a text
without either is never too large, however long it is.

## Main definitions

* `Json.Stop.IsDue`, `Json.IsDue`: what a reader stops at, and what it leaves, lies within what
  it is given;
* `Text.IsModest`: the digits and brackets that every reader has room for.

## Main statements

* `Json.ReadsDue.all`: the parts of the reader keep within what they are given;
* `Text.IsModest.not_isOfSize`: no reader stops at the size of a modest text.
-/

namespace ScanCatalog

namespace Json

/-- Whether the code point opens a container. -/
def opens (c : Nat) : Bool := c == 91 || c == 123

/-- A reader with some room stops at more digits than are allowed, or at a container, only if
there are such digits, or more brackets than room. -/
def Stop.IsDue (room : Nat) (codes : List Nat) : Stop → Prop
  | .tooManyDigits _ => ∃ digits, digits <:+: codes ∧
      (∀ c ∈ digits, Numeral.isDigit c = true) ∧ Numeral.digitLimit < digits.length
  | .tooDeep _ => room < codes.countP opens
  | .malformed .. | .constant _ => True

/-- A reader leaves a suffix of the code points that it is given, or stops for a reason. -/
def IsDue {α : Type} (room : Nat) (codes : List Nat) : Except Stop (Part α) → Prop
  | .ok part => part.rest <:+ codes
  | .error stop => stop.IsDue room codes

variable {α : Type} {room fuel start offset after : Nat} {codes rest : List Nat}
  {allowConstants : Bool} {stop : Stop} {x : Except Stop (Part α)}

theorem Stop.IsDue.of_suffix (h : stop.IsDue room rest) (hrest : rest <:+ codes) :
    stop.IsDue room codes := by
  cases stop with
  | tooManyDigits =>
    obtain ⟨digits, hinfix, hdigits⟩ := h
    exact ⟨digits, hinfix.trans hrest.isInfix, hdigits⟩
  | tooDeep => exact Nat.lt_of_lt_of_le h (hrest.sublist.countP_le)
  | _ => trivial

/-- A container takes room and a bracket. -/
theorem Stop.IsDue.inside {bracket : Nat} (h : stop.IsDue (room - 1) rest)
    (hbracket : opens bracket = true) : stop.IsDue room (bracket :: rest) := by
  cases stop with
  | tooManyDigits =>
    obtain ⟨digits, hinfix, hdigits⟩ := h
    exact ⟨digits, hinfix.trans (List.suffix_cons _ _).isInfix, hdigits⟩
  | tooDeep =>
    have hdeep : room - 1 < rest.countP opens := h
    show room < (bracket :: rest).countP opens
    rw [List.countP_cons_of_pos hbracket]
    omega
  | _ => trivial

theorem IsDue.of_suffix (h : IsDue room rest x) (hrest : rest <:+ codes) :
    IsDue room codes x := by
  cases x with
  | ok part => exact List.IsSuffix.trans h hrest
  | error stop => exact Stop.IsDue.of_suffix h hrest

theorem IsDue.suffix_of_ok {part : Part α} (h : IsDue room codes x) (hx : x = .ok part) :
    part.rest <:+ codes := by
  subst hx
  exact h

theorem IsDue.of_error (h : IsDue room codes x) (hx : x = .error stop) : stop.IsDue room codes := by
  subst hx
  exact h

theorem IsDue.inside {bracket : Nat} (h : IsDue (room - 1) rest x)
    (hbracket : opens bracket = true) : IsDue room (bracket :: rest) x := by
  cases x with
  | ok part => exact List.IsSuffix.trans h (List.suffix_cons _ _)
  | error stop => exact Stop.IsDue.inside h hbracket

theorem isDue_tooDeep {bracket : Nat} {container : Container} (hbracket : opens bracket = true) :
    IsDue 0 (bracket :: rest) (.error (.tooDeep container) : Except Stop (Part α)) := by
  show 0 < (bracket :: rest).countP opens
  rw [List.countP_cons_of_pos hbracket]
  exact Nat.succ_pos _

/-! ### Strings and atoms -/

theorem suffix_of_skipSpaces (h : skipSpaces offset codes = (after, rest)) : rest <:+ codes := by
  cases h
  exact List.dropWhile_suffix _

theorem suffix_of_skipSpaces_cons {c : Nat} (h : skipSpaces offset codes = (after, c :: rest)) :
    rest <:+ codes :=
  (List.suffix_cons c rest).trans (suffix_of_skipSpaces h)

theorem suffix_of_readUnicodeEscape {code size : Nat}
    (h : readUnicodeEscape codes = .ok (code, size, rest)) : rest <:+ codes := by
  unfold readUnicodeEscape at h
  split at h
  · next a b c d next rest' =>
    have hnext : next :: rest' <:+ a :: b :: c :: d :: next :: rest' := ⟨[a, b, c, d], rfl⟩
    split at h
    · cases h
    split at h
    · split at h
      · next e f g h' after behind =>
        have hafter : after :: behind <:+ 92 :: 117 :: e :: f :: g :: h' :: after :: behind :=
          ⟨[92, 117, e, f, g, h'], rfl⟩
        split at h
        · cases h
        split at h <;> simp only [Except.ok.injEq, Prod.mk.injEq] at h <;>
          obtain ⟨-, -, rfl⟩ := h
        · exact hafter.trans hnext
        · exact hnext
      · cases h
        exact hnext
    · cases h
      exact hnext
  · cases h

theorem isDue_readString (taken : List Nat) :
    IsDue room codes (readString start fuel taken offset codes) := by
  induction fuel generalizing taken offset codes with
  | zero => trivial
  | succ fuel ih =>
    unfold readString
    split
    · trivial
    · exact List.suffix_cons _ _
    · trivial
    · next _ c rest =>
      have hrest : rest <:+ 92 :: c :: rest := ⟨[92, c], rfl⟩
      split
      · split
        · next hescape => exact (ih _).of_suffix ((suffix_of_readUnicodeEscape hescape).trans hrest)
        · trivial
      · split
        · exact (ih _).of_suffix hrest
        · trivial
    · split
      · trivial
      · exact (ih _).of_suffix (List.suffix_cons _ _)

theorem spanWhole_prefix (codes : List Nat) : (spanWhole codes).1 <+: codes := by
  unfold spanWhole
  split
  · exact ⟨_, rfl⟩
  · exact List.takeWhile_prefix _

theorem isDigit_of_mem_spanWhole {c : Nat} (hc : c ∈ (spanWhole codes).1) :
    Numeral.isDigit c = true := by
  unfold spanWhole at hc
  split at hc
  · rw [List.mem_singleton.mp hc]
    rfl
  · exact List.all_eq_true.mp List.all_takeWhile c hc

theorem isDue_readNumber (offset : Nat) (codes : List Nat) :
    IsDue room codes (readNumber offset codes) := by
  unfold readNumber
  dsimp only
  split
  · trivial
  · next whole afterWhole _ hwhole =>
    split
    · split
      · next hlimit =>
        -- the digits lie within the code points of numbers, after a sign if there is one
        generalize hbody : Prod.snd _ = body at hwhole
        have hsign : body <:+ codes.takeWhile isOfNumber := by
          rw [← hbody]
          split
          · next hspan =>
            rw [hspan]
            exact List.suffix_cons _ _
          · exact List.suffix_refl _
        have hinfix : whole <:+: codes := by
          have hprefix := spanWhole_prefix body
          rw [hwhole] at hprefix
          exact hprefix.isInfix.trans (hsign.isInfix.trans (List.takeWhile_prefix _).isInfix)
        have hdigits : ∀ c ∈ whole, Numeral.isDigit c = true := fun c hc =>
          isDigit_of_mem_spanWhole (by rwa [hwhole])
        exact ⟨whole, hinfix, hdigits, hlimit⟩
      · exact List.drop_suffix _ _
    · exact List.drop_suffix _ _

theorem isDue_readAtom (offset : Nat) (codes : List Nat) :
    IsDue room codes (readAtom allowConstants offset codes) := by
  unfold readAtom
  split
  · exact List.drop_suffix _ _
  split
  · split
    · exact List.drop_suffix _ _
    · trivial
  · exact isDue_readNumber offset codes

/-! ### Values -/

/-- A reader with some fuel keeps within what it is given, for values and in containers. -/
structure ReadsDue (allowConstants : Bool) (fuel : Nat) : Prop where
  value : ∀ room offset codes, IsDue room codes (readValue allowConstants room fuel offset codes)
  items : ∀ room taken offset codes,
    IsDue room codes (readItems allowConstants room fuel taken offset codes)
  fields : ∀ room taken offset codes,
    IsDue room codes (readFields allowConstants room fuel taken offset codes)

namespace ReadsDue

theorem value_succ (h : ReadsDue allowConstants fuel) (room offset : Nat) (codes : List Nat) :
    IsDue room codes (readValue allowConstants room (fuel + 1) offset codes) := by
  unfold readValue
  split
  · trivial
  · next rest =>
    have hstring : IsDue room (34 :: rest) (readString offset fuel [] (offset + 1) rest) :=
      (isDue_readString []).of_suffix (List.suffix_cons _ _)
    split
    · next hread => exact hstring.suffix_of_ok hread
    · next hread => exact hstring.of_error hread
  · next rest =>
    split
    · next hroom =>
      subst hroom
      exact isDue_tooDeep rfl
    split
    · next hskip => exact (suffix_of_skipSpaces_cons hskip).trans (List.suffix_cons _ _)
    · next hskip => exact ((h.items _ _ _ _).of_suffix (suffix_of_skipSpaces hskip)).inside rfl
  · next rest =>
    split
    · next hroom =>
      subst hroom
      exact isDue_tooDeep rfl
    split
    · next hskip => exact (suffix_of_skipSpaces_cons hskip).trans (List.suffix_cons _ _)
    · next hskip => exact ((h.fields _ _ _ _).of_suffix (suffix_of_skipSpaces hskip)).inside rfl
  · exact isDue_readAtom offset codes

theorem items_succ (h : ReadsDue allowConstants fuel) (room : Nat) (taken : List Value)
    (offset : Nat) (codes : List Nat) :
    IsDue room codes (readItems allowConstants room (fuel + 1) taken offset codes) := by
  have hvalue := h.value room offset codes
  unfold readItems
  split
  · next hread => exact hvalue.of_error hread
  next part hread =>
  have hpart : part.rest <:+ codes := hvalue.suffix_of_ok hread
  split
  · next hskip => exact (suffix_of_skipSpaces_cons hskip).trans hpart
  · next rest hskip =>
    have hrest : rest <:+ codes := (suffix_of_skipSpaces_cons hskip).trans hpart
    exact (h.items _ _ _ _).of_suffix ((List.dropWhile_suffix _).trans hrest)
  · trivial

theorem fields_succ (h : ReadsDue allowConstants fuel) (room : Nat) (taken : Entries)
    (offset : Nat) (codes : List Nat) :
    IsDue room codes (readFields allowConstants room (fuel + 1) taken offset codes) := by
  unfold readFields
  split
  · next rest =>
    have hstring : IsDue room (34 :: rest) (readString offset fuel [] (offset + 1) rest) :=
      (isDue_readString []).of_suffix (List.suffix_cons _ _)
    split
    · next hread => exact hstring.of_error hread
    next key hread =>
    have hkey : key.rest <:+ 34 :: rest := hstring.suffix_of_ok hread
    split
    · next behind hskip =>
      have hvalue : behind.dropWhile isSpace <:+ 34 :: rest :=
        (List.dropWhile_suffix _).trans ((suffix_of_skipSpaces_cons hskip).trans hkey)
      dsimp only [skipSpaces]
      have hdue : ∀ offset, IsDue room (34 :: rest)
          (readValue allowConstants room fuel offset (behind.dropWhile isSpace)) :=
        fun _ => (h.value _ _ _).of_suffix hvalue
      split
      · next hread => exact (hdue _).of_error hread
      next part hread =>
      have hpart : part.rest <:+ 34 :: rest := (hdue _).suffix_of_ok hread
      split
      · next hskip => exact (suffix_of_skipSpaces_cons hskip).trans hpart
      · next others hskip =>
        have hothers : others <:+ 34 :: rest := (suffix_of_skipSpaces_cons hskip).trans hpart
        exact (h.fields _ _ _ _).of_suffix ((List.dropWhile_suffix _).trans hothers)
      · trivial
    · trivial
  · trivial

/-- All parts of the reader keep within what they are given. -/
theorem all (fuel : Nat) : ReadsDue allowConstants fuel := by
  -- the three parts call each other, each time with less fuel
  induction fuel with
  | zero =>
    refine ⟨fun _ _ _ => ?_, fun _ _ _ _ => ?_, fun _ _ _ _ => ?_⟩
    · unfold readValue
      trivial
    · unfold readItems
      trivial
    · unfold readFields
      trivial
  | succ fuel ih => exact ⟨ih.value_succ, ih.items_succ, ih.fields_succ⟩

end ReadsDue

/-- A whole text is read within what it holds. -/
theorem isDue_of_readCodes (h : readCodes allowConstants codes = .error stop) :
    stop.IsDue depthLimit codes := by
  unfold readCodes at h
  split at h
  · cases h
    trivial
  have hdue : ∀ fuel offset, IsDue depthLimit codes
      (readValue allowConstants depthLimit fuel offset (codes.dropWhile isSpace)) :=
    fun fuel _ => ((ReadsDue.all fuel).value _ _ _).of_suffix (List.dropWhile_suffix _)
  dsimp only [skipSpaces] at h
  split at h
  · next hread =>
    cases h
    exact (hdue _ _).of_error hread
  · split at h <;> cases h
    trivial

/-- A reader stops at the size of a text: an integer has too many digits, or containers are too
deep. -/
def ReadFault.IsOfSize : ReadFault → Prop
  | .tooManyDigits _ | .tooDeep _ => True
  | .malformed .. | .constant _ => False

end Json

/-- No more digits stand together in a text than an integer may have, and it has no more
opening brackets than there may be levels of containers. -/
structure Text.IsModest (t : Text) : Prop where
  digits : ∀ run, run <:+: t.codes → (∀ c ∈ run, Numeral.isDigit c = true) →
    run.length ≤ Numeral.digitLimit
  brackets : t.codes.countP Json.opens ≤ Json.depthLimit

/-- No reader stops at the size of a modest text. -/
theorem Text.IsModest.not_isOfSize {t : Text} (ht : t.IsModest) {allowConstants : Bool}
    {fault : Json.ReadFault} (h : Json.read allowConstants t = .error fault) :
    ¬ fault.IsOfSize := by
  unfold Json.read at h
  split at h <;> cases h
  · exact id
  · exact id
  · next hstop =>
    obtain ⟨run, hinfix, hdigits, hlong⟩ := Json.isDue_of_readCodes hstop
    exact fun _ => Nat.not_lt.mpr (ht.digits run hinfix hdigits) hlong
  · next hstop => exact fun _ => Nat.not_lt.mpr ht.brackets (Json.isDue_of_readCodes hstop)

end ScanCatalog
