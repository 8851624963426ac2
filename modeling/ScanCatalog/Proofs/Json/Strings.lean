import ScanCatalog.Json.Printer
import ScanCatalog.Json.Reader

/-!
# Strings in JSON

A text is written between quotes in pieces, each of which is a plain code point, an escape with a
letter, or the escape of a UTF-16 unit. A reader takes the pieces one by one, or two units
together if they are surrogates that make a pair, up to the closing quote.

## Main definitions

* `Json.IsPiece`: the pieces of a string.

## Main statements

* `Json.readString_pieces`: pieces are read up to the quote after them;
* `Json.readString_escapes`: a text that is written is read.
-/

namespace ScanCatalog

/-! ### Hexadecimal digits -/

namespace Text

/-- The digits of a number are digits of its base. -/
theorem exists_digit_of_mem_toDigits {base n : Nat} (hbase : 1 < base) {digit : Char}
    (h : digit ∈ Nat.toDigits base n) : ∃ d < base, digit = d.digitChar := by
  induction n using Nat.strongRecOn with
  | ind n ih =>
    rw [Nat.toDigits_eq_if hbase] at h
    split at h
    · next hlt => exact ⟨n, hlt, List.mem_singleton.mp h⟩
    · next hle =>
      rcases List.mem_append.mp h with h | h
      · exact ih (n / base) (Nat.div_lt_self (by omega) hbase) h
      · exact ⟨n % base, Nat.mod_lt _ (by omega), List.mem_singleton.mp h⟩

theorem isSome_hexDigit?_of_mem_hex {width n c : Nat} (hc : c ∈ (hex width n).codes) :
    (hexDigit? c).isSome = true := by
  have hdigit : ∀ d < 16, (hexDigit? d.digitChar.toNat).isSome = true := by decide
  rcases List.mem_append.mp hc with hc | hc
  · rw [(List.mem_replicate.mp hc).2]
    rfl
  · obtain ⟨digit, hmem, rfl⟩ := List.mem_map.mp hc
    obtain ⟨d, hd, rfl⟩ := exists_digit_of_mem_toDigits (by decide) hmem
    exact hdigit d hd

theorem width_le_length_hex (width n : Nat) : width ≤ (hex width n).codes.length := by
  unfold hex
  dsimp only
  rw [List.length_append, List.length_replicate]
  omega

end Text

namespace Json

/-! ### Pieces -/

/-- A piece of a string: a plain code point, an escape with a letter, or the escape of a unit. -/
inductive IsPiece : List Nat → Prop
  | plain {c : Nat} (hcontrol : 32 ≤ c) (hquote : c ≠ 34) (hslash : c ≠ 92) : IsPiece [c]
  | letter {c code : Nat} (hc : c ≠ 117) (h : escapeOf? c = some code) : IsPiece [92, c]
  | unit {a b c d unit : Nat} (h : hexValue? a b c d = some unit) : IsPiece [92, 117, a, b, c, d]

variable {pieces : List (List Nat)} {rest : List Nat} {a b c d unit : Nat}

theorem readUnicodeEscape_units (a b c d e f g h after : Nat) (behind : List Nat) :
    readUnicodeEscape (a :: b :: c :: d :: 92 :: 117 :: e :: f :: g :: h :: after :: behind) =
      match hexValue? a b c d with
      | none => .error 1
      | some high =>
        if 0xD800 ≤ high ∧ high < 0xDC00 then
          match hexValue? e f g h with
          | none => .error 7
          | some low =>
            if 0xDC00 ≤ low ∧ low < 0xE000 then
              .ok (0x10000 + (high - 0xD800) * 0x400 + (low - 0xDC00), 12, after :: behind)
            else .ok (high, 6, 92 :: 117 :: e :: f :: g :: h :: after :: behind)
        else .ok (high, 6, 92 :: 117 :: e :: f :: g :: h :: after :: behind) := rfl

/-- The escape of a unit is read alone, or together with that of the unit after it. -/
theorem readUnicodeEscape_unit (hpieces : ∀ p ∈ pieces, IsPiece p)
    (h : hexValue? a b c d = some unit) :
    ∃ code size, ∃ left, (left = pieces ∨ left = pieces.tail) ∧
      readUnicodeEscape (a :: b :: c :: d :: (pieces.flatten ++ 34 :: rest)) =
        .ok (code, size, left.flatten ++ 34 :: rest) := by
  have halone : ∀ {next : Nat} {behind : List Nat},
      (∀ others, next :: behind ≠ 92 :: 117 :: others) →
      readUnicodeEscape (a :: b :: c :: d :: next :: behind) = .ok (unit, 6, next :: behind) := by
    intro next behind hnext
    unfold readUnicodeEscape
    dsimp only
    rw [h]
    dsimp only
    split
    · split
      · exact absurd rfl (hnext _)
      · rfl
    · rfl
  cases pieces with
  | nil => exact ⟨unit, 6, [], .inl rfl, halone nofun⟩
  | cons piece pieces =>
    obtain ⟨hpiece, -⟩ := List.forall_mem_cons.mp hpieces
    cases hpiece with
    | @plain e hcontrol hquote hslash =>
      exact ⟨unit, 6, [e] :: pieces, .inl rfl, halone fun _ heq => hslash (List.cons.inj heq).1⟩
    | @letter e code he =>
      refine ⟨unit, 6, [92, e] :: pieces, .inl rfl, halone fun _ heq => he ?_⟩
      exact (List.cons.inj (List.cons.inj heq).2).1
    | @unit e f g i low hlow =>
      obtain ⟨after, behind, hbehind⟩ : ∃ after behind, pieces.flatten ++ 34 :: rest =
          after :: behind := List.exists_cons_of_ne_nil (by simp)
      have hcodes : (([92, 117, e, f, g, i] :: pieces).flatten ++ 34 :: rest) =
          92 :: 117 :: e :: f :: g :: i :: after :: behind := by
        rw [List.flatten_cons, List.append_assoc, hbehind]
        rfl
      rw [hcodes, readUnicodeEscape_units, h, hlow]
      dsimp only
      split
      · split
        · exact ⟨_, _, pieces, .inr rfl, by rw [hbehind]⟩
        · exact ⟨_, _, _ :: pieces, .inl rfl, by rw [hcodes]⟩
      · exact ⟨_, _, _ :: pieces, .inl rfl, by rw [hcodes]⟩

/-- Whether pieces are read up to the quote after them. -/
def ArePieces (pieces : List (List Nat)) : Prop :=
  ∀ start rest fuel taken offset, pieces.flatten.length < fuel → ∃ t after,
    readString start fuel taken offset (pieces.flatten ++ 34 :: rest) = .ok ⟨t, after, rest⟩

theorem arePieces_nil : ArePieces [] := by
  intro start rest fuel taken offset hfuel
  obtain ⟨fuel, rfl⟩ := Nat.exists_eq_succ_of_ne_zero (Nat.ne_of_gt hfuel)
  exact ⟨_, _, rfl⟩

theorem arePieces_cons {piece : List Nat} (hpiece : IsPiece piece)
    (hpieces : ∀ p ∈ pieces, IsPiece p) (h : ArePieces pieces) (htail : ArePieces pieces.tail) :
    ArePieces (piece :: pieces) := by
  intro start rest fuel taken offset hfuel
  obtain ⟨fuel, rfl⟩ := Nat.exists_eq_succ_of_ne_zero (Nat.ne_of_gt (Nat.zero_lt_of_lt hfuel))
  have hlength : 0 < piece.length := by cases hpiece <;> exact Nat.succ_pos _
  have hless : pieces.flatten.length < fuel := by
    rw [List.flatten_cons, List.length_append] at hfuel
    omega
  rw [List.flatten_cons, List.append_assoc]
  cases hpiece with
  | @plain c hcontrol hquote hslash =>
    have hread : readString start (fuel + 1) taken offset
        (c :: (pieces.flatten ++ 34 :: rest)) =
          readString start fuel (c :: taken) (offset + 1) (pieces.flatten ++ 34 :: rest) := by
      rw [readString]
      · rw [if_neg (Nat.not_lt.mpr hcontrol)]
      · exact hquote
      · exact fun heq _ => hslash heq
      · exact fun _ _ heq _ => hslash heq
    obtain ⟨t, after, hrest⟩ := h start rest fuel (c :: taken) (offset + 1) hless
    exact ⟨t, after, hread.trans hrest⟩
  | @letter c code hc hcode =>
    have hread : readString start (fuel + 1) taken offset
        (92 :: c :: (pieces.flatten ++ 34 :: rest)) =
          readString start fuel (code :: taken) (offset + 2) (pieces.flatten ++ 34 :: rest) := by
      rw [readString]
      rw [if_neg hc, hcode]
    obtain ⟨t, after, hrest⟩ := h start rest fuel (code :: taken) (offset + 2) hless
    exact ⟨t, after, hread.trans hrest⟩
  | @unit a b c d unit hunit =>
    obtain ⟨code, size, left, hleft, hescape⟩ := readUnicodeEscape_unit hpieces hunit
    have hread : readString start (fuel + 1) taken offset
        (92 :: 117 :: a :: b :: c :: d :: (pieces.flatten ++ 34 :: rest)) =
          readString start fuel (code :: taken) (offset + size) (left.flatten ++ 34 :: rest) := by
      rw [readString]
      rw [if_pos rfl, hescape]
    have hread' : ∃ t after, readString start fuel (code :: taken) (offset + size)
        (left.flatten ++ 34 :: rest) = .ok ⟨t, after, rest⟩ := by
      rcases hleft with rfl | rfl
      · exact h start rest fuel (code :: taken) (offset + size) hless
      · refine htail start rest fuel (code :: taken) (offset + size) ?_
        refine Nat.lt_of_le_of_lt ?_ hless
        cases pieces with
        | nil => exact Nat.le_refl _
        | cons first others =>
          rw [List.tail_cons, List.flatten_cons, List.length_append]
          exact Nat.le_add_left _ _
    obtain ⟨t, after, hrest⟩ := hread'
    exact ⟨t, after, hread.trans hrest⟩

/-- Pieces are read up to the quote after them. -/
theorem readString_pieces (hpieces : ∀ p ∈ pieces, IsPiece p) : ArePieces pieces := by
  -- two units can be read together, so the pieces without the first are dealt with as well
  have h : ArePieces pieces ∧ ArePieces pieces.tail := by
    induction pieces with
    | nil => exact ⟨arePieces_nil, arePieces_nil⟩
    | cons piece pieces ih =>
      obtain ⟨hpiece, hpieces⟩ := List.forall_mem_cons.mp hpieces
      obtain ⟨h, htail⟩ := ih hpieces
      exact ⟨arePieces_cons hpiece hpieces h htail, h⟩
  exact h.1

/-! ### Texts -/

/-- Code points that pieces make up. -/
def IsPieced (codes : List Nat) : Prop :=
  ∃ pieces : List (List Nat), (∀ p ∈ pieces, IsPiece p) ∧ pieces.flatten = codes

theorem IsPiece.isPieced {piece : List Nat} (h : IsPiece piece) : IsPieced piece :=
  ⟨[piece], List.forall_mem_singleton.mpr h, List.append_nil piece⟩

theorem isPieced_nil : IsPieced [] := ⟨[], List.forall_mem_nil _, rfl⟩

theorem IsPieced.append {codes others : List Nat} (h : IsPieced codes) (hothers : IsPieced others) :
    IsPieced (codes ++ others) := by
  obtain ⟨pieces, hpieces, rfl⟩ := h
  obtain ⟨more, hmore, rfl⟩ := hothers
  exact ⟨pieces ++ more, List.forall_mem_append.mpr ⟨hpieces, hmore⟩, List.flatten_append⟩

theorem isPieced_flatMap {items : List Nat} {write : Nat → List Nat}
    (h : ∀ c ∈ items, IsPieced (write c)) : IsPieced (items.flatMap write) := by
  induction items with
  | nil => exact isPieced_nil
  | cons c rest ih =>
    obtain ⟨hc, hrest⟩ := List.forall_mem_cons.mp h
    rw [List.flatMap_cons]
    exact hc.append (ih hrest)

/-- A hexadecimal digit may stand in a string. -/
theorem isPiece_hexDigit {c : Nat} (h : (Text.hexDigit? c).isSome = true) : IsPiece [c] := by
  unfold Text.hexDigit? at h
  split at h
  · exact .plain (by omega) (by omega) (by omega)
  split at h
  · exact .plain (by omega) (by omega) (by omega)
  split at h
  · exact .plain (by omega) (by omega) (by omega)
  · cases h

/-- The first four digits of a unit are those of its escape. -/
theorem isPieced_unitEscape (unit : Nat) : IsPieced (unitEscape unit) := by
  have hdigits : ∀ c ∈ (Text.hex 4 unit).codes, (Text.hexDigit? c).isSome = true :=
    fun _ => Text.isSome_hexDigit?_of_mem_hex
  have hlength := Text.width_le_length_hex 4 unit
  unfold unitEscape
  generalize (Text.hex 4 unit).codes = codes at hdigits hlength
  match codes with
  | a :: b :: c :: d :: rest =>
    simp only [List.forall_mem_cons] at hdigits
    obtain ⟨ha, hb, hc, hd, hrest⟩ := hdigits
    obtain ⟨a', ha⟩ := Option.isSome_iff_exists.mp ha
    obtain ⟨b', hb⟩ := Option.isSome_iff_exists.mp hb
    obtain ⟨c', hc⟩ := Option.isSome_iff_exists.mp hc
    obtain ⟨d', hd⟩ := Option.isSome_iff_exists.mp hd
    have hunit : hexValue? a b c d = some (((a' * 16 + b') * 16 + c') * 16 + d') := by
      rw [hexValue?, ha, hb, hc, hd]
    have hplain : IsPieced (rest.flatMap fun c => [c]) :=
      isPieced_flatMap fun c hc => (isPiece_hexDigit (hrest c hc)).isPieced
    rw [List.flatMap_singleton'] at hplain
    exact (IsPiece.unit hunit).isPieced.append hplain

theorem isPieced_escapeCode (c : Nat) : IsPieced (escapeCode c) := by
  have hletter : ∀ {letter code : Nat}, letter ≠ 117 → escapeOf? letter = some code →
      IsPieced [92, letter] := fun hne h => (IsPiece.letter hne h).isPieced
  unfold escapeCode
  split
  · exact hletter (by decide) rfl
  split
  · exact hletter (by decide) rfl
  split
  · exact hletter (by decide) rfl
  split
  · exact hletter (by decide) rfl
  split
  · exact hletter (by decide) rfl
  split
  · exact hletter (by decide) rfl
  split
  · exact hletter (by decide) rfl
  split
  · next hquote hslash _ _ _ _ _ hplain => exact (IsPiece.plain hplain.1 hquote hslash).isPieced
  split
  · exact isPieced_unitEscape c
  · exact (isPieced_unitEscape _).append (isPieced_unitEscape _)

/-- A text that is written is read up to the quote after it. -/
theorem readString_escapes (t : Text) {start fuel offset : Nat} {taken : List Nat} (rest : List Nat)
    (hfuel : (t.codes.flatMap escapeCode).length < fuel) : ∃ read after,
      readString start fuel taken offset (t.codes.flatMap escapeCode ++ 34 :: rest) =
        .ok ⟨read, after, rest⟩ := by
  obtain ⟨pieces, hpieces, heq⟩ := isPieced_flatMap fun c (_ : c ∈ t.codes) => isPieced_escapeCode c
  rw [← heq] at hfuel ⊢
  exact readString_pieces hpieces start rest fuel taken offset hfuel

end Json

end ScanCatalog
