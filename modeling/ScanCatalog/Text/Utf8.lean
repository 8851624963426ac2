import ScanCatalog.Text.Basic

/-!
# UTF-8

Reading and writing texts as UTF-8. Reading refuses overlong forms, surrogates and
code points above U+10FFFF, and says which bytes are at fault; writing refuses
surrogates, and says which run of them is at fault.

## Main definitions

* `Text.ofUtf8`: the text of a byte sequence, or the first `Utf8Fault`;
* `Text.Encodable`: texts without surrogates;
* `Text.toUtf8`: the bytes of an encodable text;
* `Text.encodeFault?`: the first run of surrogates.
-/

namespace ScanCatalog

/-- Why a byte sequence is not UTF-8. -/
inductive Utf8Cause
  /-- no code point begins with this byte -/
  | badStart
  /-- a byte that should continue a code point does not -/
  | badContinuation
  /-- the bytes end inside a code point -/
  | cutShort
deriving DecidableEq, Repr

/-- The bytes `first` to `last` cannot be read; `byte` is the first of them. -/
structure Utf8Fault where
  cause : Utf8Cause
  byte : Nat
  first : Nat
  last : Nat
deriving DecidableEq, Repr

/-- The code points `first` to `last` are surrogates; `code` is the first of them. -/
structure EncodeFault where
  code : Nat
  first : Nat
  last : Nat
deriving DecidableEq, Repr

namespace Text

/-- What a byte and those after it begin with: a code point of some size, or a
fault over some number of bytes. -/
inductive Utf8Head
  | code (c size : Nat)
  | fault (cause : Utf8Cause) (size : Nat)
deriving DecidableEq, Repr

/-- Whether a byte continues a code point. -/
def isTail (b : Nat) : Bool := 0x80 ≤ b && b ≤ 0xBF

/-- Whether `b` may follow `lead`: a tail byte in the narrower range that keeps
overlong forms, surrogates and values above U+10FFFF out. -/
def mayFollow (lead b : Nat) : Bool :=
  isTail b &&
    (if lead = 0xE0 then 0xA0 ≤ b
    else if lead = 0xED then b < 0xA0
    else if lead = 0xF0 then 0x90 ≤ b
    else if lead = 0xF4 then b < 0x90
    else true)

/-- The value of the low six bits of a tail byte. -/
def tailBits (b : Nat) : Nat := b % 0x40

/-- Reads the code point that begins with `lead`. -/
def utf8Head (lead : Nat) (rest : List Nat) : Utf8Head :=
  if lead < 0x80 then .code lead 1
  else if lead < 0xC2 then .fault .badStart 1
  else if lead < 0xE0 then
    match rest with
    | [] => .fault .cutShort 1
    | b :: _ =>
      if isTail b then .code (lead % 0x20 * 0x40 + tailBits b) 2 else .fault .badContinuation 1
  else if lead < 0xF0 then
    match rest with
    | [] => .fault .cutShort 1
    | b :: rest =>
      if !mayFollow lead b then .fault .badContinuation 1
      else
        match rest with
        | [] => .fault .cutShort 2
        | c :: _ =>
          if isTail c then
            .code (lead % 0x10 * 0x1000 + tailBits b * 0x40 + tailBits c) 3
          else .fault .badContinuation 2
  else if lead < 0xF5 then
    match rest with
    | [] => .fault .cutShort 1
    | b :: rest =>
      if !mayFollow lead b then .fault .badContinuation 1
      else
        match rest with
        | [] => .fault .cutShort 2
        | c :: rest =>
          if !isTail c then .fault .badContinuation 2
          else
            match rest with
            | [] => .fault .cutShort 3
            | d :: _ =>
              if isTail d then
                .code (lead % 0x08 * 0x40000 + tailBits b * 0x1000 + tailBits c * 0x40 +
                  tailBits d) 4
              else .fault .badContinuation 3
  else .fault .badStart 1

/-- Reads the bytes from position `pos` on, of which `skip` belong to the code
point read last. -/
def codesOfUtf8 (pos skip : Nat) : List Nat → Except Utf8Fault (List Nat)
  | [] => .ok []
  | b :: rest =>
    match skip with
    | skip + 1 => codesOfUtf8 (pos + 1) skip rest
    | 0 =>
      match utf8Head b rest with
      | .code c size =>
        match codesOfUtf8 (pos + 1) (size - 1) rest with
        | .ok codes => .ok (c :: codes)
        | .error fault => .error fault
      | .fault cause size => .error ⟨cause, b, pos, pos + size - 1⟩

/-- The text of a UTF-8 byte sequence. -/
def ofUtf8 (bytes : List Nat) : Except Utf8Fault Text :=
  match codesOfUtf8 0 0 bytes with
  | .ok codes => .ok ⟨codes⟩
  | .error fault => .error fault

/-- Whether a code point is a surrogate. -/
def isSurrogate (c : Nat) : Bool := 0xD800 ≤ c && c < 0xE000

/-- The text has a UTF-8 form. -/
def Encodable (t : Text) : Prop := ∀ c ∈ t.codes, isSurrogate c = false

instance (t : Text) : Decidable t.Encodable := by unfold Encodable; infer_instance

/-- The first run of surrogates from position `pos` on. -/
def surrogateRun? (pos : Nat) : List Nat → Option EncodeFault
  | [] => none
  | c :: rest =>
    if isSurrogate c then some ⟨c, pos, pos + (rest.takeWhile isSurrogate).length⟩
    else surrogateRun? (pos + 1) rest

/-- The first run of surrogates, if the text has no UTF-8 form. -/
def encodeFault? (t : Text) : Option EncodeFault := surrogateRun? 0 t.codes

theorem surrogateRun?_eq_none_iff (pos : Nat) (codes : List Nat) :
    surrogateRun? pos codes = none ↔ ∀ c ∈ codes, isSurrogate c = false := by
  induction codes generalizing pos with
  | nil => simp [surrogateRun?]
  | cons c rest ih =>
    cases h : isSurrogate c <;> simp [surrogateRun?, h, ih]

/-- Exactly the encodable texts are written without a fault. -/
theorem encodeFault?_eq_none_iff (t : Text) : t.encodeFault? = none ↔ t.Encodable :=
  surrogateRun?_eq_none_iff 0 t.codes

/-- The UTF-8 bytes of a code point. -/
def utf8OfCode (c : Nat) : List Nat :=
  if c < 0x80 then [c]
  else if c < 0x800 then [0xC0 + c / 0x40, 0x80 + c % 0x40]
  else if c < 0x10000 then [0xE0 + c / 0x1000, 0x80 + c / 0x40 % 0x40, 0x80 + c % 0x40]
  else [0xF0 + c / 0x40000, 0x80 + c / 0x1000 % 0x40, 0x80 + c / 0x40 % 0x40, 0x80 + c % 0x40]

/-- The UTF-8 bytes of a text; a surrogate is written like any other code point. -/
def toUtf8 (t : Text) : List Nat := t.codes.flatMap utf8OfCode

end Text

end ScanCatalog
