import Mathlib.Data.List.Forall2
import ScanCatalog.Sql.Statement

/-!
# The statements of queries

A selection by queries is put together from words of the program, which are fixed, and from
values, for each of which its text has a placeholder. The pieces of a selection have the values
in their places: its text follows from the pieces, and so do its parameters. No word has a
placeholder in it, so nothing of a value gets into the text, and each placeholder takes the
parameter that belongs there.

## Main definitions

* `Piece`: words or a value;
* `Piece.render`, `Piece.values`: the text and the values of some pieces;
* `piecesOf`: the pieces of the selection of scans by queries;
* `PositionQuery.SameShape`: queries that differ in their values only.

## Main statements

* `render_piecesOf`, `values_piecesOf`: the pieces give the text and the parameters;
* `Piece.occurrences_render`: a text has a placeholder for each value;
* `Statement.text_ofQueries`: values are never part of a text.
-/

namespace ScanCatalog

namespace Text

/-- How often a part that is not empty begins in a sequence of code points. -/
def beginnings (part : List Nat) : List Nat → Nat
  | [] => 0
  | c :: rest => (if part.isPrefixOf (c :: rest) then 1 else 0) + beginnings part rest

/-- How often a part that is not empty occurs in a text. -/
def occurrences (t part : Text) : Nat := beginnings part.codes t.codes

/-- The text with another in the place of each `mark`. -/
def withEach (t : Text) (mark : Nat) (other : Text) : Text :=
  ⟨t.codes.flatMap fun c => if c = mark then other.codes else [c]⟩

theorem ext_codes {s t : Text} (h : s.codes = t.codes) : s = t := by
  cases s
  cases t
  exact congrArg mk h

theorem append_assoc (s t u : Text) : s ++ t ++ u = s ++ (t ++ u) :=
  ext_codes (List.append_assoc s.codes t.codes u.codes)

@[simp] theorem append_empty (t : Text) : t ++ empty = t := ext_codes (List.append_nil t.codes)

theorem join_cons_cons (separator s t : Text) (rest : List Text) :
    join separator (s :: t :: rest) = s ++ (separator ++ join separator (t :: rest)) :=
  append_assoc s separator _

variable {mark : Nat} {part : List Nat}

theorem withEach_append (other s t : Text) :
    (s ++ t).withEach mark other = s.withEach mark other ++ t.withEach mark other :=
  ext_codes List.flatMap_append

theorem withEach_of_not_mem {t : Text} (h : mark ∉ t.codes) (other : Text) :
    t.withEach mark other = t := by
  have hsame : ∀ c ∈ t.codes, (if c = mark then other.codes else [c]) = [c] := by
    intro c hc
    rw [if_neg]
    rintro rfl
    exact h hc
  apply ext_codes
  unfold withEach
  rw [List.flatMap_congr hsame]
  exact List.flatMap_singleton' t.codes

/-- What does not have the first code point of a part has no beginning of it. -/
theorem beginnings_append_of_not_mem {s : List Nat} (hs : mark ∉ s) (t : List Nat) :
    beginnings (mark :: part) (s ++ t) = beginnings (mark :: part) t := by
  induction s with
  | nil => rfl
  | cons c s ih =>
    obtain ⟨hc, hs⟩ := List.ne_and_not_mem_of_not_mem_cons hs
    simp [beginnings, hc, ih hs]

/-- A part that does not overlap itself begins once more in front of a text. -/
theorem beginnings_self_append (hpart : mark ∉ part) (t : List Nat) :
    beginnings (mark :: part) (mark :: part ++ t) = 1 + beginnings (mark :: part) t := by
  have hprefix : (mark :: part).isPrefixOf (mark :: (part ++ t)) = true := by
    simp [List.isPrefixOf_iff_prefix]
  rw [List.cons_append, beginnings, if_pos hprefix, beginnings_append_of_not_mem hpart]

end Text

/-! ### Pieces -/

/-- A piece of a statement: words of the program, or a value of a user. -/
inductive Piece
  | words (text : Text)
  | value (v : Value)

namespace Piece

variable {dialect : Dialect}

/-- What a piece is in the text: a value is a placeholder there. -/
def text (dialect : Dialect) : Piece → Text
  | .words text => text
  | .value _ => dialect.placeholder

/-- The value of a piece, if it is one. -/
def value? : Piece → Option Value
  | .words _ => none
  | .value v => some v

/-- The text of some pieces. -/
def render (dialect : Dialect) : List Piece → Text
  | [] => Text.empty
  | piece :: rest => piece.text dialect ++ render dialect rest

/-- The values among some pieces, in order. -/
def values (pieces : List Piece) : List Value := pieces.filterMap value?

/-- Words in which no placeholder begins, of any dialect; or a value. -/
def isPlain : Piece → Bool
  | .words text => text.codes.all fun c => c ≠ '?'.toNat && c ≠ '%'.toNat
  | .value _ => true

/-- All words are such words. -/
def ArePlain (pieces : List Piece) : Prop := ∀ piece ∈ pieces, piece.isPlain = true

/-- Some values, with a comma between neighbours. -/
def listed (values : List Value) : List Piece :=
  (values.map Piece.value).intersperse (.words ", ")

/-- Some conditions that all have to hold. -/
def joined (conditions : List (List Piece)) : List Piece :=
  [Piece.words " AND "].intercalate conditions

@[simp] theorem render_nil : render dialect [] = Text.empty := rfl

@[simp] theorem render_cons (piece : Piece) (rest : List Piece) :
    render dialect (piece :: rest) = piece.text dialect ++ render dialect rest := rfl

@[simp] theorem render_append (pieces rest : List Piece) :
    render dialect (pieces ++ rest) = render dialect pieces ++ render dialect rest := by
  induction pieces with
  | nil => rfl
  | cons piece pieces ih =>
    rw [List.cons_append, render_cons, ih, render_cons, Text.append_assoc]

@[simp] theorem values_nil : values [] = [] := rfl

@[simp] theorem values_words (text : Text) (rest : List Piece) :
    values (.words text :: rest) = values rest := rfl

@[simp] theorem values_value (v : Value) (rest : List Piece) :
    values (.value v :: rest) = v :: values rest := rfl

@[simp] theorem values_append (pieces rest : List Piece) :
    values (pieces ++ rest) = values pieces ++ values rest := List.filterMap_append

theorem render_listed (values : List Value) :
    render dialect (listed values) = dialect.placeholders values.length := by
  unfold Dialect.placeholders
  induction values with
  | nil => rfl
  | cons v vs ih =>
    cases vs with
    | nil => exact Text.append_empty _
    | cons w ws =>
      change dialect.placeholder ++ (", " ++ render dialect (listed (w :: ws))) = _
      rw [ih]
      exact (Text.join_cons_cons _ _ _ _).symm

theorem values_listed (vs : List Value) : values (listed vs) = vs := by
  induction vs with
  | nil => rfl
  | cons v vs ih =>
    cases vs with
    | nil => rfl
    | cons w ws => exact congrArg (v :: ·) ih

theorem joined_cons_cons (condition next : List Piece) (rest : List (List Piece)) :
    joined (condition :: next :: rest) = condition ++ (.words " AND " :: joined (next :: rest)) := by
  simp [joined, List.intercalate]

theorem render_joined (conditions : List (List Piece)) :
    render dialect (joined conditions) =
      Text.join " AND " (conditions.map (render dialect)) := by
  induction conditions with
  | nil => rfl
  | cons condition rest ih =>
    cases rest with
    | nil => simp [joined, List.intercalate, Text.join]
    | cons next rest =>
      rw [joined_cons_cons, render_append, render_cons, ih]
      exact (Text.join_cons_cons _ _ _ _).symm

theorem values_joined (conditions : List (List Piece)) :
    values (joined conditions) = conditions.flatMap values := by
  induction conditions with
  | nil => rfl
  | cons condition rest ih =>
    cases rest with
    | nil => simp [joined, List.intercalate]
    | cons next rest => rw [joined_cons_cons, values_append, values_words, ih]; rfl

/-! ### Placeholders -/

@[simp] theorem arePlain_nil : ArePlain [] := nofun

@[simp] theorem arePlain_cons {piece : Piece} {rest : List Piece} :
    ArePlain (piece :: rest) ↔ piece.isPlain = true ∧ ArePlain rest := List.forall_mem_cons

@[simp] theorem arePlain_append {pieces rest : List Piece} :
    ArePlain (pieces ++ rest) ↔ ArePlain pieces ∧ ArePlain rest := List.forall_mem_append

theorem arePlain_listed (vs : List Value) : ArePlain (listed vs) := by
  induction vs with
  | nil => exact arePlain_nil
  | cons v vs ih =>
    cases vs with
    | nil => exact arePlain_cons.mpr ⟨rfl, arePlain_nil⟩
    | cons w ws => exact arePlain_cons.mpr ⟨rfl, arePlain_cons.mpr ⟨by decide, ih⟩⟩

theorem arePlain_joined {conditions : List (List Piece)}
    (h : ∀ condition ∈ conditions, ArePlain condition) : ArePlain (joined conditions) := by
  induction conditions with
  | nil => exact arePlain_nil
  | cons condition rest ih =>
    obtain ⟨hcondition, hrest⟩ := List.forall_mem_cons.mp h
    cases rest with
    | nil => simpa [joined, List.intercalate] using hcondition
    | cons next rest =>
      rw [joined_cons_cons, arePlain_append, arePlain_cons]
      exact ⟨hcondition, by decide, ih hrest⟩

/-- Words have a placeholder of no dialect in them. -/
theorem not_mem_of_isPlain {t : Text} (h : (words t).isPlain = true) :
    '?'.toNat ∉ t.codes ∧ '%'.toNat ∉ t.codes := by
  have hall : ∀ c ∈ t.codes, c ≠ '?'.toNat ∧ c ≠ '%'.toNat := by simpa [isPlain] using h
  exact ⟨fun hmem => (hall _ hmem).1 rfl, fun hmem => (hall _ hmem).2 rfl⟩

/-- The text of plain pieces has a placeholder for each value, and no other. -/
theorem occurrences_render (dialect : Dialect) {pieces : List Piece} (h : ArePlain pieces) :
    (render dialect pieces).occurrences dialect.placeholder = (values pieces).length := by
  induction pieces with
  | nil => rfl
  | cons piece rest ih =>
    obtain ⟨hpiece, hrest⟩ := arePlain_cons.mp h
    have ih := ih hrest
    cases piece with
    | words t =>
      obtain ⟨hmark, hpercent⟩ := not_mem_of_isPlain hpiece
      rw [values_words, ← ih]
      cases dialect with
      | sqlite => exact Text.beginnings_append_of_not_mem hmark _
      | mysql => exact Text.beginnings_append_of_not_mem hpercent _
    | value v =>
      rw [values_value, List.length_cons, ← ih, Nat.add_comm]
      cases dialect with
      | sqlite => exact Text.beginnings_self_append (by decide) _
      | mysql => exact Text.beginnings_self_append (by decide) _

/-- The texts of the two dialects differ in the placeholders only. -/
theorem render_mysql {pieces : List Piece} (h : ArePlain pieces) :
    render .mysql pieces =
      (render .sqlite pieces).withEach '?'.toNat Dialect.mysql.placeholder := by
  induction pieces with
  | nil => rfl
  | cons piece rest ih =>
    obtain ⟨hpiece, hrest⟩ := arePlain_cons.mp h
    rw [render_cons, render_cons, Text.withEach_append, ← ih hrest]
    cases piece with
    | words t => rw [text, text, Text.withEach_of_not_mem (not_mem_of_isPlain hpiece).1]
    | value v => rfl

/-! ### Conditions -/

/-- The pieces of the condition that a position is one of some values. -/
def ofSet (vs : List Value) : List Piece :=
  if vs.isEmpty then [.words "1 = 0"]
  else .words "mp.motor_position IN (" :: (listed vs ++ [.words ")"])

/-- The pieces of the condition that a position compares with a value. -/
def ofBound (comparison : Text) (v : Value) : List Piece :=
  [.words "mp.motor_position ", .words comparison, .words " ", .value v]

theorem render_ofSet (vs : List Value) :
    render dialect (ofSet vs) = PositionCondition.text dialect (.oneOf vs.length) := by
  cases vs with
  | nil => rfl
  | cons v vs =>
    simp [ofSet, render_listed, PositionCondition.text, text, Text.append_assoc]

theorem render_above (inclusive : Bool) (v : Value) :
    render dialect (ofBound (if inclusive then ">=" else ">") v) =
      PositionCondition.text dialect (.above inclusive) := by
  cases inclusive <;> simp [ofBound, text, PositionCondition.text, Text.append_assoc]

theorem render_below (inclusive : Bool) (v : Value) :
    render dialect (ofBound (if inclusive then "<=" else "<") v) =
      PositionCondition.text dialect (.below inclusive) := by
  cases inclusive <;> simp [ofBound, text, PositionCondition.text, Text.append_assoc]

theorem values_ofSet (vs : List Value) : values (ofSet vs) = vs := by
  cases vs with
  | nil => rfl
  | cons v vs => simp [ofSet, values_listed]

theorem values_ofBound (comparison : Text) (v : Value) : values (ofBound comparison v) = [v] := rfl

theorem arePlain_ofSet (vs : List Value) : ArePlain (ofSet vs) := by
  unfold ofSet
  split
  · exact arePlain_cons.mpr ⟨by decide, arePlain_nil⟩
  · rw [arePlain_cons, arePlain_append]
    exact ⟨by decide, arePlain_listed vs, arePlain_cons.mpr ⟨by decide, arePlain_nil⟩⟩

theorem arePlain_ofBound {comparison : Text} (h : (words comparison).isPlain = true) (v : Value) :
    ArePlain (ofBound comparison v) := by
  simp only [ofBound, arePlain_cons]
  exact ⟨by decide, h, by decide, rfl, arePlain_nil⟩

end Piece

namespace PositionQuery

variable {dialect : Dialect}

/-! ### The pieces of a selection -/

/-- Whether the condition on a scan looks at positions. -/
def asksPosition (query : PositionQuery) : Bool := query.present && query.constrainsPosition

/-- The pieces of the conditions on a position. -/
def positionPieces (query : PositionQuery) : List (List Piece) :=
  (query.exact.map Piece.ofSet).toList ++
    (query.minimum.map (Piece.ofBound (if query.minInclusive then ">=" else ">"))).toList ++
    (query.maximum.map (Piece.ofBound (if query.maxInclusive then "<=" else "<"))).toList

/-- The pieces of the conditions on a motor. -/
def motorPieces (query : PositionQuery) : List (List Piece) :=
  [.words "mm.scan_id = s.scan_id"] :: [.words "mm.motor_mne = ", .value query.mnemonic] ::
    if query.asksPosition then query.positionPieces else []

/-- The pieces of the condition on a scan. -/
def pieces (query : PositionQuery) : List Piece :=
  .words (if query.present then "EXISTS" else "NOT EXISTS") :: .words " (SELECT 1 FROM " ::
    .words (if query.asksPosition then
      "MotorMnes mm JOIN MotorPositions mp ON mp.motor_id = mm.motor_id" else "MotorMnes mm") ::
    .words " WHERE " :: (Piece.joined query.motorPieces ++ [.words ")"])

/-- What a query asks, as the parameters of its condition: the mnemonic and then, if there is a
position to ask for, the members of the set, the minimum and the maximum. -/
def asked (query : PositionQuery) : List Value :=
  query.mnemonic ::
    if query.asksPosition then query.exact.getD [] ++ query.minimum.toList ++ query.maximum.toList
    else []

theorem conditionsOf_eq_nil {query : PositionQuery} (h : query.constrainsPosition = false) :
    query.conditionsOf = [] := by
  obtain ⟨hexact, hminimum, hmaximum⟩ := constrainsPosition_eq_false.mp h
  simp [conditionsOf, hexact, hminimum, hmaximum]

theorem onPosition_toCondition (query : PositionQuery) :
    query.toCondition.onPosition = if query.asksPosition then query.conditionsOf else [] := by
  unfold toCondition asksPosition
  cases query.present with
  | false => rfl
  | true =>
    cases hconstrains : query.constrainsPosition with
    | true => rfl
    | false => exact conditionsOf_eq_nil hconstrains

theorem isEmpty_onPosition (query : PositionQuery) :
    query.toCondition.onPosition.isEmpty = !query.asksPosition := by
  rw [onPosition_toCondition]
  cases hasks : query.asksPosition with
  | false => rfl
  | true =>
    have hconstrains := (Bool.and_eq_true_iff.mp hasks).2
    simp only [constrainsPosition, Bool.or_eq_true, Option.isSome_iff_exists] at hconstrains
    rcases hconstrains with (⟨vs, h⟩ | ⟨bound, h⟩) | ⟨bound, h⟩ <;> simp [conditionsOf, h]

theorem render_positionPieces (query : PositionQuery) :
    query.positionPieces.map (Piece.render dialect) =
      query.conditionsOf.map (PositionCondition.text dialect) := by
  unfold positionPieces conditionsOf
  simp only [List.map_append, ← Option.toList_map, Option.map_map]
  congr 1
  · congr 1
    · exact congrArg (fun f => (query.exact.map f).toList) (funext Piece.render_ofSet)
    · exact congrArg (fun f => (query.minimum.map f).toList)
        (funext fun v => Piece.render_above query.minInclusive v)
  · exact congrArg (fun f => (query.maximum.map f).toList)
      (funext fun v => Piece.render_below query.maxInclusive v)

/-- The pieces of a condition give its text. -/
theorem render_pieces (query : PositionQuery) :
    Piece.render dialect query.pieces = query.toCondition.text dialect := by
  have hconditions : query.motorPieces.map (Piece.render dialect) =
      Text.ofString "mm.scan_id = s.scan_id" :: ("mm.motor_mne = " ++ dialect.placeholder) ::
        query.toCondition.onPosition.map (PositionCondition.text dialect) := by
    rw [onPosition_toCondition]
    cases hasks : query.asksPosition <;>
      simp [motorPieces, hasks, render_positionPieces, Piece.text]
  have hsource : query.toCondition.source =
      if query.asksPosition then
        Text.ofString "MotorMnes mm JOIN MotorPositions mp ON mp.motor_id = mm.motor_id"
      else Text.ofString "MotorMnes mm" := by
    unfold MotorCondition.source
    rw [isEmpty_onPosition]
    cases query.asksPosition <;> rfl
  unfold pieces MotorCondition.text
  rw [hsource, ← hconditions]
  cases hpresent : query.present <;>
    simp [Piece.render_joined, Piece.text, toCondition, hpresent, Text.append_assoc]

theorem values_positionPieces (query : PositionQuery) :
    query.positionPieces.flatMap Piece.values =
      query.exact.getD [] ++ query.minimum.toList ++ query.maximum.toList := by
  unfold positionPieces
  rw [List.flatMap_append, List.flatMap_append]
  cases query.exact <;> cases query.minimum <;> cases query.maximum <;>
    simp [Piece.values_ofSet, Piece.values_ofBound]

theorem values_pieces (query : PositionQuery) : Piece.values query.pieces = query.asked := by
  unfold pieces asked
  cases hasks : query.asksPosition <;>
    simp [Piece.values_joined, motorPieces, hasks, values_positionPieces]

theorem asked_eq_parameters (query : PositionQuery) : query.asked = query.parameters := by
  unfold asked parameters asksPosition
  cases query.present with
  | false => rfl
  | true =>
    cases hconstrains : query.constrainsPosition with
    | true => rfl
    | false =>
      obtain ⟨hexact, hminimum, hmaximum⟩ := constrainsPosition_eq_false.mp hconstrains
      simp [hexact, hminimum, hmaximum]

theorem arePlain_positionPieces (query : PositionQuery) :
    ∀ condition ∈ query.positionPieces, Piece.ArePlain condition := by
  intro condition hcondition
  simp only [positionPieces, List.mem_append, Option.mem_toList, Option.map_eq_some_iff] at hcondition
  rcases hcondition with (⟨vs, -, rfl⟩ | ⟨bound, -, rfl⟩) | ⟨bound, -, rfl⟩
  · exact Piece.arePlain_ofSet vs
  · exact Piece.arePlain_ofBound (by cases query.minInclusive <;> decide) bound
  · exact Piece.arePlain_ofBound (by cases query.maxInclusive <;> decide) bound

theorem arePlain_pieces (query : PositionQuery) : Piece.ArePlain query.pieces := by
  have hmotor : ∀ condition ∈ query.motorPieces, Piece.ArePlain condition := by
    have hposition : ∀ condition ∈ if query.asksPosition then query.positionPieces else [],
        Piece.ArePlain condition := by
      cases query.asksPosition with
      | false => exact nofun
      | true => exact query.arePlain_positionPieces
    refine List.forall_mem_cons.mpr ⟨?_, List.forall_mem_cons.mpr ⟨?_, hposition⟩⟩
    · exact Piece.arePlain_cons.mpr ⟨by decide, Piece.arePlain_nil⟩
    · exact Piece.arePlain_cons.mpr ⟨by decide, Piece.arePlain_cons.mpr ⟨rfl, Piece.arePlain_nil⟩⟩
  simp only [pieces, Piece.arePlain_cons, Piece.arePlain_append]
  refine ⟨?_, by decide, ?_, by decide, Piece.arePlain_joined hmotor, by decide, Piece.arePlain_nil⟩
  · cases query.present <;> decide
  · cases query.asksPosition <;> decide +kernel

end PositionQuery

/-- The pieces of the selection of the scans that satisfy all queries. -/
def piecesOf (queries : List PositionQuery) : List Piece :=
  .words Statement.selectMotors ::
    ((if queries.isEmpty then []
      else .words " WHERE " :: Piece.joined (queries.map PositionQuery.pieces)) ++
    [.words Statement.order])

theorem render_piecesOf (dialect : Dialect) (queries : List PositionQuery) :
    Piece.render dialect (piecesOf queries) = (Statement.ofQueries queries).text dialect := by
  have hconditions : (queries.map PositionQuery.pieces).map (Piece.render dialect) =
      (queries.map PositionQuery.toCondition).map (MotorCondition.text dialect) := by
    rw [List.map_map, List.map_map]
    exact List.map_congr_left fun query _ => query.render_pieces
  unfold piecesOf Statement.ofQueries Statement.text
  dsimp only
  rw [← hconditions, List.isEmpty_map]
  cases queries <;> simp [Piece.render_joined, Piece.text, Text.append_assoc]

theorem values_piecesOf (queries : List PositionQuery) :
    Piece.values (piecesOf queries) = parametersOf queries := by
  have hparameters : (queries.flatMap fun query => Piece.values query.pieces) =
      parametersOf queries :=
    List.flatMap_congr fun query _ => query.values_pieces.trans query.asked_eq_parameters
  rw [← hparameters]
  unfold piecesOf
  cases queries with
  | nil => rfl
  | cons query rest => simp [Piece.values_joined, List.flatMap_map]

theorem arePlain_piecesOf (queries : List PositionQuery) : Piece.ArePlain (piecesOf queries) := by
  have hconditions : ∀ condition ∈ queries.map PositionQuery.pieces, Piece.ArePlain condition := by
    intro condition hcondition
    obtain ⟨query, -, rfl⟩ := List.mem_map.mp hcondition
    exact query.arePlain_pieces
  have hwhere : Piece.ArePlain (if queries.isEmpty then []
      else .words " WHERE " :: Piece.joined (queries.map PositionQuery.pieces)) := by
    split
    · exact Piece.arePlain_nil
    · exact Piece.arePlain_cons.mpr ⟨by decide, Piece.arePlain_joined hconditions⟩
  rw [piecesOf, Piece.arePlain_cons, Piece.arePlain_append]
  exact ⟨by decide +kernel, hwhere,
    Piece.arePlain_cons.mpr ⟨by decide, Piece.arePlain_nil⟩⟩

/-! ### Queries of the same shape -/

/-- Queries of the same shape ask for the presence of a motor or for its absence, with sets of
the same length and with the same bounds, as far as they are there and inclusive. The mnemonics
and the numbers can be different. -/
structure PositionQuery.SameShape (query other : PositionQuery) : Prop where
  present : query.present = other.present
  exact : query.exact.map List.length = other.exact.map List.length
  minimum : query.minimum.isSome = other.minimum.isSome
  maximum : query.maximum.isSome = other.maximum.isSome
  minInclusive : query.minimum.isSome = true → query.minInclusive = other.minInclusive
  maxInclusive : query.maximum.isSome = true → query.maxInclusive = other.maxInclusive

/-- A bound that is there, or not, gives the same condition as another. -/
theorem map_const_congr {α β : Type} {a b : Option α} {x y : β} (h : a.isSome = b.isSome)
    (hxy : a.isSome = true → x = y) : (a.map fun _ => x) = b.map fun _ => y := by
  cases a <;> cases b <;> simp_all

theorem PositionQuery.SameShape.toCondition {query other : PositionQuery}
    (h : query.SameShape other) : query.toCondition = other.toCondition := by
  have hset : (query.exact.map fun vs => PositionCondition.oneOf vs.length) =
      other.exact.map fun vs => .oneOf vs.length := by
    have hmap := congrArg (Option.map PositionCondition.oneOf) h.exact
    rwa [Option.map_map, Option.map_map] at hmap
  have habove := map_const_congr h.minimum fun hsome =>
    congrArg PositionCondition.above (h.minInclusive hsome)
  have hbelow := map_const_congr h.maximum fun hsome =>
    congrArg PositionCondition.below (h.maxInclusive hsome)
  unfold PositionQuery.toCondition PositionQuery.conditionsOf
  rw [hset, habove, hbelow, h.present]

namespace Statement

theorem ofQueries_sameShape {queries others : List PositionQuery}
    (h : List.Forall₂ PositionQuery.SameShape queries others) :
    ofQueries queries = ofQueries others := by
  have hconditions : queries.map PositionQuery.toCondition =
      others.map PositionQuery.toCondition := by
    induction h with
    | nil => rfl
    | cons h _ ih => rw [List.map_cons, List.map_cons, h.toCondition, ih]
  exact congrArg selectByConditions hconditions

/-- Values are never part of the text of a selection, which has a placeholder for each of them.
Queries of the same shape give the same text; the placeholders stand where the pieces have the
parameters, and in no word; and the texts of the two dialects differ in the placeholders only. -/
theorem text_ofQueries {queries others : List PositionQuery}
    (h : List.Forall₂ PositionQuery.SameShape queries others) :
    (∀ dialect, (ofQueries queries).text dialect = (ofQueries others).text dialect) ∧
      (∀ dialect, ((ofQueries queries).text dialect).occurrences dialect.placeholder =
        (parametersOf queries).length) ∧
      parametersOf queries = queries.flatMap PositionQuery.asked ∧
      (∀ dialect, (ofQueries queries).text dialect = Piece.render dialect (piecesOf queries)) ∧
      parametersOf queries = Piece.values (piecesOf queries) ∧ Piece.ArePlain (piecesOf queries) ∧
      (ofQueries queries).text .mysql =
        ((ofQueries queries).text .sqlite).withEach '?'.toNat Dialect.mysql.placeholder := by
  have hplain := arePlain_piecesOf queries
  refine ⟨fun dialect => ?_, fun dialect => ?_, ?_, fun dialect => ?_, ?_, hplain, ?_⟩
  · rw [ofQueries_sameShape h]
  · rw [← render_piecesOf, Piece.occurrences_render dialect hplain, values_piecesOf]
  · exact List.flatMap_congr fun query _ => query.asked_eq_parameters.symm
  · exact (render_piecesOf dialect queries).symm
  · exact (values_piecesOf queries).symm
  · rw [← render_piecesOf, ← render_piecesOf, Piece.render_mysql hplain]

/-- A query whose mnemonic looks like words of a statement, with a placeholder. -/
def injected : PositionQuery :=
  { mnemonic := "samx' OR sid = ?; DROP TABLE ScanIds", minimum := some (.int 1) }

/-- A query of the same shape. -/
def harmless : PositionQuery := { mnemonic := "b", minimum := some (.float .zero) }

theorem text_ofQueries_injected :
    (∀ dialect, (ofQueries [injected]).text dialect = (ofQueries [harmless]).text dialect) ∧
      ∀ dialect, ((ofQueries [injected]).text dialect).occurrences dialect.placeholder = 2 := by
  have hshape : injected.SameShape harmless := ⟨rfl, rfl, rfl, rfl, fun _ => rfl, fun _ => rfl⟩
  obtain ⟨htext, hcount, -⟩ := text_ofQueries (.cons hshape .nil)
  exact ⟨htext, hcount⟩

end Statement

end ScanCatalog
