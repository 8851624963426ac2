import ScanCatalog.Proofs.Json.Numerals
import ScanCatalog.Proofs.Json.Read
import ScanCatalog.Proofs.Json.Strings

/-!
# What is written as JSON

What a reader makes of a text has no more levels than it has room for, and no integer that is too
long. When it is written again, a reader takes it if all its numbers are finite; otherwise it
stops at the name of the first that is not.

## Main definitions

* `Value.Sized`: values that a reader with some room can make;
* `Value.AllFinite`: values all of whose numbers are finite;
* `Value.KeepsSort`: mappings have become mappings, and lists of them lists of them;
* `Json.ReadsBack`, `Json.IsReadBack`: what a reader makes of a value that was written.

## Main statements

* `Json.sized_of_read`: what is read has the size for it;
* `Json.isReadBack_of_sized`: what is written is read back, wherever it stands;
* `Json.read_write`: a whole text that was written is read again just if it is finite.
-/

namespace ScanCatalog

/-- The values that a reader with room for some levels of containers can make. -/
inductive Value.Sized : Nat → Value → Prop
  | null {room : Nat} : Sized room .null
  | bool {room : Nat} (b : Bool) : Sized room (.bool b)
  | int {room : Nat} {i : Int} (hi : i.natAbs < tenTo Numeral.digitLimit) : Sized room (.int i)
  | float {room : Nat} (x : Binary64) : Sized room (.float x)
  | text {room : Nat} (t : Text) : Sized room (.text t)
  | list {room : Nat} {items : List Value} (hitems : ∀ v ∈ items, Sized room v) :
      Sized (room + 1) (.list items)
  | map {room : Nat} {entries : Entries} (htexts : entries.TextKeys)
      (hvalues : ∀ e ∈ entries, Sized room e.2) : Sized (room + 1) (.map entries)

/-- The values all of whose numbers are finite. -/
inductive Value.AllFinite : Value → Prop
  | null : AllFinite .null
  | bool (b : Bool) : AllFinite (.bool b)
  | int (i : Int) : AllFinite (.int i)
  | float {x : Binary64} (hx : x.isFinite = true) : AllFinite (.float x)
  | text (t : Text) : AllFinite (.text t)
  | list {items : List Value} (hitems : ∀ v ∈ items, AllFinite v) : AllFinite (.list items)
  | map {entries : Entries} (hvalues : ∀ e ∈ entries, AllFinite e.2) : AllFinite (.map entries)

theorem Value.allFinite_list_iff {items : List Value} :
    (∀ v ∈ items, v.AllFinite) ↔ (Value.list items).AllFinite := by
  refine ⟨.list, fun h => ?_⟩
  cases h with
  | list hitems => exact hitems

theorem Value.allFinite_map_iff {entries : Entries} :
    (∀ e ∈ entries, e.2.AllFinite) ↔ (Value.map entries).AllFinite := by
  refine ⟨.map, fun h => ?_⟩
  cases h with
  | map hvalues => exact hvalues

/-- A mapping. -/
def Value.IsObject (v : Value) : Prop := ∃ entries, v = .map entries

/-- A list of mappings. -/
def Value.AreObjects (v : Value) : Prop := ∃ items, v = .list items ∧ ∀ w ∈ items, w.IsObject

/-- Mappings have become mappings, and lists of mappings lists of mappings. -/
structure Value.KeepsSort (v w : Value) : Prop where
  object : v.IsObject → w.IsObject
  objects : v.AreObjects → w.AreObjects

theorem Value.not_isObject_list (items : List Value) : ¬ (Value.list items).IsObject := by
  rintro ⟨_, heq⟩
  cases heq

theorem Value.not_areObjects_map (entries : Entries) : ¬ (Value.map entries).AreObjects := by
  rintro ⟨_, heq, -⟩
  cases heq

namespace Json

variable {allowConstants : Bool} {room fuel offset : Nat} {codes rest : List Nat} {v : Value}
  {part : Part Value}

/-! ### The size of what is read -/

theorem IsAtom.sized (h : IsAtom allowConstants codes v) : v.Sized room := by
  cases h with
  | null => exact .null
  | bool b => exact .bool b
  | int hi => exact .int hi
  | constant => exact .float _
  | decimal => exact .float _

theorem hereditary_sized (allowConstants : Bool) (whole : List Nat) :
    Hereditary allowConstants whole fun room v => v.Sized room where
  text _ := .text
  atom _ _ _ _ h := h.sized
  list _ _ h := .list h
  map _ _ htexts _ h := .map htexts h

/-- What is read has the size for it. -/
theorem sized_of_read {t : Text} (h : read allowConstants t = .ok v) : v.Sized depthLimit :=
  (hereditary_sized allowConstants t.codes).read h

/-! ### Atoms -/

/-- What a reader makes of something that was written: a value of some sort, or nothing if not all
numbers are finite. -/
inductive ReadsBack (finite : Prop) (sort : Value → Prop) (rest : List Nat) :
    Except Stop (Part Value) → Prop
  | read {w : Value} {after : Nat} (hfinite : finite) (hsort : sort w) :
      ReadsBack finite sort rest (.ok ⟨w, after, rest⟩)
  | stopped {name : Text} (hfinite : ¬ finite) :
      ReadsBack finite sort rest (.error (.constant name))

theorem ReadsBack.mono {finite others : Prop} {sort expected : Value → Prop}
    {x : Except Stop (Part Value)} (h : ReadsBack finite sort rest x) (hfinite : finite ↔ others)
    (hsort : ∀ w, sort w → expected w) : ReadsBack others expected rest x := by
  cases h with
  | read hall hw => exact .read (hfinite.mp hall) (hsort _ hw)
  | stopped hnot => exact .stopped fun h => hnot (hfinite.mpr h)

/-- A code point at which a value can begin: no space, no closing bracket and no byte order mark. -/
def IsStart (c : Nat) : Prop := c ∉ [9, 10, 13, 32, 93, 0xFEFF]

instance (c : Nat) : Decidable (IsStart c) := inferInstanceAs (Decidable (_ ∉ _))

theorem IsStart.isSpace {c : Nat} (h : IsStart c) : isSpace c = false := by
  unfold IsStart at h
  unfold Json.isSpace
  simp only [List.mem_cons, not_or] at h
  simp only [Bool.or_eq_false_iff, beq_eq_false_iff_ne]
  omega

theorem IsStart.ne {c d : Nat} (h : IsStart c) (hd : ¬ IsStart d) : c ≠ d := by
  rintro rfl
  exact hd h

theorem wordAt?_eq_none {list : List (Text × Value)}
    (h : ∀ word ∈ list, ¬ word.1.codes <+: codes) : wordAt? list codes = none := by
  refine List.find?_eq_none.mpr fun word hword hfound => h word hword ?_
  exact List.isPrefixOf_iff_prefix.mp hfound

/-- No word has a digit at its first or second place. -/
theorem wordAt?_of_isDigit {i c : Nat} (hi : i < 2) (hget : codes[i]? = some c)
    (hc : Numeral.isDigit c = true) {list : List (Text × Value)}
    (hlist : list ∈ [words, constants]) : wordAt? list codes = none := by
  have hletters : ∀ list ∈ [words, constants], ∀ word ∈ list, ∀ i < 2,
      (word.1.codes[i]?).any (fun d => !Numeral.isDigit d) = true := by decide
  refine wordAt?_eq_none fun word hword hprefix => ?_
  have hletter := hletters list hlist word hword i hi
  obtain ⟨tail, rfl⟩ := hprefix
  cases hd : word.1.codes[i]? with
  | none =>
    rw [hd] at hletter
    cases hletter
  | some d =>
    rw [List.getElem?_append_left (List.getElem?_eq_some_iff.mp hd).1, hd] at hget
    cases hget
    rw [hd, Option.any_some, hc] at hletter
    cases hletter

/-- No word begins a number. -/
theorem readAtom_numeral (h : IsNumeral codes) :
    readAtom allowConstants offset (codes ++ rest) = readNumber offset (codes ++ rest) := by
  have hdigit : ∃ i < 2, ∃ c, (codes ++ rest)[i]? = some c ∧ Numeral.isDigit c = true := by
    rcases h with h | ⟨body, h, rfl⟩
    · obtain ⟨c, tail, rfl, hc⟩ := h.head
      exact ⟨0, by decide, c, rfl, hc⟩
    · obtain ⟨c, tail, rfl, hc⟩ := h.head
      exact ⟨1, by decide, c, rfl, hc⟩
  obtain ⟨i, hi, c, hget, hc⟩ := hdigit
  have hword := @wordAt?_of_isDigit _ i c hi hget hc
  unfold readAtom
  rw [hword (List.mem_cons_self ..), hword (List.mem_cons_of_mem _ (List.mem_cons_self ..))]

/-- What begins with neither a quote nor a bracket is an atom. -/
theorem readValue_atom {c : Nat} (hcodes : codes.head? = some c) (hstring : c ≠ 34)
    (harray : c ≠ 91) (hobject : c ≠ 123) :
    readValue allowConstants room (fuel + 1) offset (codes ++ rest) =
      readAtom allowConstants offset (codes ++ rest) := by
  obtain ⟨tail, rfl⟩ := List.head?_eq_some_iff.mp hcodes
  rw [List.cons_append]
  unfold readValue
  split
  next h => cases h
  next h => exact absurd (List.cons.inj h).1 hstring
  next h => exact absurd (List.cons.inj h).1 harray
  next h => exact absurd (List.cons.inj h).1 hobject
  next => rfl

theorem IsNumeral.head (h : IsNumeral codes) :
    ∃ c, codes.head? = some c ∧ (Numeral.isDigit c = true ∨ c = 45) := by
  rcases h with h | ⟨body, -, rfl⟩
  · obtain ⟨c, tail, rfl, hc⟩ := h.head
    exact ⟨c, rfl, .inl hc⟩
  · exact ⟨45, rfl, .inr rfl⟩

/-- What is written of a value is read back, or stopped at, where there is some room. -/
structure IsReadBack (room : Nat) (v : Value) : Prop where
  starts : ∃ c, (write v).codes.head? = some c ∧ IsStart c
  reads : ∀ fuel offset rest, IsApart rest → 2 * (write v).codes.length < fuel →
    ReadsBack v.AllFinite v.KeepsSort rest
      (readValue false room fuel offset ((write v).codes ++ rest))

/-- What is written of an atom is read back, if it is as an atom. -/
theorem isReadBack_of_readAtom {c : Nat} (hhead : (write v).codes.head? = some c)
    (hstart : IsStart c) (hopen : c ∉ [34, 91, 123])
    (h : ∀ offset rest, IsApart rest → ReadsBack v.AllFinite v.KeepsSort rest
      (readAtom false offset ((write v).codes ++ rest))) : IsReadBack room v where
  starts := ⟨c, hhead, hstart⟩
  reads fuel offset rest hrest hfuel := by
    obtain ⟨fuel, rfl⟩ := Nat.exists_eq_succ_of_ne_zero (Nat.ne_zero_of_lt hfuel)
    simp only [List.mem_cons, List.not_mem_nil, or_false, not_or] at hopen
    rw [readValue_atom hhead hopen.1 hopen.2.1 hopen.2.2]
    exact h offset rest hrest

theorem isReadBack_null : IsReadBack room .null := by
  refine isReadBack_of_readAtom rfl (by decide) (by decide) fun offset rest _ => ?_
  have hread : readAtom false offset ((write .null).codes ++ rest) =
      .ok ⟨.null, offset + 4, rest⟩ := rfl
  rw [hread]
  exact .read .null ⟨nofun, nofun⟩

theorem isReadBack_bool (b : Bool) : IsReadBack room (.bool b) := by
  cases b with
  | false =>
    refine isReadBack_of_readAtom rfl (by decide) (by decide) fun offset rest _ => ?_
    have hread : readAtom false offset ((write (.bool false)).codes ++ rest) =
        .ok ⟨.bool false, offset + 5, rest⟩ := rfl
    rw [hread]
    exact .read (.bool false) ⟨nofun, nofun⟩
  | true =>
    refine isReadBack_of_readAtom rfl (by decide) (by decide) fun offset rest _ => ?_
    have hread : readAtom false offset ((write (.bool true)).codes ++ rest) =
        .ok ⟨.bool true, offset + 4, rest⟩ := rfl
    rw [hread]
    exact .read (.bool true) ⟨nofun, nofun⟩

theorem isReadBack_numeral (h : IsNumeral (write v).codes) (hfinite : v.AllFinite)
    (hsort : ∀ w, v.KeepsSort w) : IsReadBack room v := by
  obtain ⟨c, hhead, hc⟩ := h.head
  have hne : ∀ d, Numeral.isDigit d = false ∧ d ≠ 45 → c ≠ d := by
    rintro d ⟨hd, hminus⟩ rfl
    rcases hc with hc | hc
    · exact ne_of_isDigit hc hd rfl
    · exact hminus hc
  have hmem : ∀ list : List Nat, (∀ d ∈ list, Numeral.isDigit d = false ∧ d ≠ 45) → c ∉ list :=
    fun _ hlist hmem => hne c (hlist c hmem) rfl
  refine isReadBack_of_readAtom hhead (hmem _ (by decide)) (hmem _ (by decide)) ?_
  intro offset rest hrest
  obtain ⟨w, after, hread⟩ := h.readNumber hrest offset
  rw [readAtom_numeral h, hread]
  exact .read hfinite (hsort w)

theorem isReadBack_float (x : Binary64) : IsReadBack room (.float x) := by
  have hstopped : ∀ {x : Binary64}, x.isFinite = false → ¬ (Value.float x).AllFinite := by
    intro x hx h
    cases h with
    | float hfinite =>
      rw [hx] at hfinite
      cases hfinite
  cases x with
  | finite negative rank hbound =>
    exact isReadBack_numeral (isNumeral_shown rfl) (.float rfl) fun _ => ⟨nofun, nofun⟩
  | nan =>
    refine isReadBack_of_readAtom rfl (by decide) (by decide) fun offset rest _ => ?_
    have hread : readAtom false offset ((write (.float .nan)).codes ++ rest) =
        .error (.constant "NaN") := rfl
    rw [hread]
    exact .stopped (hstopped rfl)
  | infinite negative =>
    cases negative with
    | false =>
      refine isReadBack_of_readAtom rfl (by decide) (by decide) fun offset rest _ => ?_
      have hread : readAtom false offset ((write (.float (.infinite false))).codes ++ rest) =
          .error (.constant "Infinity") := rfl
      rw [hread]
      exact .stopped (hstopped rfl)
    | true =>
      refine isReadBack_of_readAtom rfl (by decide) (by decide) fun offset rest _ => ?_
      have hread : readAtom false offset ((write (.float (.infinite true))).codes ++ rest) =
          .error (.constant "-Infinity") := rfl
      rw [hread]
      exact .stopped (hstopped rfl)

/-- What is written between quotes is read up to the last of them. -/
theorem readString_quoted (t : Text) (rest : List Nat) (start offset : Nat)
    (hfuel : (quoteText t).codes.length < fuel + 2) : ∃ behind u after,
      (quoteText t).codes ++ rest = 34 :: behind ∧
        readString start fuel [] offset behind = .ok ⟨u, after, rest⟩ := by
  have hcodes : (quoteText t).codes ++ rest = 34 :: (t.codes.flatMap escapeCode ++ 34 :: rest) := by
    show 34 :: (t.codes.flatMap escapeCode ++ [34]) ++ rest = _
    rw [List.cons_append, List.append_assoc, List.singleton_append]
  have hsize : (t.codes.flatMap escapeCode).length < fuel := by
    have hlength : (quoteText t).codes.length = (t.codes.flatMap escapeCode).length + 1 + 1 := by
      show (34 :: (t.codes.flatMap escapeCode ++ [34])).length = _
      rw [List.length_cons, List.length_append, List.length_singleton]
    omega
  obtain ⟨u, after, hread⟩ := readString_escapes t rest hsize
  exact ⟨_, u, after, hcodes, hread⟩

theorem readValue_string {u : Text} {after : Nat}
    (h : readString offset fuel [] (offset + 1) codes = .ok ⟨u, after, rest⟩) :
    readValue allowConstants room (fuel + 1) offset (34 :: codes) = .ok ⟨.text u, after, rest⟩ := by
  rw [readValue, h]

theorem isReadBack_text (t : Text) : IsReadBack room (.text t) where
  starts := ⟨34, rfl, by decide⟩
  reads fuel offset rest _ hfuel := by
    have hwrite : write (.text t) = quoteText t := rfl
    rw [hwrite] at hfuel ⊢
    obtain ⟨fuel, rfl⟩ := Nat.exists_eq_succ_of_ne_zero (Nat.ne_zero_of_lt hfuel)
    have hsize : (quoteText t).codes.length < fuel + 2 := by omega
    obtain ⟨behind, u, after, hcodes, hread⟩ :=
      readString_quoted t rest offset (offset + 1) hsize
    rw [hcodes, readValue_string hread]
    exact .read (.text t) ⟨nofun, nofun⟩

/-! ### Containers -/

theorem skipSpaces_of_head {c : Nat} (hhead : codes.head? = some c) (hc : isSpace c = false) :
    skipSpaces offset codes = (offset, codes) := by
  obtain ⟨tail, rfl⟩ := List.head?_eq_some_iff.mp hhead
  unfold skipSpaces
  rw [List.takeWhile_cons, List.dropWhile_cons, hc]
  rfl

theorem skipSpaces_space {c : Nat} (hhead : codes.head? = some c) (hc : isSpace c = false) :
    skipSpaces offset (32 :: codes) = (offset + 1, codes) := by
  obtain ⟨tail, rfl⟩ := List.head?_eq_some_iff.mp hhead
  unfold skipSpaces
  rw [List.takeWhile_cons, List.dropWhile_cons, List.takeWhile_cons, List.dropWhile_cons, hc]
  rfl

theorem codes_enclose (opening closing separator : Text) (items : List Text) :
    (enclose opening closing separator items).codes =
      opening.codes ++ ((Text.join separator items).codes ++ closing.codes) := by
  unfold enclose
  split
  · next hempty =>
    rw [List.isEmpty_iff.mp hempty]
    rfl
  · rw [Text.codes_append, Text.codes_append, List.append_assoc]

theorem codes_write_list (items : List Value) : (write (.list items)).codes =
    91 :: ((Text.join ", " (writeItems items)).codes ++ [93]) := by
  rw [write]
  exact codes_enclose _ _ _ _

theorem codes_write_map (entries : Entries) : (write (.map entries)).codes =
    123 :: ((Text.join ", " (writeEntries entries)).codes ++ [125]) := by
  rw [write]
  exact codes_enclose _ _ _ _

theorem readItems_stop {taken : List Value} {stop : Stop}
    (h : readValue allowConstants room fuel offset codes = .error stop) :
    readItems allowConstants room (fuel + 1) taken offset codes = .error stop := by
  rw [readItems, h]

theorem readItems_last {taken : List Value} {after : Nat}
    (h : readValue allowConstants room fuel offset codes = .ok ⟨v, after, 93 :: rest⟩) :
    readItems allowConstants room (fuel + 1) taken offset codes =
      .ok ⟨.list (v :: taken).reverse, after + 1, rest⟩ := by
  have hskip : skipSpaces after (93 :: rest) = (after, 93 :: rest) := skipSpaces_of_head rfl rfl
  rw [readItems, h]
  dsimp only
  rw [hskip]
  rfl

theorem readItems_next {taken : List Value} {after c : Nat}
    (h : readValue allowConstants room fuel offset codes = .ok ⟨v, after, 44 :: 32 :: rest⟩)
    (hhead : rest.head? = some c) (hc : isSpace c = false) :
    readItems allowConstants room (fuel + 1) taken offset codes =
      readItems allowConstants room fuel (v :: taken) (after + 2) rest := by
  have hskip : skipSpaces after (44 :: 32 :: rest) = (after, 44 :: 32 :: rest) :=
    skipSpaces_of_head rfl rfl
  rw [readItems, h]
  dsimp only
  rw [hskip]
  show readItems allowConstants room fuel (v :: taken) (skipSpaces (after + 1) (32 :: rest)).1
    (skipSpaces (after + 1) (32 :: rest)).2 = _
  rw [skipSpaces_space hhead hc]

theorem head?_append_of_head {c : Nat} (h : codes.head? = some c) :
    (codes ++ rest).head? = some c := by
  obtain ⟨tail, rfl⟩ := List.head?_eq_some_iff.mp h
  rfl

theorem join_cons_cons (separator t u : Text) (others : List Text) :
    (Text.join separator (t :: u :: others)).codes =
      t.codes ++ (separator.codes ++ (Text.join separator (u :: others)).codes) := by
  show t.codes ++ separator.codes ++ (Text.join separator (u :: others)).codes = _
  rw [List.append_assoc]

/-- What begins the first item begins them all. -/
theorem head?_join {separator t : Text} (others : List Text) {c : Nat}
    (h : t.codes.head? = some c) : (Text.join separator (t :: others)).codes.head? = some c := by
  cases others with
  | nil => exact h
  | cons u others =>
    rw [join_cons_cons]
    exact head?_append_of_head h

theorem readsBack_items {items : List Value} (hne : items ≠ [])
    (hitems : ∀ v ∈ items, IsReadBack room v) (taken : List Value) (rest : List Nat)
    (hfuel : 2 * (Text.join ", " (writeItems items)).codes.length + 1 < fuel) :
    ReadsBack (∀ v ∈ items, v.AllFinite)
      (fun w => (∀ v ∈ taken, v.IsObject) → (∀ v ∈ items, v.IsObject) → w.AreObjects) rest
      (readItems false room fuel taken offset
        ((Text.join ", " (writeItems items)).codes ++ 93 :: rest)) := by
  induction items generalizing fuel taken offset with
  | nil => exact absurd rfl hne
  | cons v others ih =>
    obtain ⟨hv, hothers⟩ := List.forall_mem_cons.mp hitems
    obtain ⟨fuel, rfl⟩ := Nat.exists_eq_succ_of_ne_zero (Nat.ne_zero_of_lt hfuel)
    cases others with
    | nil =>
      have hcodes : Text.join ", " (writeItems [v]) = write v := rfl
      rw [hcodes] at hfuel ⊢
      have hback := hv.reads fuel offset (93 :: rest) rfl (by omega)
      generalize hread : readValue false room fuel offset ((write v).codes ++ 93 :: rest) = x
        at hback
      cases hback with
      | stopped hfinite =>
        rw [readItems_stop hread]
        exact .stopped fun h => hfinite (h v (List.mem_singleton_self v))
      | @read w _ hfinite hsort =>
        rw [readItems_last hread]
        refine .read (List.forall_mem_singleton.mpr hfinite) fun htaken hobjects => ⟨_, rfl, ?_⟩
        intro u hu
        have hobject := hsort.object (hobjects v (List.mem_singleton_self v))
        exact List.forall_mem_cons.mpr ⟨hobject, htaken⟩ u (List.mem_reverse.mp hu)
    | cons next others =>
      have hcodes : (Text.join ", " (writeItems (v :: next :: others))).codes =
          (write v).codes ++ (44 :: 32 :: (Text.join ", " (writeItems (next :: others))).codes) :=
        join_cons_cons _ _ _ _
      obtain ⟨c, hhead, hstart⟩ := (hothers next (List.mem_cons_self ..)).starts
      have hbehind : (Text.join ", " (writeItems (next :: others))).codes.head? = some c :=
        head?_join (writeItems others) hhead
      rw [hcodes] at hfuel ⊢
      generalize (Text.join ", " (writeItems (next :: others))).codes = behind at *
      rw [List.length_append, List.length_cons, List.length_cons] at hfuel
      rw [List.append_assoc, List.cons_append, List.cons_append]
      have hback := hv.reads fuel offset (44 :: 32 :: (behind ++ 93 :: rest)) rfl (by omega)
      generalize hread : readValue false room fuel offset
        ((write v).codes ++ 44 :: 32 :: (behind ++ 93 :: rest)) = x at hback
      cases hback with
      | stopped hfinite =>
        rw [readItems_stop hread]
        exact .stopped fun h => hfinite (h v (List.mem_cons_self ..))
      | @read w after hfinite hsort =>
        rw [readItems_next hread (head?_append_of_head hbehind) hstart.isSpace]
        have hsize : 2 * behind.length + 1 < fuel := by omega
        refine (ih (List.cons_ne_nil _ _) hothers (w :: taken) hsize).mono ?_ fun u hu => ?_
        · exact ⟨fun h => List.forall_mem_cons.mpr ⟨hfinite, h⟩,
            fun h => (List.forall_mem_cons.mp h).2⟩
        · intro htaken hobjects
          obtain ⟨hobject, hobjects⟩ := List.forall_mem_cons.mp hobjects
          exact hu (List.forall_mem_cons.mpr ⟨hsort.object hobject, htaken⟩) hobjects

section Fields

variable {taken : Entries} {key : Text} {behind : List Nat} {afterKey after c : Nat}

theorem readFields_stop {stop : Stop}
    (hkey : readString offset fuel [] (offset + 1) behind = .ok ⟨key, afterKey, 58 :: 32 :: codes⟩)
    (hhead : codes.head? = some c) (hc : isSpace c = false)
    (h : readValue allowConstants room fuel (afterKey + 2) codes = .error stop) :
    readFields allowConstants room (fuel + 1) taken offset (34 :: behind) = .error stop := by
  have hcolon : skipSpaces afterKey (58 :: 32 :: codes) = (afterKey, 58 :: 32 :: codes) :=
    skipSpaces_of_head rfl rfl
  simp only [readFields, hkey, hcolon, skipSpaces_space hhead hc, h]

theorem readFields_last
    (hkey : readString offset fuel [] (offset + 1) behind = .ok ⟨key, afterKey, 58 :: 32 :: codes⟩)
    (hhead : codes.head? = some c) (hc : isSpace c = false)
    (h : readValue allowConstants room fuel (afterKey + 2) codes = .ok ⟨v, after, 125 :: rest⟩) :
    readFields allowConstants room (fuel + 1) taken offset (34 :: behind) =
      .ok ⟨.map (taken.set (.text key) v), after + 1, rest⟩ := by
  have hcolon : skipSpaces afterKey (58 :: 32 :: codes) = (afterKey, 58 :: 32 :: codes) :=
    skipSpaces_of_head rfl rfl
  have hclose : skipSpaces after (125 :: rest) = (after, 125 :: rest) := skipSpaces_of_head rfl rfl
  simp only [readFields, hkey, hcolon, skipSpaces_space hhead hc, h, hclose]

theorem readFields_next {d : Nat}
    (hkey : readString offset fuel [] (offset + 1) behind = .ok ⟨key, afterKey, 58 :: 32 :: codes⟩)
    (hhead : codes.head? = some c) (hc : isSpace c = false)
    (h : readValue allowConstants room fuel (afterKey + 2) codes =
      .ok ⟨v, after, 44 :: 32 :: rest⟩)
    (hnext : rest.head? = some d) (hd : isSpace d = false) :
    readFields allowConstants room (fuel + 1) taken offset (34 :: behind) =
      readFields allowConstants room fuel (taken.set (.text key) v) (after + 2) rest := by
  have hcolon : skipSpaces afterKey (58 :: 32 :: codes) = (afterKey, 58 :: 32 :: codes) :=
    skipSpaces_of_head rfl rfl
  have hcomma : skipSpaces after (44 :: 32 :: rest) = (after, 44 :: 32 :: rest) :=
    skipSpaces_of_head rfl rfl
  simp only [readFields, hkey, hcolon, skipSpaces_space hhead hc, h, hcomma,
    skipSpaces_space hnext hd]

end Fields

/-- The key of an entry is read, and the value after it is read back. -/
theorem IsReadBack.entry (hv : IsReadBack room v) (t : Text) (offset : Nat) (rest : List Nat)
    (hrest : IsApart rest)
    (hfuel : 2 * (writeKey (.text t) ++ ": " ++ write v).codes.length < fuel) :
    ∃ behind key afterKey, (writeKey (.text t) ++ ": " ++ write v).codes ++ rest = 34 :: behind ∧
      readString offset fuel [] (offset + 1) behind =
        .ok ⟨key, afterKey, 58 :: 32 :: ((write v).codes ++ rest)⟩ ∧
      ReadsBack v.AllFinite v.KeepsSort rest
        (readValue false room fuel (afterKey + 2) ((write v).codes ++ rest)) := by
  have hcodes : (writeKey (.text t) ++ ": " ++ write v).codes =
      (quoteText t).codes ++ 58 :: 32 :: (write v).codes := by
    rw [Text.codes_append, Text.codes_append, List.append_assoc]
    rfl
  rw [hcodes, List.length_append, List.length_cons, List.length_cons] at hfuel
  rw [hcodes, List.append_assoc, List.cons_append, List.cons_append]
  have hquoted : (quoteText t).codes.length < fuel + 2 := by omega
  have hvalue : 2 * (write v).codes.length < fuel := by omega
  obtain ⟨behind, key, afterKey, heq, hkey⟩ := readString_quoted t
    (58 :: 32 :: ((write v).codes ++ rest)) offset (offset + 1) hquoted
  exact ⟨behind, key, afterKey, heq, hkey, hv.reads fuel (afterKey + 2) rest hrest hvalue⟩

theorem readsBack_fields {entries : Entries} (offset : Nat) (hne : entries ≠ [])
    (htexts : entries.TextKeys)
    (hvalues : ∀ e ∈ entries, IsReadBack room e.2) (taken : Entries) (rest : List Nat)
    (hfuel : 2 * (Text.join ", " (writeEntries entries)).codes.length + 1 < fuel) :
    ReadsBack (∀ e ∈ entries, e.2.AllFinite) Value.IsObject rest
      (readFields false room fuel taken offset
        ((Text.join ", " (writeEntries entries)).codes ++ 125 :: rest)) := by
  induction entries generalizing fuel taken offset with
  | nil => exact absurd rfl hne
  | cons e others ih =>
    obtain ⟨k, v⟩ := e
    obtain ⟨⟨t, rfl⟩, hkeys⟩ := List.forall_mem_cons.mp htexts
    obtain ⟨hv, hothers⟩ := List.forall_mem_cons.mp hvalues
    have hv : IsReadBack room v := hv
    obtain ⟨fuel, rfl⟩ := Nat.exists_eq_succ_of_ne_zero (Nat.ne_zero_of_lt hfuel)
    obtain ⟨c, hhead, hstart⟩ := hv.starts
    cases others with
    | nil =>
      have hcodes : Text.join ", " (writeEntries [(.text t, v)]) =
          writeKey (.text t) ++ ": " ++ write v := rfl
      rw [hcodes] at hfuel ⊢
      have hsize : 2 * (writeKey (.text t) ++ ": " ++ write v).codes.length < fuel := by omega
      obtain ⟨behind, key, afterKey, heq, hkey, hback⟩ :=
        hv.entry t offset (125 :: rest) rfl hsize
      rw [heq]
      generalize hread : readValue false room fuel (afterKey + 2) _ = x at hback
      cases hback with
      | stopped hfinite =>
        rw [readFields_stop hkey (head?_append_of_head hhead) hstart.isSpace hread]
        exact .stopped fun h => hfinite (h _ (List.mem_singleton_self _))
      | read hfinite =>
        rw [readFields_last hkey (head?_append_of_head hhead) hstart.isSpace hread]
        exact .read (List.forall_mem_singleton.mpr hfinite) ⟨_, rfl⟩
    | cons next others =>
      have hcodes : (Text.join ", " (writeEntries ((.text t, v) :: next :: others))).codes =
          (writeKey (.text t) ++ ": " ++ write v).codes ++ (44 :: 32 ::
            (Text.join ", " (writeEntries (next :: others))).codes) := join_cons_cons _ _ _ _
      have hbehind : (Text.join ", " (writeEntries (next :: others))).codes.head? = some 34 := by
        obtain ⟨⟨t', hkey⟩, -⟩ := List.forall_mem_cons.mp hkeys
        obtain ⟨k', v'⟩ := next
        cases hkey
        exact head?_join (writeEntries others) rfl
      rw [hcodes] at hfuel ⊢
      generalize (Text.join ", " (writeEntries (next :: others))).codes = inner at *
      rw [List.length_append, List.length_cons, List.length_cons] at hfuel
      rw [List.append_assoc, List.cons_append, List.cons_append]
      have hsize : 2 * (writeKey (.text t) ++ ": " ++ write v).codes.length < fuel := by omega
      have hsmall : 2 * inner.length + 1 < fuel := by omega
      obtain ⟨behind, key, afterKey, heq, hkey, hback⟩ :=
        hv.entry t offset (44 :: 32 :: (inner ++ 125 :: rest)) rfl hsize
      rw [heq]
      generalize hread : readValue false room fuel (afterKey + 2) _ = x at hback
      cases hback with
      | stopped hfinite =>
        rw [readFields_stop hkey (head?_append_of_head hhead) hstart.isSpace hread]
        exact .stopped fun h => hfinite (h _ (List.mem_cons_self ..))
      | @read w after hfinite hsort =>
        rw [readFields_next hkey (head?_append_of_head hhead) hstart.isSpace hread
          (head?_append_of_head hbehind) rfl]
        refine (ih _ (List.cons_ne_nil _ _) hkeys hothers _ hsmall).mono ?_ fun _ hu => hu
        exact ⟨fun h => List.forall_mem_cons.mpr ⟨hfinite, h⟩,
          fun h => (List.forall_mem_cons.mp h).2⟩

theorem readValue_array {c : Nat} (hhead : codes.head? = some c) (hc : IsStart c) :
    readValue allowConstants (room + 1) (fuel + 1) offset (91 :: codes) =
      readItems allowConstants room fuel [] (offset + 1) codes := by
  have hskip : skipSpaces (offset + 1) codes = (offset + 1, codes) :=
    skipSpaces_of_head hhead hc.isSpace
  obtain ⟨tail, rfl⟩ := List.head?_eq_some_iff.mp hhead
  rw [readValue, if_neg (Nat.succ_ne_zero room), hskip]
  split
  · next heq => exact absurd (List.cons.inj (Prod.mk.inj heq).2).1 (hc.ne (by decide))
  · next heq =>
    cases heq
    rfl

theorem readValue_object (codes : List Nat) :
    readValue allowConstants (room + 1) (fuel + 1) offset (123 :: 34 :: codes) =
      readFields allowConstants room fuel [] (offset + 1) (34 :: codes) := by
  have hskip : skipSpaces (offset + 1) (34 :: codes) = (offset + 1, 34 :: codes) :=
    skipSpaces_of_head rfl rfl
  rw [readValue, if_neg (Nat.succ_ne_zero room), hskip]
  rfl

theorem isReadBack_list {items : List Value} (hitems : ∀ v ∈ items, IsReadBack room v) :
    IsReadBack (room + 1) (.list items) where
  starts := by
    rw [codes_write_list]
    exact ⟨91, rfl, by decide⟩
  reads fuel offset rest _ hfuel := by
    obtain ⟨fuel, rfl⟩ := Nat.exists_eq_succ_of_ne_zero (Nat.ne_zero_of_lt hfuel)
    rw [codes_write_list, List.length_cons, List.length_append, List.length_singleton] at hfuel
    rw [codes_write_list, List.cons_append, List.append_assoc, List.singleton_append]
    cases items with
    | nil =>
      have hread : readValue false (room + 1) (fuel + 1) offset (91 :: 93 :: rest) =
          .ok ⟨.list [], offset + 2, rest⟩ := by
        have hskip : skipSpaces (offset + 1) (93 :: rest) = (offset + 1, 93 :: rest) :=
          skipSpaces_of_head rfl rfl
        rw [readValue, if_neg (Nat.succ_ne_zero room), hskip]
        rfl
      show ReadsBack _ _ rest (readValue false (room + 1) (fuel + 1) offset (91 :: 93 :: rest))
      rw [hread]
      exact .read (.list (List.forall_mem_nil _))
        ⟨fun h => absurd h (Value.not_isObject_list []), id⟩
    | cons v others =>
      obtain ⟨c, hhead, hstart⟩ := (hitems v (List.mem_cons_self ..)).starts
      have hall : (Text.join ", " (writeItems (v :: others))).codes.head? = some c :=
        head?_join (writeItems others) hhead
      have hsize : 2 * (Text.join ", " (writeItems (v :: others))).codes.length + 1 < fuel := by
        omega
      rw [readValue_array (head?_append_of_head hall) hstart]
      refine (readsBack_items (List.cons_ne_nil _ _) hitems [] rest hsize).mono
        Value.allFinite_list_iff fun w hw =>
          ⟨fun h => absurd h (Value.not_isObject_list _), fun hobjects => ?_⟩
      obtain ⟨_, heq, hobjects⟩ := hobjects
      cases heq
      exact hw (List.forall_mem_nil _) hobjects

theorem isReadBack_map {entries : Entries} (htexts : entries.TextKeys)
    (hvalues : ∀ e ∈ entries, IsReadBack room e.2) : IsReadBack (room + 1) (.map entries) where
  starts := by
    rw [codes_write_map]
    exact ⟨123, rfl, by decide⟩
  reads fuel offset rest _ hfuel := by
    obtain ⟨fuel, rfl⟩ := Nat.exists_eq_succ_of_ne_zero (Nat.ne_zero_of_lt hfuel)
    rw [codes_write_map, List.length_cons, List.length_append, List.length_singleton] at hfuel
    rw [codes_write_map, List.cons_append, List.append_assoc, List.singleton_append]
    cases entries with
    | nil =>
      have hread : readValue false (room + 1) (fuel + 1) offset (123 :: 125 :: rest) =
          .ok ⟨.map [], offset + 2, rest⟩ := by
        have hskip : skipSpaces (offset + 1) (125 :: rest) = (offset + 1, 125 :: rest) :=
          skipSpaces_of_head rfl rfl
        rw [readValue, if_neg (Nat.succ_ne_zero room), hskip]
        rfl
      show ReadsBack _ _ rest (readValue false (room + 1) (fuel + 1) offset (123 :: 125 :: rest))
      rw [hread]
      exact .read (.map (List.forall_mem_nil _))
        ⟨fun _ => ⟨[], rfl⟩, fun h => absurd h (Value.not_areObjects_map [])⟩
    | cons e others =>
      have hhead : (Text.join ", " (writeEntries (e :: others))).codes.head? = some 34 := by
        obtain ⟨⟨t, hkey⟩, -⟩ := List.forall_mem_cons.mp htexts
        obtain ⟨k, v⟩ := e
        cases hkey
        exact head?_join (writeEntries others) rfl
      have hsize : 2 * (Text.join ", " (writeEntries (e :: others))).codes.length + 1 < fuel := by
        omega
      have hback :=
        readsBack_fields (offset + 1) (List.cons_ne_nil _ _) htexts hvalues [] rest hsize
      obtain ⟨tail, htail⟩ := List.head?_eq_some_iff.mp hhead
      rw [htail, List.cons_append] at hback ⊢
      rw [readValue_object]
      exact hback.mono Value.allFinite_map_iff fun _ hw =>
        ⟨fun _ => hw, fun h => absurd h (Value.not_areObjects_map _)⟩

/-- What is written of a value that a reader can make is read back by that reader. -/
theorem isReadBack_of_sized (h : v.Sized room) : IsReadBack room v := by
  induction h with
  | null => exact isReadBack_null
  | bool b => exact isReadBack_bool b
  | int hi => exact isReadBack_numeral (isNumeral_ofInt hi) (.int _) fun _ => ⟨nofun, nofun⟩
  | float x => exact isReadBack_float x
  | text t => exact isReadBack_text t
  | list _ ih => exact isReadBack_list ih
  | map htexts _ ih => exact isReadBack_map htexts ih

theorem head?_ne_mark {c : Nat} (hhead : codes.head? = some c) (hc : IsStart c) :
    codes.head? ≠ some 0xFEFF := by
  rw [hhead]
  exact fun h => hc.ne (by decide) (Option.some.inj h)

theorem readCodes_all {c after : Nat} (hhead : codes.head? = some c) (hc : IsStart c)
    (h : readValue allowConstants depthLimit (2 * codes.length + 2) 0 codes = .ok ⟨v, after, []⟩) :
    readCodes allowConstants codes = .ok v := by
  unfold readCodes
  rw [if_neg (head?_ne_mark hhead hc), skipSpaces_of_head hhead hc.isSpace]
  dsimp only
  rw [h]
  rfl

theorem readCodes_stop {c : Nat} {stop : Stop} (hhead : codes.head? = some c) (hc : IsStart c)
    (h : readValue allowConstants depthLimit (2 * codes.length + 2) 0 codes = .error stop) :
    readCodes allowConstants codes = .error stop := by
  unfold readCodes
  rw [if_neg (head?_ne_mark hhead hc), skipSpaces_of_head hhead hc.isSpace]
  dsimp only
  rw [h]

/-- What is written of a value is read again to one of the same sort if all numbers of the value
are finite; otherwise the reader stops at the name of the first that is not. -/
theorem read_write (h : v.Sized depthLimit) :
    (v.AllFinite ∧ ∃ w, v.KeepsSort w ∧ read false (write v) = .ok w) ∨
      (¬ v.AllFinite ∧ ∃ name, read false (write v) = .error (.constant name)) := by
  have hwritten := isReadBack_of_sized h
  obtain ⟨c, hhead, hstart⟩ := hwritten.starts
  have hback := hwritten.reads (2 * (write v).codes.length + 2) 0 [] rfl (by omega)
  rw [List.append_nil] at hback
  generalize hread : readValue false depthLimit _ 0 (write v).codes = x at hback
  unfold read
  cases hback with
  | @read w after hfinite hsort =>
    rw [readCodes_all hhead hstart hread]
    exact .inl ⟨hfinite, w, hsort, rfl⟩
  | @stopped name hfinite =>
    rw [readCodes_stop hhead hstart hread]
    exact .inr ⟨hfinite, name, rfl⟩

end Json

end ScanCatalog
