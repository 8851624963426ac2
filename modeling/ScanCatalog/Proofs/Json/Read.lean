import ScanCatalog.Proofs.Json.Atoms
import ScanCatalog.Proofs.Value.Updates

/-!
# What is read from JSON

A reader makes texts and atoms, and lists and mappings of what it has made before. So what
holds of those, and goes on from parts to containers, holds of whatever is read. What holds of an
atom may depend on the place in the text where it stands, and on the levels of containers for
which there is room.

## Main definitions

* `Json.Hereditary`: a property of atoms that goes on to containers;
* `Value.IsJson`: the values of JSON texts.

## Main statements

* `Json.Hereditary.reads`: a hereditary property holds of what the parts of the reader make;
* `Json.isJson_of_read`: what a text is read to is a value of JSON.
-/

namespace ScanCatalog

/-- What holds of all values goes on to hold when one is put in. -/
theorem Entries.forall_values_set {property : Value → Prop} {entries : Entries} {value : Value}
    (h : ∀ e ∈ entries, property e.2) (hvalue : property value) (key : Value) :
    ∀ e ∈ entries.set key value, property e.2 := by
  induction entries with
  | nil => exact List.forall_mem_singleton.mpr hvalue
  | cons e rest ih =>
    obtain ⟨k, v⟩ := e
    obtain ⟨hfirst, hrest⟩ := List.forall_mem_cons.mp h
    unfold set
    split
    · exact List.forall_mem_cons.mpr ⟨hvalue, hrest⟩
    · exact List.forall_mem_cons.mpr ⟨hfirst, ih hrest⟩

namespace Json

/-- A property of the texts and atoms that stand in some code points. It goes on to lists and
mappings, which take a level of the room that is left, and whose keys are texts none of which
comes again. -/
structure Hereditary (allowConstants : Bool) (whole : List Nat) (property : Nat → Value → Prop) :
    Prop where
  text : ∀ room t, property room (.text t)
  atom : ∀ room codes v, codes <:+ whole → IsAtom allowConstants codes v → property room v
  list : ∀ room (items : List Value), (∀ v ∈ items, property room v) →
    property (room + 1) (.list items)
  map : ∀ room (entries : Entries), entries.TextKeys → entries.Distinct →
    (∀ e ∈ entries, property room e.2) → property (room + 1) (.map entries)

/-- What the parts of a reader with some fuel make of the end of some code points has a
property. -/
structure Reads (allowConstants : Bool) (whole : List Nat) (property : Nat → Value → Prop)
    (fuel : Nat) : Prop where
  value : ∀ room offset codes part, codes <:+ whole →
    readValue allowConstants room fuel offset codes = .ok part → property room part.value
  items : ∀ room taken offset codes part, codes <:+ whole → (∀ v ∈ taken, property room v) →
    readItems allowConstants room fuel taken offset codes = .ok part →
    property (room + 1) part.value
  fields : ∀ room taken offset codes part, codes <:+ whole → Entries.TextKeys taken →
    Entries.Distinct taken → (∀ e ∈ taken, property room e.2) →
    readFields allowConstants room fuel taken offset codes = .ok part →
    property (room + 1) part.value

variable {allowConstants : Bool} {property : Nat → Value → Prop} {fuel room offset : Nat}
  {whole codes : List Nat} {part : Part Value}

theorem Hereditary.value (h : Hereditary allowConstants whole property)
    (hreads : Reads allowConstants whole property fuel) (hcodes : codes <:+ whole)
    (hread : readValue allowConstants room (fuel + 1) offset codes = .ok part) :
    property room part.value := by
  unfold readValue at hread
  split at hread
  · cases hread
  · split at hread
    · cases hread
      exact h.text _ _
    · cases hread
  · next rest =>
    split at hread
    · cases hread
    · next hroom =>
      obtain ⟨room, rfl⟩ := Nat.exists_eq_succ_of_ne_zero hroom
      split at hread
      · cases hread
        exact h.list room [] (List.forall_mem_nil _)
      · next hskip =>
        have hrest : rest <:+ whole := (List.suffix_cons _ _).trans hcodes
        exact hreads.items _ _ _ _ _ ((suffix_of_skipSpaces hskip).trans hrest)
          (List.forall_mem_nil _) hread
  · next rest =>
    split at hread
    · cases hread
    · next hroom =>
      obtain ⟨room, rfl⟩ := Nat.exists_eq_succ_of_ne_zero hroom
      split at hread
      · cases hread
        exact h.map room [] (List.forall_mem_nil _) List.Pairwise.nil (List.forall_mem_nil _)
      · next hskip =>
        have hrest : rest <:+ whole := (List.suffix_cons _ _).trans hcodes
        exact hreads.fields _ _ _ _ _ ((suffix_of_skipSpaces hskip).trans hrest)
          (List.forall_mem_nil _) List.Pairwise.nil (List.forall_mem_nil _) hread
  · exact h.atom _ _ _ hcodes (isAtom_of_readAtom hread)

theorem Hereditary.items (h : Hereditary allowConstants whole property)
    (hreads : Reads allowConstants whole property fuel) (hcodes : codes <:+ whole)
    {taken : List Value} (htaken : ∀ v ∈ taken, property room v)
    (hread : readItems allowConstants room (fuel + 1) taken offset codes = .ok part) :
    property (room + 1) part.value := by
  unfold readItems at hread
  split at hread
  · cases hread
  next item hitem =>
  have hall : ∀ v ∈ item.value :: taken, property room v :=
    List.forall_mem_cons.mpr ⟨hreads.value _ _ _ _ hcodes hitem, htaken⟩
  have hrest : item.rest <:+ whole :=
    (((ReadsDue.all fuel).value room offset codes).suffix_of_ok hitem).trans hcodes
  split at hread
  · cases hread
    exact h.list _ _ fun v hv => hall v (List.mem_reverse.mp hv)
  · next hskip =>
    have hbehind := (suffix_of_skipSpaces_cons hskip).trans hrest
    exact hreads.items _ _ _ _ _ ((List.dropWhile_suffix _).trans hbehind) hall hread
  · cases hread

theorem Hereditary.fields (h : Hereditary allowConstants whole property)
    (hreads : Reads allowConstants whole property fuel) (hcodes : codes <:+ whole)
    {taken : Entries} (htexts : taken.TextKeys) (hdistinct : taken.Distinct)
    (htaken : ∀ e ∈ taken, property room e.2)
    (hread : readFields allowConstants room (fuel + 1) taken offset codes = .ok part) :
    property (room + 1) part.value := by
  unfold readFields at hread
  split at hread
  case h_2 => cases hread
  split at hread
  · cases hread
  next rest _ key hkey =>
  have hkeyRest : key.rest <:+ whole := by
    have hdue : IsDue room rest (readString offset fuel [] (offset + 1) rest) :=
      isDue_readString []
    have hstring := hdue.suffix_of_ok hkey
    exact hstring.trans ((List.suffix_cons _ _).trans hcodes)
  split at hread
  case h_2 => cases hread
  next hskip =>
  have hvalue := (List.dropWhile_suffix isSpace).trans
    ((suffix_of_skipSpaces_cons hskip).trans hkeyRest)
  dsimp only at hread
  split at hread
  · cases hread
  next field hfield =>
  have hall : ∀ e ∈ taken.set (.text key.value) field.value, property room e.2 :=
    Entries.forall_values_set htaken (hreads.value _ _ _ _ hvalue hfield) _
  have hrest : field.rest <:+ whole :=
    (((ReadsDue.all fuel).value room _ _).suffix_of_ok hfield).trans hvalue
  have htexts := htexts.set key.value field.value
  have hdistinct := hdistinct.set (.text key.value) field.value
  split at hread
  · cases hread
    exact h.map _ _ htexts hdistinct hall
  · next hskip =>
    have hbehind := (suffix_of_skipSpaces_cons hskip).trans hrest
    exact hreads.fields _ _ _ _ _ ((List.dropWhile_suffix _).trans hbehind) htexts hdistinct hall
      hread
  · cases hread

/-- A hereditary property holds of whatever a reader makes. -/
theorem Hereditary.reads (h : Hereditary allowConstants whole property) (fuel : Nat) :
    Reads allowConstants whole property fuel := by
  -- the three parts call each other, each time with less fuel
  induction fuel with
  | zero =>
    refine ⟨fun _ _ _ _ _ hread => ?_, fun _ _ _ _ _ _ _ hread => ?_,
      fun _ _ _ _ _ _ _ _ _ hread => ?_⟩
    · unfold readValue at hread
      cases hread
    · unfold readItems at hread
      cases hread
    · unfold readFields at hread
      cases hread
  | succ fuel ih =>
    exact ⟨fun _ _ _ _ hcodes hread => h.value ih hcodes hread,
      fun _ _ _ _ _ hcodes htaken hread => h.items ih hcodes htaken hread,
      fun _ _ _ _ _ hcodes htexts hdistinct htaken hread =>
        h.fields ih hcodes htexts hdistinct htaken hread⟩

theorem Hereditary.readCodes (h : Hereditary allowConstants codes property) {v : Value}
    (hread : readCodes allowConstants codes = .ok v) : property depthLimit v := by
  unfold Json.readCodes at hread
  split at hread
  · cases hread
  dsimp only at hread
  split at hread
  · cases hread
  next part hpart =>
  split at hread
  · cases hread
    exact (h.reads _).value _ _ _ _ (List.dropWhile_suffix _) hpart
  · cases hread

theorem Hereditary.read {t : Text} (h : Hereditary allowConstants t.codes property) {v : Value}
    (hread : read allowConstants t = .ok v) : property depthLimit v := by
  unfold Json.read at hread
  split at hread <;> cases hread
  next hcodes => exact h.readCodes hcodes

end Json

/-- The values of JSON texts: there are no bytes among them, the keys of mappings are texts, and
none comes again. -/
inductive Value.IsJson : Value → Prop
  | null : IsJson .null
  | bool (b : Bool) : IsJson (.bool b)
  | int (i : Int) : IsJson (.int i)
  | float (x : Binary64) : IsJson (.float x)
  | text (t : Text) : IsJson (.text t)
  | list {items : List Value} (hitems : ∀ v ∈ items, IsJson v) : IsJson (.list items)
  | map {entries : Entries} (htexts : entries.TextKeys) (hdistinct : entries.Distinct)
    (hvalues : ∀ e ∈ entries, IsJson e.2) : IsJson (.map entries)

namespace Json

theorem IsAtom.isJson {allowConstants : Bool} {codes : List Nat} {v : Value}
    (h : IsAtom allowConstants codes v) : v.IsJson := by
  cases h with
  | null => exact .null
  | bool b => exact .bool b
  | int => exact .int _
  | constant => exact .float _
  | decimal => exact .float _

theorem hereditary_isJson (allowConstants : Bool) (whole : List Nat) :
    Hereditary allowConstants whole fun _ => Value.IsJson where
  text _ := .text
  atom _ _ _ _ h := h.isJson
  list _ _ h := .list h
  map _ _ htexts hdistinct h := .map htexts hdistinct h

/-- What a text is read to is a value of JSON. -/
theorem isJson_of_read {allowConstants : Bool} {t : Text} {v : Value}
    (h : read allowConstants t = .ok v) : v.IsJson :=
  (hereditary_isJson allowConstants t.codes).read h

end Json

end ScanCatalog
