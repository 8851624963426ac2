import ScanCatalog.Proofs.Action.Outcome
import ScanCatalog.Routing.Split

/-!
# Owners of fields

A field is owned by the entry with the longest key that is its path or lies above it. A router
asks for the owner of the first part of a filter only, so the fields of a nested mapping go where
that part goes. They are owned by an entry of the same backend, unless a longer entry, for a key
below that part, gives them away.

## Main definitions

* `Filter.HasLeaf`: the paths of the fields that a filter asks for;
* `RoutingEntry.IsBelow`: an entry for a key below another.

## Main statements

* `RoutingTable.owner?_eq_some`, `RoutingTable.owner?_eq_none`: the entry that owns a field;
* `RoutingTable.fault?_eq_none_iff`: which entries make a table;
* `RoutingTable.owner?_below`: the owner of a field below another;
* `RoutingTable.owner?_builtIn`: the owners of the built-in table;
* `Router.route_leaves`: the owners of the fields that go to a backend.
-/

namespace ScanCatalog

/-! ### Entries that own a path -/

/-- The entry is for a key below another. -/
def RoutingEntry.IsBelow (entry : RoutingEntry) (key : Text) : Prop :=
  entry.key.startsWith (key ++ ".") = true

namespace RoutingEntry

variable {entry other : RoutingEntry} {path key : Text}

/-- An entry owns a path if its key and the path, each with a dot at its end, agree as far as the
key goes. -/
theorem owns_iff_begins :
    entry.owns path = true ↔ (entry.key ++ ".").codes <+: (path ++ ".").codes := by
  unfold owns Text.startsWith
  rw [Bool.or_eq_true, beq_iff_eq, List.isPrefixOf_iff_prefix]
  refine Iff.trans (or_congr_left ?_) List.prefix_concat_iff.symm
  constructor
  · rintro rfl
    rfl
  · intro h
    exact congrArg Text.mk (List.append_cancel_right h).symm

/-- Entries with keys of one length that own one path have the same key. -/
theorem key_eq_of_owns (h : entry.owns path = true) (hother : other.owns path = true)
    (hlength : entry.key.length = other.key.length) : entry.key = other.key := by
  have hdotted : (entry.key ++ ".").codes.length = (other.key ++ ".").codes.length := by
    simpa using (show entry.key.codes.length = other.key.codes.length from hlength)
  have hcodes : (entry.key ++ ".").codes = (other.key ++ ".").codes :=
    (List.prefix_of_prefix_length_le (owns_iff_begins.mp h) (owns_iff_begins.mp hother)
      (Nat.le_of_eq hdotted)).eq_of_length hdotted
  exact congrArg Text.mk (List.append_cancel_right hcodes)

theorem begins_dotted (key rest : Text) :
    (key ++ ".").codes <+: (key ++ "." ++ rest ++ ".").codes :=
  ⟨(rest ++ ".").codes, (List.append_assoc ..).symm⟩

/-- What owns a path owns the paths below it. -/
theorem owns_below (h : entry.owns key = true) (rest : Text) :
    entry.owns (key ++ "." ++ rest) = true :=
  owns_iff_begins.mpr ((owns_iff_begins.mp h).trans (begins_dotted key rest))

/-- What owns a path below another owns that one too, or is an entry for a key below it. -/
theorem owns_or_isBelow {rest : Text} (h : entry.owns (key ++ "." ++ rest) = true) :
    entry.owns key = true ∨ entry.IsBelow key := by
  rcases List.prefix_or_prefix_of_prefix (owns_iff_begins.mp h) (begins_dotted key rest)
    with hshort | hlong
  · exact .inl (owns_iff_begins.mpr hshort)
  rcases List.prefix_concat_iff.mp hlong with heq | hbelow
  · exact .inl (owns_iff_begins.mpr (heq ▸ List.prefix_rfl))
  · exact .inr (List.isPrefixOf_iff_prefix.mpr hbelow)

end RoutingEntry

namespace RoutingTable

variable {table : RoutingTable} {service path key : Text} {entry : RoutingEntry}

/-! ### The longest key -/

/-- The best of some entries is one of them, and no key is longer. -/
theorem foldl_better_eq_some {entries : List RoutingEntry} {best : Option RoutingEntry}
    (h : entries.foldl better best = some entry) :
    (best = some entry ∨ entry ∈ entries) ∧
      (∀ b, best = some b → b.key.length ≤ entry.key.length) ∧
      ∀ e ∈ entries, e.key.length ≤ entry.key.length := by
  -- the best so far is a part of the statement, since each step can replace it
  induction entries generalizing best with
  | nil =>
    cases h
    exact ⟨.inl rfl, fun b hb => by cases hb; exact Nat.le_refl _, nofun⟩
  | cons e rest ih =>
    obtain ⟨hmem, hbest, hrest⟩ := ih h
    have hstep : ∃ b, better best e = some b ∧ (best = some b ∨ b = e) ∧
        (∀ c, best = some c → c.key.length ≤ b.key.length) ∧ e.key.length ≤ b.key.length := by
      cases best with
      | none => exact ⟨e, rfl, .inr rfl, nofun, Nat.le_refl _⟩
      | some c =>
        unfold better
        by_cases hlonger : c.key.length < e.key.length
        · refine ⟨e, if_pos hlonger, .inr rfl, fun _ hc => ?_, Nat.le_refl _⟩
          cases hc
          exact Nat.le_of_lt hlonger
        · refine ⟨c, if_neg hlonger, .inl rfl, fun _ hc => ?_, Nat.not_lt.mp hlonger⟩
          cases hc
          exact Nat.le_refl _
    obtain ⟨b, hb, hfrom, hlonger, hlength⟩ := hstep
    have hle := hbest b hb
    refine ⟨?_, fun c hc => Nat.le_trans (hlonger c hc) hle,
      List.forall_mem_cons.mpr ⟨Nat.le_trans hlength hle, hrest⟩⟩
    rcases hmem with hmem | hmem
    · cases hb.symm.trans hmem
      exact hfrom.imp id fun heq => List.mem_cons.mpr (.inl heq)
    · exact .inr (List.mem_cons_of_mem _ hmem)

theorem foldl_better_eq_none {entries : List RoutingEntry} {best : Option RoutingEntry}
    (h : entries.foldl better best = none) : best = none ∧ entries = [] := by
  induction entries generalizing best with
  | nil => exact ⟨h, rfl⟩
  | cons e rest ih =>
    obtain ⟨hbetter, -⟩ := ih h
    unfold better at hbetter
    split at hbetter
    · cases hbetter
    · split at hbetter <;> cases hbetter

/-- The owner of a field is an entry of the service that owns it, and none with a longer key
does. -/
theorem owner?_eq_some (h : table.owner? service path = some entry) :
    entry ∈ table.entries ∧ entry.service = service ∧ entry.owns path = true ∧
      ∀ e ∈ table.entries, e.service = service → e.owns path = true →
        e.key.length ≤ entry.key.length := by
  obtain ⟨hmem, -, hlongest⟩ := foldl_better_eq_some h
  have hmem := hmem.resolve_left nofun
  obtain ⟨hentry, hclaims⟩ := List.mem_filter.mp hmem
  obtain ⟨hservice, howns⟩ := Bool.and_eq_true_iff.mp hclaims
  refine ⟨hentry, beq_iff_eq.mp hservice, howns, fun e he hservice howns => hlongest e ?_⟩
  exact List.mem_filter.mpr ⟨he, Bool.and_eq_true_iff.mpr ⟨beq_iff_eq.mpr hservice, howns⟩⟩

/-- A field without an owner is claimed by no entry of the service. -/
theorem owner?_eq_none (h : table.owner? service path = none) :
    ∀ e ∈ table.entries, e.service = service → e.owns path = false := by
  intro e he hservice
  obtain ⟨-, hempty⟩ := foldl_better_eq_none h
  have hclaims := List.filter_eq_nil_iff.mp hempty e he
  rwa [hservice, beq_self_eq_true, Bool.true_and, Bool.not_eq_true] at hclaims

/-! ### Entries without contradictions -/

/-- Entries for the same key of a service name the same backend. -/
def Agree (entries : List RoutingEntry) : Prop :=
  ∀ e ∈ entries, ∀ f ∈ entries, e.service = f.service → e.key = f.key → e.backend = f.backend

variable {before entries : List RoutingEntry}

theorem backend_eq_of_entryFault? (hbefore : Agree before) (h : entryFault? before entry = none) :
    ∀ e ∈ before, e.service = entry.service → e.key = entry.key → e.backend = entry.backend := by
  intro e he hservice hkey
  unfold entryFault? at h
  split at h
  · cases h
  split at h
  · next hfirst =>
    have hnot := List.find?_eq_none.mp hfirst e he
    simp [hservice, hkey] at hnot
  · next first hfirst =>
    split at h
    · next hbackend =>
      have hclaims := List.find?_some hfirst
      rw [Bool.and_eq_true, beq_iff_eq, beq_iff_eq] at hclaims
      rw [← hbackend]
      exact hbefore e he first (List.mem_of_find?_eq_some hfirst)
        (hservice.trans hclaims.1.symm) (hkey.trans hclaims.2.symm)
    · cases h

/-- An entry is at fault if it is empty, or contradicts one before it. -/
theorem entryFault?_eq_none_iff (hbefore : Agree before) :
    entryFault? before entry = none ↔ entry.key.isEmpty = false ∧
      ∀ e ∈ before, e.service = entry.service → e.key = entry.key → e.backend = entry.backend := by
  constructor
  · intro h
    refine ⟨?_, backend_eq_of_entryFault? hbefore h⟩
    cases hempty : entry.key.isEmpty with
    | false => rfl
    | true => simp [entryFault?, hempty] at h
  · rintro ⟨hfilled, hsame⟩
    cases hfirst : firstFor? before entry.service entry.key with
    | none => simp [entryFault?, hfilled, hfirst]
    | some first =>
      have hclaims := List.find?_some hfirst
      simp only [Bool.and_eq_true, beq_iff_eq] at hclaims
      have hbackend := hsame first (List.mem_of_find?_eq_some hfirst) hclaims.1 hclaims.2
      simp [entryFault?, hfilled, hfirst, hbackend]

theorem agree_append_singleton (hbefore : Agree before)
    (h : ∀ e ∈ before, e.service = entry.service → e.key = entry.key → e.backend = entry.backend) :
    Agree (before ++ [entry]) := by
  intro e he f hf hservice hkey
  rw [List.mem_append, List.mem_singleton] at he hf
  rcases he with he | rfl <;> rcases hf with hf | rfl
  · exact hbefore e he f hf hservice hkey
  · exact h e he hservice hkey
  · exact (h f hf hservice.symm hkey.symm).symm
  · rfl

/-- Further entries have no fault just if none is empty and all agree. -/
theorem faultFrom?_eq_none_iff (hbefore : Agree before) :
    faultFrom? before entries = none ↔
      (∀ e ∈ entries, e.key.isEmpty = false) ∧ Agree (before ++ entries) := by
  induction entries generalizing before with
  | nil => simp [faultFrom?, hbefore]
  | cons entry rest ih =>
    constructor
    · intro h
      have hentry : entryFault? before entry = none := by
        cases hfault : entryFault? before entry with
        | none => rfl
        | some fault => simp [faultFrom?, hfault] at h
      obtain ⟨hfilled, hsame⟩ := (entryFault?_eq_none_iff hbefore).mp hentry
      simp only [faultFrom?, hentry] at h
      obtain ⟨hrest, hagree⟩ := (ih (agree_append_singleton hbefore hsame)).mp h
      exact ⟨List.forall_mem_cons.mpr ⟨hfilled, hrest⟩, by simpa using hagree⟩
    · rintro ⟨hfilled, hagree⟩
      obtain ⟨hentryFilled, hrest⟩ := List.forall_mem_cons.mp hfilled
      have hsame : ∀ e ∈ before, e.service = entry.service → e.key = entry.key →
          e.backend = entry.backend := fun e he =>
        hagree e (List.mem_append_left _ he) entry (by simp)
      simp only [faultFrom?, (entryFault?_eq_none_iff hbefore).mpr ⟨hentryFilled, hsame⟩]
      exact (ih (agree_append_singleton hbefore hsame)).mpr ⟨hrest, by simpa using hagree⟩

/-- Entries have no fault just if none is empty and no two contradict each other. -/
theorem fault?_eq_none_iff : fault? entries = none ↔
    (∀ e ∈ entries, e.key.isEmpty = false) ∧ Agree entries :=
  faultFrom?_eq_none_iff fun _ he => absurd he List.not_mem_nil

/-- No two entries of a table contradict each other. -/
theorem agree (table : RoutingTable) : Agree table.entries :=
  (fault?_eq_none_iff.mp table.sound).2

/-- Entries of a table that own one path by keys of one length are the same. -/
theorem eq_of_owns {e f : RoutingEntry} (he : e ∈ table.entries) (hf : f ∈ table.entries)
    (hservice : e.service = f.service) (howns : e.owns path = true) (howns' : f.owns path = true)
    (hlength : e.key.length = f.key.length) : e = f := by
  have hkey := RoutingEntry.key_eq_of_owns howns howns' hlength
  have hbackend := table.agree e he f hf hservice hkey
  cases e
  cases f
  simp_all

/-! ### Fields below others -/

/-- A field below another has the same owner, unless an entry for a key below the other one owns
it. -/
theorem owner?_below {first : RoutingEntry} (hfirst : table.owner? service key = some first)
    (rest : Text) :
    ∃ owner, table.owner? service (key ++ "." ++ rest) = some owner ∧
      (owner = first ∨ owner.IsBelow key) := by
  obtain ⟨hmem, hservice, howns, hlongest⟩ := owner?_eq_some hfirst
  cases howner : table.owner? service (key ++ "." ++ rest) with
  | none =>
    have hnot := owner?_eq_none howner first hmem hservice
    rw [RoutingEntry.owns_below howns rest] at hnot
    cases hnot
  | some owner =>
    obtain ⟨hmem', hservice', howns', hlongest'⟩ := owner?_eq_some howner
    refine ⟨owner, rfl, (RoutingEntry.owns_or_isBelow howns').imp (fun hkey => ?_) id⟩
    have hle := hlongest owner hmem' hservice' hkey
    have hge := hlongest' first hmem hservice (RoutingEntry.owns_below howns rest)
    exact eq_of_owns hmem' hmem (hservice'.trans hservice.symm) hkey howns (Nat.le_antisymm hle hge)

/-! ### The built-in table -/

/-- The entry of the motors in the built-in table of a service. -/
def motorsEntry (service : Text) : RoutingEntry := ⟨service, "motors", .sql⟩

theorem mem_builtIn (h : entry ∈ (builtIn service).entries) :
    entry.key ∈ documentKeys ∧ entry.backend = .mongodb ∨ entry = motorsEntry service := by
  rcases List.mem_append.mp (show entry ∈ builtInEntries service from h) with h | h
  · obtain ⟨key, hkey, rfl⟩ := List.mem_map.mp h
    exact .inl ⟨hkey, rfl⟩
  · obtain ⟨key, hkey, rfl⟩ := List.mem_map.mp h
    cases List.mem_singleton.mp hkey
    exact .inr rfl

/-- The built-in table gives the motors to the motor tables, and no other field. -/
theorem owner?_builtIn (service path : Text) :
    ((motorsEntry service).owns path = true →
      (builtIn service).owner? service path = some (motorsEntry service)) ∧
    ((motorsEntry service).owns path = false →
      ∀ entry, (builtIn service).owner? service path = some entry → entry.backend = .mongodb) := by
  have hmotors : motorsEntry service ∈ (builtIn service).entries :=
    List.mem_append_right _ (List.mem_singleton_self _)
  constructor
  · intro howns
    cases howner : (builtIn service).owner? service path with
    | none =>
      rw [owner?_eq_none howner _ hmotors rfl] at howns
      cases howns
    | some entry =>
      obtain ⟨hmem, -, howns', -⟩ := owner?_eq_some howner
      rcases mem_builtIn hmem with ⟨hkey, -⟩ | rfl
      · -- the key of a document field does not begin as that of the motors does
        have hapart : ∀ key ∈ documentKeys,
            (key ++ ".").codes.isPrefixOf ("motors" ++ "." : Text).codes = false ∧
              ("motors" ++ "." : Text).codes.isPrefixOf (key ++ ".").codes = false := by
          decide
        obtain ⟨hbefore, hafter⟩ := hapart _ hkey
        rcases List.prefix_or_prefix_of_prefix (RoutingEntry.owns_iff_begins.mp howns')
          (RoutingEntry.owns_iff_begins.mp howns) with h | h
        · exact absurd (List.isPrefixOf_iff_prefix.mpr h) (Bool.eq_false_iff.mp hbefore)
        · exact absurd (List.isPrefixOf_iff_prefix.mpr h) (Bool.eq_false_iff.mp hafter)
      · rfl
  · intro howns entry howner
    obtain ⟨hmem, -, howns', -⟩ := owner?_eq_some howner
    rcases mem_builtIn hmem with ⟨-, hbackend⟩ | rfl
    · exact hbackend
    · rw [howns'] at howns
      cases howns

end RoutingTable

/-! ### Fields of a filter -/

namespace Filter

/-- The fields of a filter for a mapping; other filters have none. -/
def fields : Filter → List (Text × Filter)
  | .nested _ fields => fields
  | _ => []

/-- The paths of the fields that a filter at a path asks for: the path itself, or those of the
fields of a mapping. -/
inductive HasLeaf : Text → Filter → Text → Prop
  | leaf {path : Text} {filter : Filter} (h : filter.fields = []) : HasLeaf path filter path
  | field {path leaf : Text} {filter : Filter} {field : Text × Filter}
    (hfield : field ∈ filter.fields) (h : HasLeaf (path ++ "." ++ field.1) field.2 leaf) :
    HasLeaf path filter leaf

/-- A filter asks for its own path, or for paths below it. -/
theorem HasLeaf.eq_or_below {path leaf : Text} {filter : Filter} (h : HasLeaf path filter leaf) :
    leaf = path ∨ ∃ rest, leaf = path ++ "." ++ rest := by
  induction h with
  | leaf => exact .inl rfl
  | @field path leaf filter field _ _ ih =>
    rcases ih with rfl | ⟨rest, rfl⟩
    · exact .inr ⟨field.1, rfl⟩
    · exact .inr ⟨field.1 ++ "." ++ rest, congrArg Text.mk (by simp)⟩

end Filter

/-! ### Routes -/

/-- A backend gets the terms whose keys it owns. -/
theorem RoutingTable.mem_split {table : RoutingTable} {service : Text} {terms : Terms}
    {backend : Backend} {term : Text × Filter} :
    term ∈ (table.split service terms).termsFor backend ↔
      term ∈ terms ∧
        ∃ first, table.owner? service term.1 = some first ∧ first.backend = backend := by
  have htermsFor : (table.split service terms).termsFor backend =
      table.termsOf service backend terms := by
    cases backend <;> rfl
  rw [htermsFor]
  unfold RoutingTable.termsOf
  rw [List.mem_filter, Option.any_eq_true]
  simp only [beq_iff_eq]

theorem Router.route_eq_ok {router : Router} {service : Text} {expression : Value} {routed : Routed}
    (h : router.route service expression = .ok routed) :
    ∃ terms, Terms.ofValue expression = .ok terms ∧ routed = router.table.split service terms := by
  unfold Router.route at h
  obtain ⟨terms, hterms, h⟩ := Outcome.bind_eq_ok.mp h
  rw [liftFilter_eq_ok] at hterms
  dsimp only at h
  split at h
  · cases h
  · cases h
    exact ⟨terms, hterms, rfl⟩

namespace Router

/-- Of an expression that is accepted each term goes to the backend that owns its key, and to no
other. Each field that the term asks for has the same owner as the key, unless it is written
nested and an entry for a key below that of the term owns it. -/
theorem route_leaves {router : Router} {service : Text} {expression : Value} {routed : Routed}
    (h : router.route service expression = .ok routed) :
    ∃ terms, Terms.ofValue expression = .ok terms ∧ ∀ backend term,
      (term ∈ routed.termsFor backend ↔ term ∈ terms ∧
        ∃ first, router.table.owner? service term.1 = some first ∧ first.backend = backend) ∧
      (term ∈ routed.termsFor backend → ∀ leaf, Filter.HasLeaf term.1 term.2 leaf →
        ∃ first owner, router.table.owner? service term.1 = some first ∧ first.backend = backend ∧
          router.table.owner? service leaf = some owner ∧
          (owner = first ∨ leaf ≠ term.1 ∧ owner.IsBelow term.1)) := by
  obtain ⟨terms, hterms, rfl⟩ := route_eq_ok h
  refine ⟨terms, hterms, fun backend term => ⟨RoutingTable.mem_split, fun hterm leaf hleaf => ?_⟩⟩
  obtain ⟨-, first, hfirst, hbackend⟩ := RoutingTable.mem_split.mp hterm
  -- at the key itself the router looks where the owner is; below it, it does not look again
  by_cases hsame : leaf = term.1
  · exact ⟨first, first, hfirst, hbackend, hsame ▸ hfirst, .inl rfl⟩
  · obtain ⟨rest, rfl⟩ := hleaf.eq_or_below.resolve_left hsame
    obtain ⟨owner, howner, hcases⟩ := RoutingTable.owner?_below hfirst rest
    exact ⟨first, owner, hfirst, hbackend, howner, hcases.imp id fun hbelow => ⟨hsame, hbelow⟩⟩

/-! ### A motor that the documents own -/

/-- The motors belong to the motor tables, but for one of them. -/
def exceptSamx : Router :=
  ⟨⟨[⟨"SpecScans", "motors", .sql⟩, ⟨"SpecScans", "motors.samx", .mongodb⟩], by decide⟩, false⟩

/-- A filter for that motor, as a field of the motors. -/
def nestedSamx : Value := .map [("motors", .map [("samx", .int 1)])]

theorem nestedSamx_routed : exceptSamx.route "SpecScans" nestedSamx =
    .ok ⟨[("motors", .nested (.map [("samx", .int 1)]) [("samx", .literal (.int 1))])], [], []⟩ :=
  rfl

theorem nestedSamx_leaf :
    Filter.HasLeaf "motors" (.nested (.map [("samx", .int 1)]) [("samx", .literal (.int 1))])
      "motors.samx" :=
  .field (List.mem_singleton_self _) (.leaf rfl)

theorem route_leaves_nestedSamx :
    ∃ first owner : RoutingEntry, first.backend = .sql ∧
      exceptSamx.table.owner? "SpecScans" "motors.samx" = some owner ∧
      (owner = first ∨ ("motors.samx" : Text) ≠ "motors" ∧ owner.IsBelow "motors") := by
  obtain ⟨terms, -, hroute⟩ := route_leaves nestedSamx_routed
  obtain ⟨first, owner, -, hbackend, howner, hcases⟩ :=
    (hroute .sql _).2 (List.mem_singleton_self _) "motors.samx" nestedSamx_leaf
  exact ⟨first, owner, hbackend, howner, hcases⟩

/-- A field that is written nested goes to the motor tables, although the documents own it. If
it is written dotted it goes to the documents. -/
theorem nestedSamx_misrouted :
    (∃ routed, exceptSamx.route "SpecScans" nestedSamx = .ok routed ∧
      ∃ term ∈ routed.termsFor .sql, Filter.HasLeaf term.1 term.2 "motors.samx" ∧
        exceptSamx.table.owner? "SpecScans" "motors.samx" =
          some ⟨"SpecScans", "motors.samx", .mongodb⟩) ∧
      exceptSamx.route "SpecScans" (.map [("motors.samx", .int 1)]) =
        .ok ⟨[], [("motors.samx", .literal (.int 1))], []⟩ :=
  ⟨⟨_, nestedSamx_routed, _, List.mem_singleton_self _, nestedSamx_leaf, by decide⟩, rfl⟩

end Router

end ScanCatalog
