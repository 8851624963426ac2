import ScanCatalog.Proofs.Routing.Owners
import ScanCatalog.Routing.ServiceMap

/-!
# Assignments of keys to backends

Who owns a field is a matter of the assignments of a table, as a set: neither their order nor
how often they come counts, nor the shape of the service map that they are written in. The
owner has the longest key, and of two keys of one length that cover a path there is only one.

## Main definitions

* `RoutingEntry.Covers`, `RoutingEntry.IsLongest`: the fields of an entry, and the one that counts;
* `Value.Assigns`, `Value.IsServiceMap`: what a service map writes, and its two shapes;
* `Value.Writes`: service maps that write some assignments.

## Main statements

* `RoutingTable.exists_ofEntries_of_mem_iff`: other lists of entries that make a table;
* `RoutingTable.owner?_eq_some_iff`, `RoutingTable.owner?_eq_none_iff`: the owner of a field;
* `RoutingTable.ofValue_of_isServiceMap`: the entries of a service map;
* `RoutingTable.owners_of_assignments`: tables with the same assignments have the same owners.
-/

namespace ScanCatalog

/-! ### Entries that make a table -/

namespace RoutingTable

variable {entries : List RoutingEntry}

theorem exists_ofEntries_iff : (∃ table, ofEntries entries = .ok table) ↔
    (∀ e ∈ entries, e.key.isEmpty = false) ∧ Agree entries := by
  rw [← fault?_eq_none_iff]
  constructor
  · rintro ⟨table, h⟩
    rw [← entries_of_ofEntries h]
    exact table.sound
  · intro h
    refine ⟨⟨entries, h⟩, ?_⟩
    simp only [ofEntries]
    split
    · rfl
    · next fault hfault => simp [h] at hfault

/-- Whether entries make a table is a matter of which there are. -/
theorem exists_ofEntries_of_mem_iff {others : List RoutingEntry} {table : RoutingTable}
    (h : ofEntries entries = .ok table) (hmem : ∀ e, e ∈ others ↔ e ∈ entries) :
    ∃ other, ofEntries others = .ok other := by
  obtain ⟨hfilled, hagree⟩ := exists_ofEntries_iff.mp ⟨table, h⟩
  refine exists_ofEntries_iff.mpr ⟨fun e he => hfilled e ((hmem e).mp he), ?_⟩
  intro e he f hf
  exact hagree e ((hmem e).mp he) f ((hmem f).mp hf)

end RoutingTable

/-! ### The longest key -/

/-- The fields of an entry: that of its key, and those below it. -/
def RoutingEntry.Covers (entry : RoutingEntry) (path : Text) : Prop :=
  path = entry.key ∨ ∃ rest, path = entry.key ++ "." ++ rest

/-- The entry of a service for a field whose key is longer than all others of such entries. -/
structure RoutingEntry.IsLongest (owner : RoutingEntry) (entries : List RoutingEntry)
    (service path : Text) : Prop where
  mem : owner ∈ entries
  inService : owner.service = service
  covers : owner.Covers path
  longest : ∀ e ∈ entries, e.service = service → e.Covers path →
    e.key = owner.key ∨ e.key.length < owner.key.length

namespace RoutingTable

variable {table other : RoutingTable} {service path : Text} {owner : RoutingEntry}

theorem owns_iff_covers : owner.owns path = true ↔ owner.Covers path := by
  simp [RoutingEntry.owns, RoutingEntry.Covers, Text.startsWith_iff]

theorem owner?_eq_none_iff : table.owner? service path = none ↔
    ∀ e ∈ table.entries, e.service = service → ¬ e.Covers path := by
  constructor
  · intro h e he hservice
    rw [← owns_iff_covers, owner?_eq_none h e he hservice]
    exact Bool.false_ne_true
  · intro h
    cases howner : table.owner? service path with
    | none => rfl
    | some owner =>
      obtain ⟨hmem, hservice, howns, -⟩ := owner?_eq_some howner
      exact absurd (owns_iff_covers.mp howns) (h owner hmem hservice)

/-- The owner of a field is the entry with the longest key, and no other has a key as long. -/
theorem owner?_eq_some_iff : table.owner? service path = some owner ↔
    owner.IsLongest table.entries service path := by
  constructor
  · intro h
    obtain ⟨hmem, hservice, howns, hlongest⟩ := owner?_eq_some h
    refine ⟨hmem, hservice, owns_iff_covers.mp howns, fun e he heservice hcovers => ?_⟩
    have hecovers := owns_iff_covers.mpr hcovers
    rcases Nat.eq_or_lt_of_le (hlongest e he heservice hecovers) with hlength | hlt
    · exact .inl (RoutingEntry.key_eq_of_owns hecovers howns hlength)
    · exact .inr hlt
  · intro h
    cases howner : table.owner? service path with
    | none => exact absurd h.covers (owner?_eq_none_iff.mp howner owner h.mem h.inService)
    | some found =>
      obtain ⟨hmem, hservice, howns, hlongest⟩ := owner?_eq_some howner
      have hcovers := owns_iff_covers.mpr h.covers
      have hle := hlongest owner h.mem h.inService hcovers
      have hlength : owner.key.length = found.key.length := by
        rcases h.longest found hmem hservice (owns_iff_covers.mp howns) with hkey | hlt
        · rw [hkey]
        · omega
      rw [eq_of_owns h.mem hmem (h.inService.trans hservice.symm) hcovers howns hlength]

/-- Tables with the same entries, in whatever order, have the same owners. -/
theorem owner?_congr (hmem : ∀ e, e ∈ other.entries ↔ e ∈ table.entries) (service path : Text) :
    other.owner? service path = table.owner? service path := by
  refine Option.ext fun owner => ?_
  rw [owner?_eq_some_iff, owner?_eq_some_iff]
  constructor
  · intro h
    exact ⟨(hmem owner).mp h.mem, h.inService, h.covers, fun e he => h.longest e ((hmem e).mpr he)⟩
  · intro h
    exact ⟨(hmem owner).mpr h.mem, h.inService, h.covers, fun e he => h.longest e ((hmem e).mp he)⟩

end RoutingTable

/-! ### Service maps -/

/-- A value names a backend by one of its aliases, in any case and between blanks. -/
def Value.Names (name : Value) (backend : Backend) : Prop :=
  (name.display.strip.lower, backend) ∈ Backend.aliases

instance Value.decidableNames (name : Value) (backend : Backend) :
    Decidable (name.Names backend) :=
  inferInstanceAs (Decidable (_ ∈ _))

/-- A mapping of the fields of an entry to their values describes the entry. -/
inductive Value.Describes : Value → RoutingEntry → Prop
  | fields {fields : Entries} {service key name : Value} {backend : Backend}
    (hservice : fields.get? "service" = some service) (hkey : fields.get? "key" = some key)
    (hname : fields.get? "backend" = some name) (hbackend : name.Names backend) :
    Describes (.map fields) ⟨service.display, key.display, backend⟩

/-- The assignments that a service map writes: each item of a list describes one, and so does
each key in a list under the name of its backend, under its service. -/
inductive Value.Assigns : Value → RoutingEntry → Prop
  | item {items : List Value} {item : Value} {entry : RoutingEntry} (hitem : item ∈ items)
    (h : item.Describes entry) : Assigns (.list items) entry
  | key {services backends : Entries} {service name key : Value} {keys : List Value}
    {backend : Backend} (hservice : (service, .map backends) ∈ services)
    (hname : (name, .list keys) ∈ backends) (hbackend : name.Names backend) (hkey : key ∈ keys) :
    Assigns (.map services) ⟨service.display, key.display, backend⟩

/-- The backends of a service, each by a name, with lists of keys. -/
def Entries.AreBackends (backends : Entries) : Prop :=
  ∀ e ∈ backends, (∃ backend, e.1.Names backend) ∧ ∃ keys, e.2 = .list keys

/-- The two shapes of service maps: lists of entries, and mappings of services. -/
inductive Value.IsServiceMap : Value → Prop
  | list {items : List Value} (h : ∀ item ∈ items, ∃ entry, item.Describes entry) :
    IsServiceMap (.list items)
  | map {services : Entries}
    (h : ∀ e ∈ services, ∃ backends : Entries, e.2 = .map backends ∧ backends.AreBackends) :
    IsServiceMap (.map services)

/-- A service map that writes just these assignments. -/
structure Value.Writes (v : Value) (entries : List RoutingEntry) : Prop where
  shape : v.IsServiceMap
  assigns : ∀ e, v.Assigns e ↔ e ∈ entries

theorem Backend.ofValue?_eq_some_iff {v : Value} {backend : Backend} :
    Backend.ofValue? v = some backend ↔ v.Names backend := by
  simp only [Backend.ofValue?, Backend.ofText?, Value.Names]
  generalize v.display.strip.lower = t
  constructor
  · intro h
    obtain ⟨before, after, hsplit, -⟩ := List.lookup_eq_some_iff.mp h
    simp [hsplit]
  · intro h
    simp only [Backend.aliases, List.mem_cons, List.not_mem_nil, or_false, Prod.mk.injEq] at h
    rcases h with ⟨rfl, rfl⟩ | ⟨rfl, rfl⟩ | ⟨rfl, rfl⟩ | ⟨rfl, rfl⟩ | ⟨rfl, rfl⟩ | ⟨rfl, rfl⟩ |
      ⟨rfl, rfl⟩ <;> decide

theorem Backend.ofValue_eq_ok_iff {v : Value} {backend : Backend} :
    Backend.ofValue v = .ok backend ↔ v.Names backend := by
  rw [← Backend.ofValue?_eq_some_iff, Backend.ofValue]
  cases Backend.ofValue? v <;> simp

theorem RoutingEntry.field_eq_ok_iff {fields : Entries} {key v : Value} :
    RoutingEntry.field fields key = .ok v ↔ fields.get? key = some v := by
  rw [RoutingEntry.field]
  cases fields.get? key <;> simp

/-- An item is read as the entry that it describes. -/
theorem RoutingEntry.ofValue_eq_ok_iff {item : Value} {entry : RoutingEntry} :
    RoutingEntry.ofValue item = .ok entry ↔ item.Describes entry := by
  constructor
  · intro h
    cases item with
    | map fields =>
      obtain ⟨service, hservice, h⟩ := Outcome.bind_eq_ok.mp h
      obtain ⟨key, hkey, h⟩ := Outcome.bind_eq_ok.mp h
      obtain ⟨name, hname, h⟩ := Outcome.bind_eq_ok.mp h
      obtain ⟨backend, hbackend, h⟩ := Outcome.bind_eq_ok.mp h
      cases h
      exact .fields (field_eq_ok_iff.mp hservice) (field_eq_ok_iff.mp hkey)
        (field_eq_ok_iff.mp hname) (Backend.ofValue_eq_ok_iff.mp hbackend)
    | _ => cases h
  · rintro ⟨hservice, hkey, hname, hbackend⟩
    simp [RoutingEntry.ofValue, field_eq_ok_iff.mpr hservice, field_eq_ok_iff.mpr hkey,
      field_eq_ok_iff.mpr hname, Backend.ofValue_eq_ok_iff.mpr hbackend]

namespace RoutingTable

variable {entry : RoutingEntry}

/-- The entries of the backends of a service. -/
theorem exists_entriesOfBackends (service : Value) {backends : Entries}
    (h : backends.AreBackends) :
    ∃ entries, entriesOfBackends service backends = .ok entries ∧
      ∀ e, e ∈ entries ↔ ∃ name keys key backend, (name, .list keys) ∈ backends ∧
        name.Names backend ∧ key ∈ keys ∧ e = ⟨service.display, key.display, backend⟩ := by
  induction backends with
  | nil => exact ⟨[], rfl, by simp⟩
  | cons e rest ih =>
    obtain ⟨name, value⟩ := e
    obtain ⟨⟨⟨backend, hbackend⟩, keys, hkeys⟩, hrest⟩ := List.forall_mem_cons.mp h
    obtain ⟨tail, htail, hmem⟩ := ih hrest
    cases hkeys
    have hfirst : entriesOfBackend service name (.list keys) =
        .ok (keys.map fun key => ⟨service.display, key.display, backend⟩) := by
      simp [entriesOfBackend, Backend.ofValue_eq_ok_iff.mpr hbackend]
    refine ⟨keys.map (fun key => ⟨service.display, key.display, backend⟩) ++ tail, ?_, ?_⟩
    · simp [entriesOfBackends, hfirst, htail]
    · intro e
      rw [List.mem_append, hmem, List.mem_map]
      constructor
      · rintro (⟨key, hkey, rfl⟩ | ⟨name', keys', key, backend', hname, hrest⟩)
        · exact ⟨name, keys, key, backend, List.mem_cons_self, hbackend, hkey, rfl⟩
        · exact ⟨name', keys', key, backend', List.mem_cons_of_mem _ hname, hrest⟩
      · rintro ⟨name', keys', key, backend', hname, hbackend', hkey, rfl⟩
        rcases List.mem_cons.mp hname with heq | hname
        · cases heq
          have hsame : backend = backend' := Option.some.inj
            ((Backend.ofValue?_eq_some_iff.mpr hbackend).symm.trans
              (Backend.ofValue?_eq_some_iff.mpr hbackend'))
          exact .inl ⟨key, hkey, by rw [hsame]⟩
        · exact .inr ⟨name', keys', key, backend', hname, hbackend', hkey, rfl⟩

/-- The entries of all services. -/
theorem exists_entriesOfServices {services : Entries}
    (h : ∀ e ∈ services, ∃ backends : Entries, e.2 = .map backends ∧ backends.AreBackends) :
    ∃ entries, entriesOfServices services = .ok entries ∧
      ∀ e, (Value.map services).Assigns e ↔ e ∈ entries := by
  induction services with
  | nil =>
    refine ⟨[], rfl, fun e => iff_of_false ?_ List.not_mem_nil⟩
    rintro ⟨⟩
    contradiction
  | cons e rest ih =>
    obtain ⟨service, value⟩ := e
    obtain ⟨⟨backends, hbackends, hare⟩, hrest⟩ := List.forall_mem_cons.mp h
    obtain ⟨tail, htail, hassigns⟩ := ih hrest
    obtain ⟨first, hfirst, hmem⟩ := exists_entriesOfBackends service hare
    cases hbackends
    refine ⟨first ++ tail, by simp [entriesOfServices, hfirst, htail], fun e => ?_⟩
    rw [List.mem_append, hmem, ← hassigns]
    constructor
    · intro hassigned
      cases hassigned with
      | key hservice hname hbackend hkey =>
        rcases List.mem_cons.mp hservice with heq | hservice
        · cases heq
          exact .inl ⟨_, _, _, _, hname, hbackend, hkey, rfl⟩
        · exact .inr (.key hservice hname hbackend hkey)
    · rintro (⟨name, keys, key, backend, hname, hbackend, hkey, rfl⟩ | hassigned)
      · exact .key List.mem_cons_self hname hbackend hkey
      · cases hassigned with
        | key hservice hname hbackend hkey =>
          exact .key (List.mem_cons_of_mem _ hservice) hname hbackend hkey

/-- A service map in either shape is read as the entries that it writes. -/
theorem ofValue_of_isServiceMap {v : Value} (h : v.IsServiceMap) :
    ∃ entries, ofValue v = ofEntries entries ∧ ∀ e, v.Assigns e ↔ e ∈ entries := by
  cases h with
  | @list items h =>
    obtain ⟨entries, hentries⟩ : ∃ entries, items.mapM RoutingEntry.ofValue = .ok entries := by
      refine Outcome.mapM_isOk_iff.mpr fun item hitem => ?_
      obtain ⟨entry, hentry⟩ := h item hitem
      exact ⟨entry, RoutingEntry.ofValue_eq_ok_iff.mpr hentry⟩
    refine ⟨entries, by simp [ofValue, hentries], fun e => ?_⟩
    constructor
    · rintro ⟨hitem, hdescribes⟩
      exact Outcome.mem_of_mapM_eq_ok hentries hitem (RoutingEntry.ofValue_eq_ok_iff.mpr hdescribes)
    · intro he
      obtain ⟨item, hitem, hread⟩ := Outcome.exists_of_mapM_eq_ok hentries he
      exact .item hitem (RoutingEntry.ofValue_eq_ok_iff.mp hread)
  | map h =>
    obtain ⟨entries, hentries, hassigns⟩ := exists_entriesOfServices h
    exact ⟨entries, by simp [ofValue, hentries], hassigns⟩

/-! ### Tables with the same assignments -/

/-- Entries that make a table make one with the same owners in every order of them, however
often they come, and in whichever shape they are written. The owner of a field is the entry
with the longest key that covers it. -/
theorem owners_of_assignments {entries : List RoutingEntry} {table : RoutingTable}
    (h : ofEntries entries = .ok table) :
    (∀ others : List RoutingEntry, (∀ e, e ∈ others ↔ e ∈ entries) →
      ∃ other, ofEntries others = .ok other ∧
        ∀ service path, other.owner? service path = table.owner? service path) ∧
    (∀ v : Value, v.Writes entries →
      ∃ other, ofValue v = .ok other ∧
        ∀ service path, other.owner? service path = table.owner? service path) ∧
    ∀ service path,
      (∀ owner, table.owner? service path = some owner ↔ owner.IsLongest entries service path) ∧
      (table.owner? service path = none ↔
        ∀ e ∈ entries, e.service = service → ¬ e.Covers path) := by
  have hentries := entries_of_ofEntries h
  have hothers : ∀ others : List RoutingEntry, (∀ e, e ∈ others ↔ e ∈ entries) →
      ∃ other, ofEntries others = .ok other ∧
        ∀ service path, other.owner? service path = table.owner? service path := by
    intro others hmem
    obtain ⟨other, hother⟩ := exists_ofEntries_of_mem_iff h hmem
    refine ⟨other, hother, owner?_congr ?_⟩
    rw [entries_of_ofEntries hother, hentries]
    exact hmem
  refine ⟨hothers, fun v hv => ?_, fun service path => ?_⟩
  · obtain ⟨others, hread, hassigns⟩ := ofValue_of_isServiceMap hv.shape
    rw [hread]
    exact hothers others fun e => (hassigns e).symm.trans (hv.assigns e)
  · rw [← hentries]
    exact ⟨fun owner => owner?_eq_some_iff, owner?_eq_none_iff⟩

/-- A motor that is kept apart from the others. -/
def apart : List RoutingEntry :=
  [⟨"scans", "motors", .sql⟩, ⟨"scans", "motors.samx", .mongodb⟩]

/-- The services of a map of the same assignments, with other names for the backends. -/
def apartServices : Entries :=
  [("scans", .map [("Mongo", .list ["motors.samx"]), (" MySQL ", .list ["motors"])])]

theorem writes_apartServices : (Value.map apartServices).Writes apart := by
  have hare : ∀ e ∈ apartServices,
      ∃ backends : Entries, e.2 = .map backends ∧ backends.AreBackends := by
    intro e he
    cases List.mem_singleton.mp he
    refine ⟨_, rfl, fun e he => ?_⟩
    simp only [List.mem_cons, List.not_mem_nil, or_false] at he
    rcases he with rfl | rfl
    · exact ⟨⟨.mongodb, by decide⟩, _, rfl⟩
    · exact ⟨⟨.sql, by decide⟩, _, rfl⟩
  obtain ⟨entries, hentries, hassigns⟩ := exists_entriesOfServices hare
  have hreverse : entriesOfServices apartServices = .ok apart.reverse := by rfl
  cases hreverse.symm.trans hentries
  exact ⟨.map hare, fun e => (hassigns e).trans List.mem_reverse⟩

theorem owners_of_assignments_apart :
    ∃ table, ofEntries apart = .ok table ∧
      (∃ other, ofEntries (apart.reverse ++ apart) = .ok other ∧
        other.owner? "scans" "motors.samx" = table.owner? "scans" "motors.samx") ∧
      (∃ other, ofValue (.map apartServices) = .ok other ∧
        other.owner? "scans" "motors.samx" = table.owner? "scans" "motors.samx") ∧
      table.owner? "scans" "motors.samx" = some ⟨"scans", "motors.samx", .mongodb⟩ := by
  obtain ⟨table, htable⟩ : ∃ table, ofEntries apart = .ok table := ⟨_, rfl⟩
  obtain ⟨hothers, hshapes, -⟩ := owners_of_assignments htable
  refine ⟨table, htable, ?_, ?_, ?_⟩
  · obtain ⟨other, hother, howners⟩ := hothers (apart.reverse ++ apart) (by simp)
    exact ⟨other, hother, howners _ _⟩
  · obtain ⟨other, hother, howners⟩ := hshapes (.map apartServices) writes_apartServices
    exact ⟨other, hother, howners _ _⟩
  · cases htable
    decide

end RoutingTable

end ScanCatalog
