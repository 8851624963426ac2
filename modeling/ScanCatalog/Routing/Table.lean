import ScanCatalog.Fault

/-!
# Routing tables

A routing table says for each service which backend owns which fields. An entry owns
the field of its key and all fields below it; of several entries that own a field the
one with the longest key counts. A table never gives one key of a service to two
backends.

## Main definitions

* `RoutingEntry`, `RoutingEntry.owns`: the claim of one entry;
* `RoutingTable`, `RoutingTable.ofEntries`: tables without conflicts;
* `RoutingTable.owner?`: the entry that owns a field;
* `RoutingTable.builtIn`: the table that is used when no service map is given.
-/

namespace ScanCatalog

/-- A backend owns a field of a service. -/
structure RoutingEntry where
  service : Text
  key : Text
  backend : Backend
deriving DecidableEq, Repr

/-- Whether an entry owns the field at a path: its own key, or one below it. -/
def RoutingEntry.owns (entry : RoutingEntry) (path : Text) : Bool :=
  path == entry.key || path.startsWith (entry.key ++ ".")

namespace RoutingTable

/-- The first entry of a list for a key of a service. -/
def firstFor? (entries : List RoutingEntry) (service key : Text) : Option RoutingEntry :=
  entries.find? fun e => e.service == service && e.key == key

/-- What is wrong with an entry that follows others. -/
def entryFault? (before : List RoutingEntry) (entry : RoutingEntry) : Option RoutingFault :=
  if entry.key.isEmpty then some (.emptyKey entry.service)
  else
    match firstFor? before entry.service entry.key with
    | none => none
    | some first =>
      if first.backend = entry.backend then none
      else some (.conflict entry.key entry.service first.backend entry.backend)

/-- What is wrong with the first bad entry of some that follow others. -/
def faultFrom? (before : List RoutingEntry) : List RoutingEntry → Option RoutingFault
  | [] => none
  | entry :: rest =>
    match entryFault? before entry with
    | some fault => some fault
    | none => faultFrom? (before ++ [entry]) rest

/-- What is wrong with the first bad entry. -/
def fault? (entries : List RoutingEntry) : Option RoutingFault := faultFrom? [] entries

end RoutingTable

/-- Entries of which none is empty and none contradicts another. -/
structure RoutingTable where
  entries : List RoutingEntry
  sound : RoutingTable.fault? entries = none
deriving DecidableEq

namespace RoutingTable

/-- The table of some entries. -/
def ofEntries (entries : List RoutingEntry) : Except RoutingFault RoutingTable :=
  match h : fault? entries with
  | none => .ok ⟨entries, h⟩
  | some fault => .error fault

theorem entries_of_ofEntries {entries : List RoutingEntry} {table : RoutingTable}
    (h : ofEntries entries = .ok table) : table.entries = entries := by
  unfold ofEntries at h
  split at h
  · cases h; rfl
  · cases h

/-- The entries of a service. -/
def entriesFor (table : RoutingTable) (service : Text) : List RoutingEntry :=
  table.entries.filter fun e => e.service == service

/-- The better owner of two: the later one only if its key is longer. -/
def better (best : Option RoutingEntry) (entry : RoutingEntry) : Option RoutingEntry :=
  match best with
  | none => some entry
  | some b => if b.key.length < entry.key.length then some entry else some b

/-- The entry that owns a field of a service: the first one of those with the longest
key. -/
def owner? (table : RoutingTable) (service path : Text) : Option RoutingEntry :=
  (table.entries.filter fun e => e.service == service && e.owns path).foldl better none

/-- How a table is shown. -/
def shown (table : RoutingTable) : Text :=
  "RoutingTable(" ++ Text.ofNat table.entries.length ++ " entries)"

/-- The service of the catalog itself. -/
def catalogService : Text := "SpecScans"

/-- The fields that the document collection owns unless a service map says otherwise. -/
def documentKeys : List Text :=
  ["sid", "did", "cycle", "beamline", "btr", "spec_file", "scan_number", "start_time", "command",
    "status", "comments", "spec_version", "variables"]

/-- The fields that the motor tables own unless a service map says otherwise. -/
def relationalKeys : List Text := ["motors"]

/-- The entries that are used when no service map is given. -/
def builtInEntries (service : Text) : List RoutingEntry :=
  documentKeys.map (fun key => ⟨service, key, .mongodb⟩) ++
    relationalKeys.map fun key => ⟨service, key, .sql⟩

end RoutingTable

end ScanCatalog
