import ScanCatalog.Proofs.Json.Size
import ScanCatalog.Proofs.Record.Descriptions
import ScanCatalog.Proofs.Text.Utf8
import ScanCatalog.Record.SchemaFile
import ScanCatalog.Routing.ServiceMap

/-!
# Files and answers that are loaded

Service maps and schemas come from files, a service map from a request as well. A file that is
not there, a request that fails and a text that is no JSON are reported, as is a service map of
any unexpected shape. What is not reported comes of three things: bytes that are not UTF-8, a
text at whose size the reader of JSON stops, and an item of a schema that is no object. A text
with few digits in a row and few brackets is never too large.

## Main definitions

* `Text.IsReadable`, `FileTree.IsLegible`, `FetchOutcome.IsLegible`: texts, files and answers of
  which every fault is reported;
* `FileTree.storedValue`: the value of a file, with the faults of whoever reads it.

## Main statements

* `FileTree.storedValue_failsAs_iff`, `RoutingTable.fetchedValue_failsAs_iff`: the files and
  answers that are read or reported;
* `loads_reported`: the service maps and schemas that are.
-/

namespace ScanCatalog

open Outcome

/-- The reader of JSON does not stop at the size of the text. -/
def Text.IsReadable (t : Text) : Prop := ∀ fault, Json.read true t = .error fault → ¬ fault.IsOfSize

/-- The path of a file is one, and what it leads to is the UTF-8 form of a text of scalar values
that can be read. -/
structure FileTree.IsLegible (tree : FileTree) (path : Text) : Prop where
  isPath : ∃ octets, Path.octets path = .ok octets
  utf8 : ∀ octets, tree.read path = .ok octets →
    ∃ t : Text, (∀ c ∈ t.codes, Text.IsScalar c) ∧ t.toUtf8 = octets
  size : ∀ t, tree.readText path = .ok t → t.IsReadable

variable {kind : Fault → Prop} {tree : FileTree} {path t : Text}

theorem Text.IsModest.isReadable (ht : t.IsModest) : t.IsReadable :=
  fun _ hread => ht.not_isOfSize hread

/-! ### Files -/

/-- A text that is kept is read, or has a fault of the sort that it was given. -/
theorem decodeStored_failsAs_iff {sort : Json.Malformation → Fault}
    (hsort : ∀ malformation, kind (sort malformation)) (hvalue : ∀ fault, ¬ kind (.value fault)) :
    FailsAs kind (decodeStored sort t) ↔ t.IsReadable := by
  unfold Text.IsReadable
  cases hread : Json.read true t with
  | ok v => simp [decodeStored, hread]
  | error stop => cases stop <;> simp [decodeStored, hread, Json.ReadFault.IsOfSize, hsort, hvalue]

namespace FileTree

/-- The value of a file, with the faults of whoever reads it. -/
def storedValue (ofFile : FileFault → Fault) (ofJson : Json.Malformation → Fault) (tree : FileTree)
    (path : Text) : Except Fault Value :=
  match tree.readText path with
  | .error (.file fault) => .error (ofFile fault)
  | .error fault => .error fault
  | .ok t => decodeStored ofJson t

/-- What a path leads to is read, or the fault is one of files. -/
theorem exists_read_of_octets (tree : FileTree) {octets : List Nat}
    (h : Path.octets path = .ok octets) :
    (∃ contents, tree.read path = .ok contents) ∨
      ∃ fault, tree.read path = .error (.file fault) := by
  simp only [read, h]
  cases tree.find path octets with
  | error fault => exact .inr ⟨fault, rfl⟩
  | ok place =>
    by_cases hdirectory : tree.isDirectory place = true
    · exact .inr ⟨.isDirectory path, by simp [hdirectory]⟩
    · cases hfile : tree.fileAt? place with
      | none => exact .inr ⟨.notFound path, by simp [hdirectory, hfile]⟩
      | some contents => exact .inl ⟨contents, by simp [hdirectory, hfile]⟩

/-- The faults of a file are reported by whoever reads it just if it is legible. -/
theorem storedValue_failsAs_iff {ofFile : FileFault → Fault} {ofJson : Json.Malformation → Fault}
    (hfile : ∀ fault, kind (ofFile fault)) (hjson : ∀ malformation, kind (ofJson malformation))
    (hvalue : ∀ fault, ¬ kind (.value fault)) :
    FailsAs kind (storedValue ofFile ofJson tree path) ↔ tree.IsLegible path := by
  cases hoctets : Path.octets path with
  | error fault =>
    have htext : tree.readText path = .error (.value fault) := by simp [readText, read, hoctets]
    refine iff_of_false (by simp [storedValue, htext, hvalue]) fun h => ?_
    obtain ⟨octets, hpath⟩ := h.isPath
    cases hoctets.symm.trans hpath
  | ok octets =>
    rcases exists_read_of_octets tree hoctets with ⟨contents, hread⟩ | ⟨fault, hread⟩
    · cases hutf8 : Text.ofUtf8 contents with
      | error fault =>
        have htext : tree.readText path = .error (.value (.notUtf8 fault)) := by
          simp [readText, hread, hutf8]
        refine iff_of_false (by simp [storedValue, htext, hvalue]) fun h => ?_
        obtain ⟨t, hform⟩ := h.utf8 contents hread
        cases hutf8.symm.trans (Text.ofUtf8_eq_ok_iff.mpr hform)
      | ok t =>
        have htext : tree.readText path = .ok ⟨Text.unifyLineEnds t.codes⟩ := by
          simp [readText, hread, hutf8]
        simp only [storedValue, htext, decodeStored_failsAs_iff hjson hvalue]
        constructor
        · intro h
          refine ⟨⟨octets, hoctets⟩, fun contents' hread' => ?_, fun t' htext' => ?_⟩
          · cases hread.symm.trans hread'
            exact ⟨t, Text.ofUtf8_eq_ok_iff.mp hutf8⟩
          · cases htext.symm.trans htext'
            exact h
        · intro h
          exact h.size _ htext
    · have htext : tree.readText path = .error (.file fault) := by simp [readText, hread]
      refine iff_of_true (by simp [storedValue, htext, hfile]) ⟨⟨octets, hoctets⟩, ?_, ?_⟩
      · intro contents hread'
        cases hread.symm.trans hread'
      · intro t htext'
        cases htext.symm.trans htext'

end FileTree

/-! ### Answers -/

/-- An answer to a request for a service map is refused for its status, or is no text of
containers that are too deep. -/
def FetchOutcome.IsLegible : FetchOutcome → Prop
  | .answered status _ (.text t) => (400 ≤ status ∧ status < 600) ∨
    ∀ container, Json.read true t ≠ .error (.tooDeep container)
  | _ => True

theorem Text.IsModest.isLegible (ht : t.IsModest) (status : Int) (reason : Text) :
    (FetchOutcome.answered status reason (.text t)).IsLegible :=
  .inr fun _ hread => ht.not_isOfSize hread trivial

namespace RoutingTable

/-- The fault is one of service maps. -/
def IsRoutingFault (fault : Fault) : Prop := fault.family? = some .routingTable

theorem not_isRoutingFault_value (fault : ValueFault) : ¬ IsRoutingFault (.value fault) := nofun

theorem statusFailure?_eq_none_iff {source reason : Text} {status : Int} :
    statusFailure? source reason status = none ↔ ¬ (400 ≤ status ∧ status < 600) := by
  simp only [statusFailure?]
  split
  · simp; omega
  · split
    · simp; omega
    · simp; omega

/-- The faults of a request are reported just if its answer is legible. -/
theorem fetchedValue_failsAs_iff {source : Text} {outcome : FetchOutcome} :
    FailsAs IsRoutingFault (fetchedValue source outcome) ↔ outcome.IsLegible := by
  cases outcome with
  | failed reason => exact iff_of_true (failsAs_error_iff.mpr rfl) trivial
  | answered status reason body =>
    cases body with
    | unreadable cause =>
      refine iff_of_true ?_ trivial
      simp only [fetchedValue]
      cases statusFailure? source reason status <;> exact failsAs_error_iff.mpr rfl
    | text t =>
      simp only [fetchedValue, FetchOutcome.IsLegible]
      cases hstatus : statusFailure? source reason status with
      | some blame =>
        refine iff_of_true (failsAs_error_iff.mpr rfl) (.inl ?_)
        by_cases hrange : 400 ≤ status ∧ status < 600
        · exact hrange
        · cases hstatus.symm.trans (statusFailure?_eq_none_iff.mpr hrange)
      | none =>
        simp only [statusFailure?_eq_none_iff.mp hstatus, false_or]
        cases hread : Json.read true t with
        | ok v => simp [decodeStored, hread]
        | error stop =>
          cases stop with
          | tooDeep container =>
            refine iff_of_false ?_ fun h => h container rfl
            simp [decodeStored, hread, not_isRoutingFault_value]
          | _ =>
            refine iff_of_true ?_ nofun
            simp only [decodeStored, hread]
            exact failsAs_error_iff.mpr rfl

theorem ofValue_failsAs (v : Value) : FailsAs IsRoutingFault (lift (ofValue v)) := by
  cases h : ofValue v with
  | ok table => simp [lift]
  | error fault => simp [lift]; rfl

/-- The faults of a source are reported just if what it names is legible. -/
theorem load_failsAs_iff {fetch : Text → FetchOutcome} {source : Text}
    (hsource : source.isEmpty = false) :
    FailsAs IsRoutingFault (load tree fetch (some source)) ↔
      if isWebSource source = true then (fetch source).IsLegible
      else tree.IsLegible (Path.tidy source) := by
  simp only [load, hsource, Bool.false_eq_true, ↓reduceIte]
  split
  · simp only [failsAs_bind_iff, fetchedValue_failsAs_iff, ofValue_failsAs, implies_true, and_true]
  · simp only [failsAs_bind_iff, ofValue_failsAs, implies_true, and_true]
    exact FileTree.storedValue_failsAs_iff (fun _ => rfl) (fun _ => rfl) not_isRoutingFault_value

end RoutingTable

namespace Schema

theorem load_failsAs_iff (hpath : path.isEmpty = false) :
    FailsAs (fun fault => fault.isReported = true) (load tree (some path)) ↔
      tree.IsLegible (Path.tidy path) ∧
        ∀ items, loadValue tree path = .ok (.list items) →
          ∀ before item after, items = before ++ item :: after →
            (∀ description ∈ before, description.IsDescription) → ¬ item.IsMisread := by
  simp only [load, hpath, Bool.false_eq_true, ↓reduceIte, failsAs_bind_iff]
  refine and_congr ?_ ?_
  · exact FileTree.storedValue_failsAs_iff (fun _ => rfl) (fun _ => rfl) nofun
  · constructor
    · intro h items hitems
      exact failsAs_reported_iff.mp (h (.list items) hitems)
    · intro h v hv
      cases v with
      | list items => exact failsAs_reported_iff.mpr (h items hv)
      | _ => exact failsAs_error_iff.mpr rfl

end Schema

/-! ### Sources that are loaded -/

/-- A service map gives a table or a fault of service maps just if the file or the answer that
it comes from is legible. A schema gives a validator or a reported fault just if its file is
legible, and no item is misread before one that is no description. Modest texts are legible. -/
theorem loads_reported (tree : FileTree) (fetch : Text → FetchOutcome) (source path : Option Text) :
    (FailsAs (fun fault => fault.family? = some .routingTable)
        (RoutingTable.load tree fetch source) ↔
      ∀ name, source = some name → name.isEmpty = false →
        if RoutingTable.isWebSource name = true then (fetch name).IsLegible
        else tree.IsLegible (Path.tidy name)) ∧
    (FailsAs (fun fault => fault.isReported = true) (Schema.load tree path) ↔
      ∀ name, path = some name → name.isEmpty = false →
        tree.IsLegible (Path.tidy name) ∧
          ∀ items, Schema.loadValue tree name = .ok (.list items) →
            ∀ before item after, items = before ++ item :: after →
              (∀ description ∈ before, description.IsDescription) → ¬ item.IsMisread) ∧
    ∀ t : Text, t.IsModest →
      t.IsReadable ∧ ∀ status reason, (FetchOutcome.answered status reason (.text t)).IsLegible := by
  refine ⟨?_, ?_, fun t ht => ⟨ht.isReadable, ht.isLegible⟩⟩
  · cases source with
    | none => simp [RoutingTable.load]
    | some name =>
      cases hempty : name.isEmpty with
      | true => simp [RoutingTable.load, hempty]
      | false =>
        simp only [Option.some.injEq, forall_eq', hempty, forall_const]
        exact RoutingTable.load_failsAs_iff hempty
  · cases path with
    | none => simp [Schema.load]
    | some name =>
      cases hempty : name.isEmpty with
      | true => simp [Schema.load, hempty]
      | false =>
        simp only [Option.some.injEq, forall_eq', hempty, forall_const]
        exact Schema.load_failsAs_iff hempty

/-! ### A number for a description -/

theorem Json.read_numbers : Json.read true "[1]" = .ok (.list [.int 1]) := by
  have hcodes : Text.codes "[1]" = [91, 49, 93] := rfl
  have hatom : readAtom true 1 [49, 93] = .ok ⟨.int 1, 2, [93]⟩ := rfl
  unfold Json.read readCodes
  rw [hcodes]
  -- the reader of values does not compute, so its steps are taken one by one
  simp [skipSpaces, isSpace, readValue, readItems, depthLimit, hatom]

/-- An item that is no object is not reported as one, nor are bytes that are not UTF-8. -/
theorem loads_unreported :
    Schema.load (.ofPaths [("s.json", [91, 49, 93])]) (some "s.json") =
      .error (.value (.notContainer "int")) ∧
    RoutingTable.load (.ofPaths [("m.json", [0xFF])]) (fun _ => .failed "") (some "m.json") =
      .error (.value (.notUtf8 ⟨.badStart, 0xFF, 0, 0⟩)) := by
  constructor
  · have hempty : Text.isEmpty "s.json" = false := rfl
    have htext : (FileTree.ofPaths [("s.json", [91, 49, 93])]).readText (Path.tidy "s.json") =
        .ok "[1]" := by rfl
    have hvalue : Schema.loadValue (.ofPaths [("s.json", [91, 49, 93])]) "s.json" =
        .ok (.list [.int 1]) := by
      simp only [Schema.loadValue, htext, decodeStored, Json.read_numbers]
    simp only [Schema.load, hempty, hvalue]
    rfl
  · rfl

end ScanCatalog
