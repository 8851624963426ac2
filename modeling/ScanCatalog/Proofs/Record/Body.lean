import ScanCatalog.Proofs.Json.Read
import ScanCatalog.Proofs.Record.Validated
import ScanCatalog.Record.Body

/-!
# Records and queries of bodies

The records of a body are objects of JSON, so their keys are texts and none comes again. The
same holds of their motors, if they are objects, and of a query. What is wrong with the text of
a query is reported, unless the reader of JSON stops at it for its size.

## Main definitions

* `Value.IsBody`: bytes, texts, and values of JSON;
* `Fault.IsOfSize`: what stops the reader of a text for its size.

## Main statements

* `isJson_of_decodeRecords`: the records of a body are values of JSON;
* `isRecord_of_decodeRecords`: and records, if their mnemonics have a UTF-8 form;
* `isJson_of_decodeQuery`: a query is a value of JSON;
* `decodeQuery_eq_error`: why there is none.
-/

namespace ScanCatalog

/-- What a request carries: bytes or a text to be read, or a value of JSON. -/
def Value.IsBody : Value → Prop
  | .bytes _ | .text _ => True
  | v => v.IsJson

variable {sort : DecodeFault → Fault} {body v : Value} {t : Text} {records : List Entries}

theorem isJson_of_decodeText (h : decodeText sort t = .ok v) : v.IsJson := by
  unfold decodeText at h
  split at h <;> cases h
  next hread => exact Json.isJson_of_read hread

theorem isJson_of_decodeJson (hbody : body.IsBody) (h : decodeJson sort body = .ok v) :
    v.IsJson := by
  cases body with
  | bytes octets =>
    obtain ⟨t, -, h⟩ := Outcome.bind_eq_ok.mp h
    exact isJson_of_decodeText h
  | text t => exact isJson_of_decodeText h
  | _ =>
    cases h
    exact hbody

theorem recordsOfItems_eq_ok_iff {items : List Value} {position : Nat} :
    recordsOfItems position items = .ok records ↔ items = records.map .map := by
  induction items generalizing position records with
  | nil =>
    constructor
    · intro h
      cases h
      rfl
    · intro h
      rw [List.map_eq_nil_iff.mp h.symm]
      rfl
  | cons item rest ih =>
    constructor
    · intro h
      cases item with
      | map entries =>
        obtain ⟨tail, htail, h⟩ := Outcome.bind_eq_ok.mp h
        cases h
        rw [List.map_cons, ← ih.mp htail]
      | _ => cases h
    · intro h
      cases records with
      | nil => cases h
      | cons r tail =>
        obtain ⟨rfl, hrest⟩ := List.cons.inj h
        exact Outcome.bind_eq_ok.mpr ⟨tail, ih.mpr hrest, rfl⟩

/-- Records come from one object, or from the objects of an array. -/
theorem eq_of_recordsOf (h : recordsOf v = .ok records) :
    (∃ r, v = .map r ∧ records = [r]) ∨ v = .list (records.map .map) := by
  cases v with
  | map entries =>
    cases h
    exact .inl ⟨entries, rfl, rfl⟩
  | list items => exact .inr (congrArg _ (recordsOfItems_eq_ok_iff.mp h))
  | _ => cases h

/-- The records of a body are values of JSON. -/
theorem isJson_of_decodeRecords (hbody : body.IsBody) (h : decodeRecords body = .ok records) :
    ∀ r ∈ records, (Value.map r).IsJson := by
  obtain ⟨v, hv, h⟩ := Outcome.bind_eq_ok.mp h
  have hjson := isJson_of_decodeJson hbody hv
  rcases eq_of_recordsOf h with ⟨r, rfl, rfl⟩ | rfl
  · exact List.forall_mem_singleton.mpr hjson
  · cases hjson with
    | list hitems => exact List.forall_mem_map.mp hitems

theorem Value.IsJson.distinctKeys (h : v.IsJson) : v.DistinctKeys := by
  cases h with
  | map _ hdistinct _ => exact hdistinct
  | _ => exact List.Pairwise.nil

theorem Value.IsJson.texts {entries : Entries} (h : (Value.map entries).IsJson) :
    entries.TextKeys := by
  cases h with
  | map htexts _ _ => exact htexts

theorem Value.IsJson.get {entries : Entries} (h : (Value.map entries).IsJson) (key : Text) :
    (entries.get (.text key)).IsJson := by
  cases h with
  | map _ _ hvalues =>
    unfold Entries.get
    cases hget : entries.get? (.text key) with
    | none => exact .null
    | some value => exact hvalues _ (Entries.get?_eq_some_mem hget)

/-- The records of a body are records, if their mnemonics have a UTF-8 form. -/
theorem isRecord_of_decodeRecords (hbody : body.IsBody) (h : decodeRecords body = .ok records)
    (hencodable : ∀ r ∈ records, (Entries.get r motorsKey).EncodableKeys) :
    ∀ r ∈ records, Entries.IsRecord r := by
  intro r hr
  have hjson := isJson_of_decodeRecords hbody h r hr
  exact ⟨hjson.texts, hjson.distinctKeys, (hjson.get "motors").distinctKeys, hencodable r hr⟩

/-! ### Queries -/

variable {query : Value} {expression : Entries} {fault : Fault}

/-- The filter that matches everything is a value of JSON. -/
theorem Value.isJson_empty : (Value.map []).IsJson :=
  .map (List.forall_mem_nil _) List.Pairwise.nil (List.forall_mem_nil _)

/-- The value that a query is read to. -/
def decodeQueryValue : Value → Except Fault Value
  | .null => .ok (.map [])
  | .bytes octets => do
    decodeQueryText (← decodeUtf8 (fun fault => .filter (.undecodable fault)) octets)
  | .text t => decodeQueryText t
  | v => .ok v

/-- The filter that a value is, which has to be a mapping. -/
def expressionOf : Value → Except Fault Entries
  | .map entries => .ok entries
  | v => .error (.filter (.queryNotObject v.kindName))

theorem decodeQuery_eq (query : Value) :
    decodeQuery query = decodeQueryValue query >>= expressionOf := by
  cases query with
  | bytes octets =>
    unfold decodeQuery decodeQueryValue
    dsimp only
    rw [bind_assoc]
    rfl
  | _ => rfl

theorem isJson_of_decodeQueryText (h : decodeQueryText t = .ok v) : v.IsJson := by
  unfold decodeQueryText at h
  split at h
  · cases h
    exact Value.isJson_empty
  · exact isJson_of_decodeText h

theorem isJson_of_decodeQueryValue (hquery : query.IsBody) (h : decodeQueryValue query = .ok v) :
    v.IsJson := by
  cases query with
  | null =>
    cases h
    exact Value.isJson_empty
  | bytes octets =>
    obtain ⟨t, -, h⟩ := Outcome.bind_eq_ok.mp h
    exact isJson_of_decodeQueryText h
  | text t => exact isJson_of_decodeQueryText h
  | _ =>
    cases h
    exact hquery

/-- A query is a value of JSON. -/
theorem isJson_of_decodeQuery (hquery : query.IsBody) (h : decodeQuery query = .ok expression) :
    (Value.map expression).IsJson := by
  rw [decodeQuery_eq] at h
  obtain ⟨v, hv, h⟩ := Outcome.bind_eq_ok.mp h
  have hjson := isJson_of_decodeQueryValue hquery hv
  cases v with
  | map entries =>
    cases h
    exact hjson
  | _ => cases h

/-- Faults of the reader that are no faults of the grammar: an integer has too many digits, or
containers are too deep. -/
def Fault.IsOfSize (fault : Fault) : Prop :=
  (∃ digits, fault = .value (.tooManyDigits digits)) ∨
    ∃ container, fault = .value (.tooDeep container)

theorem decodeQueryText_eq_error (h : decodeQueryText t = .error fault) :
    fault.isReported = true ∨ fault.IsOfSize := by
  unfold decodeQueryText at h
  split at h
  · cases h
  · unfold decodeText at h
    split at h <;> cases h
    · exact .inl rfl
    · exact .inl rfl
    · exact .inr (.inl ⟨_, rfl⟩)
    · exact .inr (.inr ⟨_, rfl⟩)

theorem decodeQueryValue_eq_error (h : decodeQueryValue query = .error fault) :
    fault.isReported = true ∨ fault.IsOfSize := by
  cases query with
  | bytes octets =>
    rcases Outcome.bind_eq_error.mp h with h | ⟨t, -, h⟩
    · unfold decodeUtf8 at h
      split at h <;> cases h
      exact .inl rfl
    · exact decodeQueryText_eq_error h
  | text t => exact decodeQueryText_eq_error h
  | _ => cases h

/-- What is wrong with a query is reported, or its text is stopped at for its size. -/
theorem decodeQuery_eq_error (h : decodeQuery query = .error fault) :
    fault.isReported = true ∨ fault.IsOfSize := by
  rw [decodeQuery_eq] at h
  rcases Outcome.bind_eq_error.mp h with h | ⟨v, -, h⟩
  · exact decodeQueryValue_eq_error h
  · cases v with
    | map entries => cases h
    | _ =>
      cases h
      exact .inl rfl

end ScanCatalog
