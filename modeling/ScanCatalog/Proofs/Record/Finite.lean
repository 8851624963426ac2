import Mathlib.Data.List.Infix
import ScanCatalog.Proofs.Binary64.Overflow
import ScanCatalog.Proofs.Json.Written
import ScanCatalog.Proofs.Record.Body

/-!
# Finite numbers in records and queries

The names of numbers that are not finite are refused wherever they stand in a text. What is read
need not be finite all the same: a decimal beyond the greatest finite number is rounded to an
infinity. So the numbers of records and queries are finite unless such a decimal stands in the
text, and just if they are, what was read is accepted again when it is written.

## Main definitions

* `Text.HasOverflow`: texts in which a decimal overflows;
* `Value.Carries`: a text as a body, or its UTF-8 form.

## Main statements

* `Json.allFinite_or_hasOverflow`: what is read is finite, or a decimal overflows;
* `finite_of_carries`: the numbers of records and queries.
-/

namespace ScanCatalog

/-- At some place of the text begins a decimal that overflows. -/
def Text.HasOverflow (t : Text) : Prop :=
  ∃ codes ∈ t.codes.tails, ∃ d ∈ Json.decimalAt? codes, Binary64.Overflows d.1 d.2

instance (t : Text) : Decidable t.HasOverflow := inferInstanceAs (Decidable (∃ _ ∈ _, _))

namespace Json

variable {t : Text} {codes : List Nat} {v : Value}

/-- Without the names of numbers that are not finite, only a decimal is too great. -/
theorem IsAtom.allFinite (h : IsAtom false codes v) :
    v.AllFinite ∨ ∃ d ∈ decimalAt? codes, Binary64.Overflows d.1 d.2 := by
  cases h with
  | null => exact .inl .null
  | bool b => exact .inl (.bool b)
  | int => exact .inl (.int _)
  | constant hallowed => cases hallowed
  | @decimal coefficient exponent negative hdecimal =>
    cases hfinite : (Binary64.ofDecimal negative coefficient exponent).isFinite with
    | true => exact .inl (.float hfinite)
    | false => exact .inr ⟨_, hdecimal, Binary64.overflows_of_ofDecimal hfinite⟩

theorem hereditary_allFinite (t : Text) :
    Hereditary false t.codes fun _ v => v.AllFinite ∨ t.HasOverflow where
  text _ u := .inl (.text u)
  atom _ codes _ hcodes h :=
    h.allFinite.imp_right fun hd => ⟨codes, (List.mem_tails _ _).mpr hcodes, hd⟩
  list _ items h := by
    by_cases hoverflow : t.HasOverflow
    · exact .inr hoverflow
    · exact .inl (.list fun v hv => (h v hv).resolve_right hoverflow)
  map _ entries _ _ h := by
    by_cases hoverflow : t.HasOverflow
    · exact .inr hoverflow
    · exact .inl (.map fun e he => (h e he).resolve_right hoverflow)

/-- What is read is finite, or a decimal of the text overflows. -/
theorem allFinite_or_hasOverflow (h : read false t = .ok v) : v.AllFinite ∨ t.HasOverflow :=
  (hereditary_allFinite t).read h

end Json

/-! ### Bodies -/

variable {sort : DecodeFault → Fault} {body v w : Value} {t : Text} {records : List Entries}
  {expression : Entries}

/-- The body is a text, or the UTF-8 form of it. -/
def Value.Carries (body : Value) (t : Text) : Prop :=
  body = .text t ∨ ∃ octets, body = .bytes octets ∧ Text.ofUtf8 octets = .ok t

theorem decodeJson_of_carries (h : body.Carries t) (sort : DecodeFault → Fault) :
    decodeJson sort body = decodeText sort t := by
  rcases h with rfl | ⟨octets, rfl, hoctets⟩
  · rfl
  · have hutf8 : decodeUtf8 sort octets = .ok t := by
      unfold decodeUtf8
      rw [hoctets]
    show (decodeUtf8 sort octets >>= decodeText sort) = _
    rw [hutf8]
    rfl

theorem decodeQueryValue_of_carries (h : body.Carries t) :
    decodeQueryValue body = decodeQueryText t := by
  rcases h with rfl | ⟨octets, rfl, hoctets⟩
  · rfl
  · have hutf8 : decodeUtf8 (fun fault => .filter (.undecodable fault)) octets = .ok t := by
      unfold decodeUtf8
      rw [hoctets]
    show (decodeUtf8 (fun fault => .filter (.undecodable fault)) octets >>= decodeQueryText) = _
    rw [hutf8]
    rfl

theorem read_of_decodeText (h : decodeText sort t = .ok v) : Json.read false t = .ok v := by
  unfold decodeText at h
  split at h <;> cases h
  assumption

/-- What is written of a decoded value is decoded again just if it is finite. -/
theorem decodeText_write (h : v.Sized Json.depthLimit) (sort : DecodeFault → Fault) :
    (v.AllFinite ∧ ∃ w, v.KeepsSort w ∧ decodeText sort (Json.write v) = .ok w) ∨
      (¬ v.AllFinite ∧
        ∃ name, decodeText sort (Json.write v) = .error (sort (.constant name))) := by
  unfold decodeText
  rcases Json.read_write h with ⟨hfinite, w, hsort, hread⟩ | ⟨hfinite, name, hread⟩
  · rw [hread]
    exact .inl ⟨hfinite, w, hsort, rfl⟩
  · rw [hread]
    exact .inr ⟨hfinite, name, rfl⟩

/-! ### Records -/

theorem allFinite_iff_of_recordsOf (h : recordsOf v = .ok records) :
    v.AllFinite ↔ ∀ r ∈ records, (Value.map r).AllFinite := by
  rcases eq_of_recordsOf h with ⟨r, rfl, rfl⟩ | rfl
  · exact ⟨fun h => List.forall_mem_singleton.mpr h, fun h => h r (List.mem_singleton_self r)⟩
  · exact Value.allFinite_list_iff.symm.trans List.forall_mem_map

theorem exists_of_isObject {items : List Value} (h : ∀ v ∈ items, v.IsObject) :
    ∃ records : List Entries, items = records.map .map := by
  induction items with
  | nil => exact ⟨[], rfl⟩
  | cons v rest ih =>
    obtain ⟨⟨r, rfl⟩, hrest⟩ := List.forall_mem_cons.mp h
    obtain ⟨records, rfl⟩ := ih hrest
    exact ⟨r :: records, rfl⟩

/-- What has kept its sort holds records as well. -/
theorem exists_recordsOf (h : recordsOf v = .ok records) (hsort : v.KeepsSort w) :
    ∃ again, recordsOf w = .ok again := by
  rcases eq_of_recordsOf h with ⟨r, rfl, rfl⟩ | rfl
  · obtain ⟨entries, rfl⟩ := hsort.object ⟨r, rfl⟩
    exact ⟨[entries], rfl⟩
  · have hobjects : (Value.list (records.map .map)).AreObjects := by
      refine ⟨_, rfl, fun u hu => ?_⟩
      obtain ⟨r, -, rfl⟩ := List.mem_map.mp hu
      exact ⟨r, rfl⟩
    obtain ⟨items, rfl, hitems⟩ := hsort.objects hobjects
    obtain ⟨again, rfl⟩ := exists_of_isObject hitems
    exact ⟨again, recordsOfItems_eq_ok_iff.mpr rfl⟩

theorem decodeRecords_of_carries (hbody : body.Carries t) (h : decodeRecords body = .ok records) :
    ∃ v, Json.read false t = .ok v ∧ recordsOf v = .ok records := by
  obtain ⟨v, hv, h⟩ := Outcome.bind_eq_ok.mp h
  rw [decodeJson_of_carries hbody] at hv
  exact ⟨v, read_of_decodeText hv, h⟩

/-- Records that were read are accepted again just if they are finite. -/
theorem decodeRecords_write_iff (hread : Json.read false t = .ok v)
    (h : recordsOf v = .ok records) :
    (∀ r ∈ records, (Value.map r).AllFinite) ↔
      ∃ again, decodeRecords (.text (Json.write v)) = .ok again := by
  rw [← allFinite_iff_of_recordsOf h]
  rcases decodeText_write (Json.sized_of_read hread) fun fault => .request (.undecodable fault) with
    ⟨hfinite, w, hsort, hw⟩ | ⟨hfinite, name, hw⟩
  · obtain ⟨again, hagain⟩ := exists_recordsOf h hsort
    exact iff_of_true hfinite ⟨again, Outcome.bind_eq_ok.mpr ⟨w, hw, hagain⟩⟩
  · refine iff_of_false hfinite ?_
    rintro ⟨again, hagain⟩
    obtain ⟨w, hok, -⟩ := Outcome.bind_eq_ok.mp hagain
    cases hok.symm.trans hw

/-! ### Queries -/

theorem not_isBlank_write (expression : Entries) :
    (Json.write (.map expression)).isBlank = false := by
  unfold Text.isBlank
  rw [Json.codes_write_map]
  rfl

theorem decodeQuery_of_carries (hbody : body.Carries t) (h : decodeQuery body = .ok expression) :
    (Value.map expression).Sized Json.depthLimit ∧
      ((Value.map expression).AllFinite ∨ t.HasOverflow) := by
  rw [decodeQuery_eq, decodeQueryValue_of_carries hbody] at h
  obtain ⟨v, hv, h⟩ := Outcome.bind_eq_ok.mp h
  cases v with
  | map entries =>
    cases h
    unfold decodeQueryText at hv
    split at hv
    · cases hv
      have hsized : (Value.map []).Sized (989 + 1) :=
        .map (List.forall_mem_nil _) (List.forall_mem_nil _)
      exact ⟨hsized, .inl (.map (List.forall_mem_nil _))⟩
    · have hread := read_of_decodeText hv
      exact ⟨Json.sized_of_read hread, Json.allFinite_or_hasOverflow hread⟩
  | _ => cases h

/-- A query of the size that is read is accepted again just if it is finite. -/
theorem decodeQuery_write_iff (hsized : (Value.map expression).Sized Json.depthLimit) :
    (Value.map expression).AllFinite ↔
      ∃ again, decodeQuery (.text (Json.write (.map expression))) = .ok again := by
  have hquery : decodeQueryValue (.text (Json.write (.map expression))) =
      decodeText (fun fault => .filter (.undecodable fault)) (Json.write (.map expression)) := by
    show decodeQueryText _ = _
    unfold decodeQueryText
    rw [not_isBlank_write]
    rfl
  rw [decodeQuery_eq, hquery]
  rcases decodeText_write hsized fun fault => .filter (.undecodable fault) with
    ⟨hfinite, w, hsort, hw⟩ | ⟨hfinite, name, hw⟩
  · obtain ⟨again, rfl⟩ := hsort.object ⟨expression, rfl⟩
    exact iff_of_true hfinite ⟨again, Outcome.bind_eq_ok.mpr ⟨_, hw, rfl⟩⟩
  · refine iff_of_false hfinite ?_
    rintro ⟨again, hagain⟩
    obtain ⟨w, hok, -⟩ := Outcome.bind_eq_ok.mp hagain
    cases hok.symm.trans hw

/-! ### The numbers that are sent -/

/-- The numbers of the records or the query of a text are finite unless a decimal of the text
overflows, and just if they are, what was read is accepted again when it is written. -/
theorem finite_of_carries (hbody : body.Carries t) :
    (∀ records, decodeRecords body = .ok records →
      ((∀ r ∈ records, (Value.map r).AllFinite) ∨ t.HasOverflow) ∧
        ∃ v, recordsOf v = .ok records ∧
          ((∀ r ∈ records, (Value.map r).AllFinite) ↔
            ∃ again, decodeRecords (.text (Json.write v)) = .ok again)) ∧
      ∀ expression, decodeQuery body = .ok expression →
        ((Value.map expression).AllFinite ∨ t.HasOverflow) ∧
          ((Value.map expression).AllFinite ↔
            ∃ again, decodeQuery (.text (Json.write (.map expression))) = .ok again) := by
  refine ⟨fun records hrecords => ?_, fun expression hquery => ?_⟩
  · obtain ⟨v, hread, hv⟩ := decodeRecords_of_carries hbody hrecords
    have hfinite := (Json.allFinite_or_hasOverflow hread).imp_left
      (allFinite_iff_of_recordsOf hv).mp
    exact ⟨hfinite, v, hv, decodeRecords_write_iff hread hv⟩
  · obtain ⟨hsized, hfinite⟩ := decodeQuery_of_carries hbody hquery
    exact ⟨hfinite, decodeQuery_write_iff hsized⟩

/-- A text with a decimal and an integer in a list. -/
def boundedText : Text := "\x7b\"a\": [-0.0, 7]\x7d"

/-- The record of that text. -/
def boundedRecord : Entries := [("a", .list [.float (.ofRank true 0), .int 7])]

theorem finite_of_carries_bounded :
    (Value.text boundedText).Carries boundedText ∧ ¬ boundedText.HasOverflow ∧
      decodeRecords (.text boundedText) = .ok [boundedRecord] ∧
      decodeQuery (.text boundedText) = .ok boundedRecord ∧
      (∀ r ∈ [boundedRecord], (Value.map r).AllFinite) ∧
      (∃ v, recordsOf v = .ok [boundedRecord] ∧
        ∃ again, decodeRecords (.text (Json.write v)) = .ok again) ∧
      ∃ again, decodeQuery (.text (Json.write (.map boundedRecord))) = .ok again := by
  have hcarries : (Value.text boundedText).Carries boundedText := .inl rfl
  have hbounded : ¬ boundedText.HasOverflow := by decide +kernel
  have hrecords : decodeRecords (.text boundedText) = .ok [boundedRecord] := by cbv
  have hquery : decodeQuery (.text boundedText) = .ok boundedRecord := by cbv
  obtain ⟨hrecordsFinite, hqueryFinite⟩ := finite_of_carries hcarries
  obtain ⟨hfinite, v, hv, hwritten⟩ := hrecordsFinite _ hrecords
  have hfinite := hfinite.resolve_right hbounded
  obtain ⟨hexpression, hresent⟩ := hqueryFinite _ hquery
  exact ⟨hcarries, hbounded, hrecords, hquery, hfinite, ⟨v, hv, hwritten.mp hfinite⟩,
    hresent.mp (hexpression.resolve_right hbounded)⟩

/-- A text with a number beyond the greatest. -/
def beyondText : Text := "\x7b\"a\": 1e400\x7d"

/-- The record of that text. -/
def beyondRecord : Entries := [("a", .float (.infinite false))]

/-- The decimal is rounded to an infinity, and no name is refused. -/
theorem read_beyondText : Json.read false beyondText = .ok (.map beyondRecord) := by
  have hinfinite : Binary64.ofDecimal false 1 400 = .infinite false := by decide
  have hnumber : Json.readValue false 989 24 6 [49, 101, 52, 48, 48, 125] =
      .ok ⟨.float (.infinite false), 11, [125]⟩ := by
    have hatom : Json.readValue false 989 24 6 ([49, 101, 52, 48, 48] ++ [125]) =
        Json.readAtom false 6 [49, 101, 52, 48, 48, 125] :=
      Json.readValue_atom rfl (by decide) (by decide) (by decide)
    rw [← hinfinite]
    exact hatom
  have hkey : Json.readString 1 24 [] 2 [97, 34, 58, 32, 49, 101, 52, 48, 48, 125] =
      .ok ⟨"a", 4, [58, 32, 49, 101, 52, 48, 48, 125]⟩ := rfl
  have hfields : Json.readFields false 989 25 [] 1
      [34, 97, 34, 58, 32, 49, 101, 52, 48, 48, 125] = .ok ⟨.map beyondRecord, 12, []⟩ :=
    Json.readFields_last hkey rfl rfl hnumber
  have hobject : Json.readValue false Json.depthLimit 26 0 beyondText.codes =
      .ok ⟨.map beyondRecord, 12, []⟩ := (Json.readValue_object _).trans hfields
  unfold Json.read
  rw [Json.readCodes_all rfl (by decide) hobject]

/-- A record and a query with a decimal that overflows are accepted, and refused when they are
written. -/
theorem infinite_of_beyond :
    decodeRecords (.text beyondText) = .ok [beyondRecord] ∧
      decodeQuery (.text beyondText) = .ok beyondRecord ∧
      ¬ (Value.map beyondRecord).AllFinite ∧
      decodeRecords (.text (Json.write (.map beyondRecord))) =
        .error (.request (.undecodable (.constant "Infinity"))) ∧
      decodeQuery (.text (Json.write (.map beyondRecord))) =
        .error (.filter (.undecodable (.constant "Infinity"))) := by
  have hwritten : Json.write (.map beyondRecord) = "\x7b\"a\": Infinity\x7d" := by decide
  rw [hwritten]
  refine ⟨?_, ?_, fun h => ?_, by cbv, by cbv⟩
  · unfold decodeRecords decodeJson decodeText
    dsimp only
    rw [read_beyondText]
    rfl
  · rw [decodeQuery_eq]
    unfold decodeQueryValue decodeQueryText decodeText
    dsimp only
    rw [read_beyondText]
    rfl
  · cases Value.allFinite_map_iff.mpr h _ (List.mem_singleton_self _) with
    | float hx => cases hx

end ScanCatalog
