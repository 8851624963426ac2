import ScanCatalog.Proofs.Motor.Holdings
import ScanCatalog.Proofs.Value.Updates

/-!
# Records of selected rows

The rows of a selection, scan by scan, make the records of the scans again. A scan gives a row for
each position of its motors, a row without a position for a motor that has none, and one row
without a motor if it has none at all. All rows of a sid make one record, with the motors that
have a position.

## Main definitions

* `RowGroup`: a sid with the mnemonics and positions of its rows;
* `Tables.placedMotors`, `Tables.recordOf`: the motors of a scan that have a position, and its
  record;
* `Tables.Fits`: tables whose rows hold what their columns are for.

## Main statements

* `groupRows_flatMap`: the records of the rows of several scans;
* `Tables.Fits.groupRows_select`: the records of a selection.
-/

namespace ScanCatalog

/-- The entries that have both a key and a value. -/
def Entries.filled (entries : Entries) : Entries :=
  entries.filter fun e => !(e.1.isNull || e.2.isNull)

/-- The rows of a scan: its sid, with the mnemonic and the position in each. -/
structure RowGroup where
  sid : Binary64
  motors : Entries

namespace RowGroup

/-- The rows of a group. -/
def rows (g : RowGroup) : List (List Value) := g.motors.map fun e => [.float g.sid, e.1, e.2]

/-- The record of a group of rows. -/
def record (g : RowGroup) : MotorRecord := ⟨.float g.sid, .ofPairs g.motors.filled⟩

end RowGroup

/-! ### Adding rows -/

/-- An entry of a row: a mnemonic that can be a key, or null, with a number or null. -/
structure IsRowEntry (e : Value × Value) : Prop where
  key : e.1.isHashable = true
  position : e.2 = .null ∨ ∃ x, e.2 = .float x

variable {records : List (Value × MotorRecord)} {x : Binary64} {e : Value × Value}

/-- The motor of a row is its entry, if that is filled. -/
theorem IsRowEntry.rowMotor?_eq (h : IsRowEntry e) :
    rowMotor? e.1 e.2 = .ok (if e.1.isNull || e.2.isNull then none else some e) := by
  obtain ⟨key, position⟩ := e
  obtain ⟨hkey, rfl | ⟨x, rfl⟩⟩ := h
  · unfold rowMotor?
    dsimp only
    rw [Value.isNull, Bool.or_true, if_pos rfl, if_pos rfl]
  · unfold rowMotor?
    dsimp only at hkey ⊢
    rw [hkey]
    cases key.isNull <;> rfl

theorem withMotor_filled (sid : Value) (motors : Entries) (e : Value × Value) :
    (MotorRecord.mk sid motors).withMotor (if e.1.isNull || e.2.isNull then none else some e) =
      ⟨sid, motors.update (Entries.filled [e])⟩ := by
  unfold Entries.filled
  rw [List.filter_cons, List.filter_nil]
  cases e.1.isNull || e.2.isNull <;> rfl

theorem addRow_float (h : IsRowEntry e) (records : List (Value × MotorRecord)) (x : Binary64) :
    addRow records [.float x, e.1, e.2] =
      if records.any fun r => (Value.float x).same r.1 then
        .ok (records.map fun r => if (Value.float x).same r.1 then
          (r.1, ⟨r.2.sid, r.2.motors.update (Entries.filled [e])⟩) else r)
      else .ok (records ++ [(.float x, ⟨.float x, .ofPairs (Entries.filled [e])⟩)]) := by
  unfold addRow
  rw [rowParts, Outcome.ok_bind]
  dsimp only [Value.isHashable]
  rw [h.rowMotor?_eq]
  cases records.any fun r => (Value.float x).same r.1 with
  | false => exact congrArg (fun r => Except.ok (records ++ [(_, r)])) (withMotor_filled ..)
  | true =>
    refine congrArg Except.ok (List.map_congr_left fun r _ => ?_)
    rw [← withMotor_filled]

/-- A row of a new sid makes a new record. -/
theorem addRow_new (h : IsRowEntry e)
    (hnew : ∀ r ∈ records, (Value.float x).same r.1 = false) :
    addRow records [.float x, e.1, e.2] =
      .ok (records ++ [(.float x, ⟨.float x, .ofPairs (Entries.filled [e])⟩)]) := by
  have hany : (records.any fun r => (Value.float x).same r.1) = false :=
    List.any_eq_false.mpr fun r hr => Bool.eq_false_iff.mp (hnew r hr)
  rw [addRow_float h, hany]
  rfl

/-- A further row of a sid goes into the record of the sid. -/
theorem addRow_last (h : IsRowEntry e) (hnew : ∀ r ∈ records, (Value.float x).same r.1 = false)
    (hx : x.same x = true) (sid : Value) (motors : Entries) :
    addRow (records ++ [(Value.float x, ⟨sid, motors⟩)]) [.float x, e.1, e.2] =
      .ok (records ++ [(Value.float x, ⟨sid, motors.update (Entries.filled [e])⟩)]) := by
  have hsame : (Value.float x).same (.float x) = true := hx
  have hany : ((records ++ [(Value.float x, MotorRecord.mk sid motors)]).any
      fun r => (Value.float x).same r.1) = true := by
    rw [List.any_append, List.any_cons, hsame, Bool.true_or, Bool.or_true]
  have hmap : records.map (fun r => if (Value.float x).same r.1 then
      (r.1, MotorRecord.mk r.2.sid (r.2.motors.update (Entries.filled [e]))) else r) = records := by
    refine (List.map_congr_left fun r hr => ?_).trans (List.map_id' records)
    rw [if_neg (Bool.eq_false_iff.mp (hnew r hr))]
  rw [addRow_float h, hany, if_pos rfl, List.map_append, hmap, List.map_singleton, if_pos hsame]

/-! ### Groups of rows -/

/-- The motors of a sid go into its record one after the other. -/
theorem foldlM_addRow_last {entries : Entries} (hentries : ∀ e ∈ entries, IsRowEntry e)
    (hnew : ∀ r ∈ records, (Value.float x).same r.1 = false) (hx : x.same x = true) (sid : Value)
    (motors : Entries) :
    (entries.map fun e => [Value.float x, e.1, e.2]).foldlM addRow
        (records ++ [(Value.float x, ⟨sid, motors⟩)]) =
      .ok (records ++ [(Value.float x, ⟨sid, motors.update entries.filled⟩)]) := by
  induction entries generalizing motors with
  | nil => rfl
  | cons e rest ih =>
    obtain ⟨he, hrest⟩ := List.forall_mem_cons.mp hentries
    have hfilled : Entries.filled (e :: rest) = Entries.filled [e] ++ Entries.filled rest :=
      List.filter_append [e] rest
    rw [List.map_cons, List.foldlM_cons, addRow_last he hnew hx, Outcome.ok_bind, ih hrest,
      hfilled]
    exact congrArg (fun m => Except.ok (records ++ [(_, MotorRecord.mk sid m)]))
      (List.foldl_append ..).symm

/-- A group of rows: the sid is a number, and there is a row. -/
structure RowGroup.Sound (g : RowGroup) : Prop where
  sid : g.sid.same g.sid = true
  motors : g.motors ≠ []
  entries : ∀ e ∈ g.motors, IsRowEntry e

/-- The rows of a new sid make its record. -/
theorem RowGroup.Sound.foldlM_addRow {g : RowGroup} (hg : g.Sound)
    (hnew : ∀ r ∈ records, (Value.float g.sid).same r.1 = false) :
    g.rows.foldlM addRow records = .ok (records ++ [(Value.float g.sid, g.record)]) := by
  obtain ⟨x, entries⟩ := g
  cases entries with
  | nil => exact absurd rfl hg.motors
  | cons e rest =>
    obtain ⟨he, hrest⟩ := List.forall_mem_cons.mp hg.entries
    have hfilled : Entries.filled (e :: rest) = Entries.filled [e] ++ Entries.filled rest :=
      List.filter_append [e] rest
    change ((e :: rest).map fun e => [Value.float x, e.1, e.2]).foldlM addRow records = _
    rw [List.map_cons, List.foldlM_cons, addRow_new he hnew, Outcome.ok_bind,
      foldlM_addRow_last hrest hnew hg.sid, record, hfilled]
    exact congrArg (fun m => Except.ok (records ++ [(_, MotorRecord.mk _ m)]))
      (List.foldl_append ..).symm

theorem foldlM_addRow_flatMap {groups : List RowGroup} (hsound : ∀ g ∈ groups, g.Sound)
    (hsids : groups.Pairwise fun g g' => g.sid.same g'.sid = false)
    (hnew : ∀ g ∈ groups, ∀ r ∈ records, (Value.float g.sid).same r.1 = false) :
    (groups.flatMap RowGroup.rows).foldlM addRow records =
      .ok (records ++ groups.map fun g => (Value.float g.sid, g.record)) := by
  induction groups generalizing records with
  | nil =>
    rw [List.map_nil, List.append_nil]
    rfl
  | cons g rest ih =>
    obtain ⟨hg, hsound⟩ := List.forall_mem_cons.mp hsound
    obtain ⟨hgrest, hsids⟩ := List.pairwise_cons.mp hsids
    obtain ⟨hgnew, hnew⟩ := List.forall_mem_cons.mp hnew
    have hrest : ∀ g' ∈ rest, ∀ r ∈ records ++ [(Value.float g.sid, g.record)],
        (Value.float g'.sid).same r.1 = false := by
      intro g' hg' r hr
      rcases List.mem_append.mp hr with hr | hr
      · exact hnew g' hg' r hr
      · rw [List.mem_singleton.mp hr, Value.same_float, Binary64.same_comm]
        exact hgrest g' hg'
    rw [List.flatMap_cons, List.foldlM_append, hg.foldlM_addRow hgnew, Outcome.ok_bind,
      ih hsound hsids hrest, List.map_cons, List.append_assoc]
    rfl

/-- The rows of several scans make a record of each. -/
theorem groupRows_flatMap {groups : List RowGroup} (hsound : ∀ g ∈ groups, g.Sound)
    (hsids : groups.Pairwise fun g g' => g.sid.same g'.sid = false) :
    groupRows (groups.flatMap RowGroup.rows) = .ok (groups.map RowGroup.record) := by
  unfold groupRows
  rw [foldlM_addRow_flatMap hsound hsids (by simp), Outcome.ok_bind, List.nil_append,
    Outcome.pure_eq_ok, List.map_map]
  rfl

/-! ### Rows of the tables -/

/-- What a text column holds that is not null. -/
def Cell.IsName (cell : Cell) : Prop := (∃ t, cell = .text t) ∨ ∃ octets, cell = .blob octets

/-- The number in a cell of a number column. -/
def Cell.number : Cell → Binary64
  | .real x => x
  | _ => .nan

namespace Tables

/-- The positions of a motor that are not null, in order. -/
def placesOf (tables : Tables) (motorId : Nat) : List Value :=
  ((tables.positionsOf motorId).map fun p => p.position.toValue).filter fun v => !v.isNull

/-- The motors of a scan that have a position that is not null, in order. Of several positions of
a motor the last counts. -/
def placedMotors (tables : Tables) (scanId : Nat) : Entries :=
  (tables.mnemonicsOf scanId).filterMap fun m =>
    (tables.placesOf m.motorId).getLast?.map fun v => (m.mnemonic.toValue, v)

/-- The record of a scan. -/
def recordOf (tables : Tables) (s : ScanRow) : MotorRecord :=
  ⟨s.sid.toValue, tables.placedMotors s.scanId⟩

/-- The scans whose sid is one of some, in order. -/
def scansOf (tables : Tables) (sids : List Value) : List ScanRow :=
  tables.scans.filter fun s => sids.any fun sid => s.sid.toValue.same sid

/-- Tables whose rows hold what their columns are for. The numbers of scans ascend, and no two
have the same sid, which is a number; a mnemonic has one row in a scan; a position is a number or
null. A scan may have no motors, and a motor no position. -/
structure Fits (tables : Tables) : Prop where
  scanIds : tables.scans.Pairwise fun s t => s.scanId < t.scanId
  sid : ∀ s ∈ tables.scans, ∃ x : Binary64, x.same x = true ∧ s.sid = .real x
  sids : tables.scans.Pairwise fun s t => s.sid.same t.sid = false
  name : ∀ m ∈ tables.mnemonics, m.mnemonic.IsName
  names : tables.mnemonics.Pairwise fun m n =>
    m.scanId.same n.scanId = true → m.mnemonic.same n.mnemonic = false
  position : ∀ p ∈ tables.positions, p.position = .null ∨ ∃ x, p.position = .real x

/-- The mnemonics and positions in the rows of a motor. -/
def motorEntries (tables : Tables) (m : MnemonicRow) : Entries :=
  match tables.positionsOf m.motorId with
  | [] => [(m.mnemonic.toValue, .null)]
  | positions => positions.map fun p => (m.mnemonic.toValue, p.position.toValue)

/-- The mnemonics and positions in the rows of a scan. -/
def rowEntries (tables : Tables) (scanId : Nat) : Entries :=
  match tables.mnemonicsOf scanId with
  | [] => [(.null, .null)]
  | mnemonics => mnemonics.flatMap tables.motorEntries

/-- The rows of a scan, as a group. -/
def groupOf (tables : Tables) (s : ScanRow) : RowGroup :=
  ⟨s.sid.number, tables.rowEntries s.scanId⟩

end Tables

/-- Two cells that hold the same row number hold the same. -/
theorem Cell.same_of_same_int {a b : Cell} {i : Int} (ha : a.same (.int i) = true)
    (hb : b.same (.int i) = true) : a.same b = true := by
  have hquantity : ∀ {cell : Cell}, cell.same (.int i) = true →
      cell.quantity? = (Cell.int i).quantity? := by
    intro cell h
    unfold same at h
    cases hcell : cell.quantity? with
    | none =>
      rw [hcell] at h
      cases h
    | some p =>
      rw [hcell] at h
      exact congrArg some (Quantity.same_iff.mp h).1
  unfold same
  rw [hquantity ha, hquantity hb]
  exact Quantity.same_iff.mpr ⟨rfl, nofun⟩

namespace Cell.IsName

variable {cell : Cell}

theorem same_self (h : cell.IsName) : cell.toValue.same cell.toValue = true := by
  rcases h with ⟨t, rfl⟩ | ⟨octets, rfl⟩
  · exact Value.same_text_self t
  · exact beq_self_eq_true octets

theorem isNull_toValue (h : cell.IsName) : cell.toValue.isNull = false := by
  rcases h with ⟨t, rfl⟩ | ⟨octets, rfl⟩ <;> rfl

theorem isHashable_toValue (h : cell.IsName) : cell.toValue.isHashable = true := by
  rcases h with ⟨t, rfl⟩ | ⟨octets, rfl⟩ <;> rfl

/-- Names are equal as cells and as values. -/
theorem same_toValue (h : cell.IsName) {other : Cell} (hother : other.IsName) :
    cell.toValue.same other.toValue = other.same cell := by
  rcases h with ⟨s, rfl⟩ | ⟨s, rfl⟩ <;> rcases hother with ⟨t, rfl⟩ | ⟨t, rfl⟩
  · exact Bool.beq_comm
  · rfl
  · rfl
  · exact Bool.beq_comm

end Cell.IsName

namespace Tables

variable {tables : Tables}

theorem motorEntries_ne_nil (tables : Tables) (m : MnemonicRow) : tables.motorEntries m ≠ [] := by
  unfold motorEntries
  cases tables.positionsOf m.motorId with
  | nil => exact List.cons_ne_nil _ _
  | cons p rest => exact List.cons_ne_nil _ _

theorem rowEntries_ne_nil (tables : Tables) (scanId : Nat) : tables.rowEntries scanId ≠ [] := by
  unfold rowEntries
  cases tables.mnemonicsOf scanId with
  | nil => exact List.cons_ne_nil _ _
  | cons m rest =>
    dsimp only
    rw [List.flatMap_cons]
    exact List.append_ne_nil_of_left_ne_nil (tables.motorEntries_ne_nil m) _

theorem map_positionRows (tables : Tables) (sid : Cell) (m : MnemonicRow) :
    (tables.positionRows sid m).map (fun row => row.map Cell.toValue) =
      (tables.motorEntries m).map fun e => [sid.toValue, e.1, e.2] := by
  unfold positionRows motorEntries
  cases tables.positionsOf m.motorId with
  | nil => rfl
  | cons p rest =>
    dsimp only
    rw [List.map_map, List.map_map]
    rfl

/-- The rows of a scan hold its sid and its entries. -/
theorem map_motorRows (tables : Tables) (s : ScanRow) :
    (tables.motorRows s).map (fun row => row.map Cell.toValue) =
      (tables.rowEntries s.scanId).map fun e => [s.sid.toValue, e.1, e.2] := by
  unfold motorRows rowEntries
  cases tables.mnemonicsOf s.scanId with
  | nil => rfl
  | cons m rest =>
    dsimp only
    rw [List.map_flatMap, List.map_flatMap]
    exact List.flatMap_congr fun m _ => tables.map_positionRows s.sid m

/-- Of the entries of a motor those with its positions are filled. -/
theorem filled_motorEntries (tables : Tables) {m : MnemonicRow} (hm : m.mnemonic.IsName) :
    (tables.motorEntries m).filled =
      (tables.placesOf m.motorId).map fun v => (m.mnemonic.toValue, v) := by
  unfold motorEntries placesOf Entries.filled
  cases tables.positionsOf m.motorId with
  | nil =>
    rw [List.filter_cons_of_neg (by simp [Value.isNull])]
    rfl
  | cons p rest =>
    dsimp only
    rw [List.filter_map, List.filter_map, List.map_map]
    refine congrArg _ (List.filter_congr fun p _ => ?_)
    simp only [Function.comp_apply, hm.isNull_toValue, Bool.false_or]

namespace Fits

theorem isName (h : tables.Fits) {scanId : Nat} {m : MnemonicRow}
    (hm : m ∈ tables.mnemonicsOf scanId) : m.mnemonic.IsName :=
  h.name m (List.mem_filter.mp hm).1

/-- The mnemonics of a scan come once. -/
theorem names_mnemonicsOf (h : tables.Fits) (scanId : Nat) :
    (tables.mnemonicsOf scanId).Pairwise fun m n => m.mnemonic.same n.mnemonic = false := by
  refine (h.names.filter _).imp_of_mem fun hm hn hmn => hmn ?_
  exact Cell.same_of_same_int (List.mem_filter.mp hm).2 (List.mem_filter.mp hn).2

theorem isRowEntry_of_motorEntries (h : tables.Fits) {m : MnemonicRow} (hm : m.mnemonic.IsName)
    {e : Value × Value} (he : e ∈ tables.motorEntries m) : IsRowEntry e := by
  unfold motorEntries at he
  split at he
  · rw [List.mem_singleton.mp he]
    exact ⟨hm.isHashable_toValue, .inl rfl⟩
  · obtain ⟨p, hp, rfl⟩ := List.mem_map.mp he
    refine ⟨hm.isHashable_toValue, ?_⟩
    rcases h.position p (List.mem_filter.mp hp).1 with hnull | ⟨x, hx⟩
    · exact .inl (congrArg Cell.toValue hnull)
    · exact .inr ⟨x, congrArg Cell.toValue hx⟩

theorem isRowEntry (h : tables.Fits) {scanId : Nat} {e : Value × Value}
    (he : e ∈ tables.rowEntries scanId) : IsRowEntry e := by
  unfold rowEntries at he
  split at he
  · rw [List.mem_singleton.mp he]
    exact ⟨rfl, .inl rfl⟩
  · obtain ⟨m, hm, he⟩ := List.mem_flatMap.mp he
    exact h.isRowEntry_of_motorEntries (h.isName hm) he

/-- The filled entries of a scan make its motors with positions. -/
theorem ofPairs_rowEntries (h : tables.Fits) (scanId : Nat) :
    Entries.ofPairs (tables.rowEntries scanId).filled = tables.placedMotors scanId := by
  have hself : ∀ m ∈ tables.mnemonicsOf scanId,
      m.mnemonic.toValue.same m.mnemonic.toValue = true := fun m hm => (h.isName hm).same_self
  have hdistinct : (tables.mnemonicsOf scanId).Pairwise fun m n =>
      n.mnemonic.toValue.same m.mnemonic.toValue = false := by
    refine (h.names_mnemonicsOf scanId).imp_of_mem fun {m n} hm hn hmn => ?_
    rw [(h.isName hn).same_toValue (h.isName hm)]
    exact hmn
  have hfilled : (tables.rowEntries scanId).filled =
      (tables.mnemonicsOf scanId).flatMap fun m =>
        (tables.placesOf m.motorId).map fun v => (m.mnemonic.toValue, v) := by
    have hname : ∀ m ∈ tables.mnemonicsOf scanId, m.mnemonic.IsName := fun m hm => h.isName hm
    unfold rowEntries
    revert hname
    cases tables.mnemonicsOf scanId with
    | nil => exact fun _ => rfl
    | cons m rest =>
      intro hname
      dsimp only
      unfold Entries.filled
      rw [List.filter_flatMap]
      exact List.flatMap_congr fun m hm => tables.filled_motorEntries (hname m hm)
  rw [hfilled, Entries.ofPairs,
    Entries.update_flatMap (fun m => tables.placesOf m.motorId) hself hdistinct fun _ _ => rfl,
    List.nil_append]
  rfl

/-- The rows of a scan are a group. -/
theorem group_sound (h : tables.Fits) {s : ScanRow} (hs : s ∈ tables.scans) :
    (tables.groupOf s).Sound where
  sid := by
    obtain ⟨x, hx, hsid⟩ := h.sid s hs
    unfold groupOf
    rw [hsid]
    exact hx
  motors := tables.rowEntries_ne_nil s.scanId
  entries := fun _ he => h.isRowEntry he

theorem map_motorRows (h : tables.Fits) {s : ScanRow} (hs : s ∈ tables.scans) :
    (tables.motorRows s).map (fun row => row.map Cell.toValue) = (tables.groupOf s).rows := by
  obtain ⟨x, -, hsid⟩ := h.sid s hs
  rw [Tables.map_motorRows, RowGroup.rows, groupOf, hsid]
  rfl

theorem record_groupOf (h : tables.Fits) {s : ScanRow} (hs : s ∈ tables.scans) :
    (tables.groupOf s).record = tables.recordOf s := by
  obtain ⟨x, -, hsid⟩ := h.sid s hs
  rw [RowGroup.record, recordOf, ← h.ofPairs_rowEntries, groupOf, hsid]
  rfl

/-- The rows of the scans that satisfy a condition make their records. -/
theorem groupRows_select (h : tables.Fits) (condition : ScanRow → Bool) :
    groupRows (tables.select condition) =
      .ok ((tables.scans.filter condition).map tables.recordOf) := by
  have hmem : ∀ s ∈ tables.scans.filter condition, s ∈ tables.scans :=
    fun s hs => (List.mem_filter.mp hs).1
  have hselect : tables.select condition =
      ((tables.scans.filter condition).map tables.groupOf).flatMap RowGroup.rows := by
    unfold select
    rw [List.map_flatMap, List.flatMap_map]
    exact List.flatMap_congr fun s hs => h.map_motorRows (hmem s hs)
  have hsound : ∀ g ∈ (tables.scans.filter condition).map tables.groupOf, g.Sound := by
    intro g hg
    obtain ⟨s, hs, rfl⟩ := List.mem_map.mp hg
    exact h.group_sound (hmem s hs)
  have hsids : ((tables.scans.filter condition).map tables.groupOf).Pairwise
      fun g g' => g.sid.same g'.sid = false := by
    refine List.pairwise_map.mpr ((h.sids.filter _).imp_of_mem fun {s t} hs ht hst => ?_)
    obtain ⟨x, -, hx⟩ := h.sid s (hmem s hs)
    obtain ⟨y, -, hy⟩ := h.sid t (hmem t ht)
    rw [hx, hy] at hst
    unfold groupOf
    rw [hx, hy]
    exact hst
  rw [hselect, groupRows_flatMap hsound hsids, List.map_map]
  exact congrArg Except.ok (List.map_congr_left fun s hs => h.record_groupOf (hmem s hs))

end Fits

end Tables

/-! ### Rows of what the tables hold -/

namespace Holdings

variable {h : Holdings}

theorem Sound.toTables_fits (hs : h.Sound) : h.toTables.Fits where
  scanIds := List.pairwise_map.mpr hs.scanIds
  sid := List.forall_mem_map.mpr fun s hmem => ⟨s.sid, hs.sid_same s hmem, rfl⟩
  sids := List.pairwise_map.mpr hs.sids
  name := List.forall_mem_map.mpr fun m _ => .inl ⟨m.mnemonic, rfl⟩
  names := by
    refine List.pairwise_map.mpr (hs.mnemonics.imp fun {m n} hmn hscan => ?_)
    have hscan : (Cell.int m.scanId).same (.int n.scanId) = true := hscan
    rw [same_int, decide_eq_true_eq] at hscan
    exact beq_false_of_ne (hmn hscan)
  position := List.forall_mem_map.mpr fun m _ => .inr ⟨m.position, rfl⟩

theorem Sound.placedMotors_toTables (hs : h.Sound) (scanId : Nat) :
    h.toTables.placedMotors scanId = (h.positionsOf scanId).toEntries := by
  unfold Tables.placedMotors Holdings.positionsOf Positions.toEntries
  rw [mnemonicsOf_toTables, List.filterMap_map, List.map_map, ← List.filterMap_eq_map]
  refine List.filterMap_congr fun m hm => ?_
  have hmotor : h.toTables.positionsOf m.toMnemonic.motorId = [m.toPosition] :=
    hs.positionsOf_toTables (List.mem_filter.mp hm).1
  rw [Function.comp_apply, Tables.placesOf, hmotor]
  rfl

/-- The records of the scans that satisfy a condition. -/
theorem Sound.recordsWhere_toTables (hs : h.Sound) (condition : ScanRow → Bool) :
    (h.toTables.scans.filter condition).map h.toTables.recordOf =
      (h.scans.filter fun s => condition s.toRow).map h.recordOf := by
  have hscans : h.toTables.scans.filter condition =
      (h.scans.filter fun s => condition s.toRow).map StoredScan.toRow := List.filter_map ..
  rw [hscans, List.map_map]
  refine List.map_congr_left fun s _ => ?_
  rw [Function.comp_apply, Tables.recordOf]
  exact congrArg (MotorRecord.mk _) (hs.placedMotors_toTables s.scanId)

/-- The rows of the scans that satisfy a condition make their records. -/
theorem Sound.groupRows_select (hs : h.Sound) (condition : ScanRow → Bool) :
    groupRows (h.toTables.select condition) =
      .ok ((h.scans.filter fun s => condition s.toRow).map h.recordOf) := by
  rw [hs.toTables_fits.groupRows_select condition, hs.recordsWhere_toTables]

end Holdings

end ScanCatalog
