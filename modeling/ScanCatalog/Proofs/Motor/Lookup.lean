import ScanCatalog.Proofs.Motor.History

/-!
# Scans looked up by their sids

A question for sids is a lookup of scans, whatever rows the tables hold. Each scan with one of the
sids gives one record, in the order of the scans, with the motors that have a position; a scan
without motors gives one too. How often and in which order the sids are named does not matter, but
no more of them may be different than a statement can have parameters.

## Main statements

* `Tables.mem_keys_placedMotors`: the motors of a record;
* `Session.On.finds_scansOf`: the records that are found, and the motors that they have.
-/

namespace ScanCatalog

open MotorStore

theorem Cell.isNull_toValue (cell : Cell) : cell.toValue.isNull = cell.isNull := by
  cases cell <;> rfl

namespace Tables

variable {tables : Tables}

/-- Naming sids again, or in another order, names the same scans. -/
theorem scansOf_congr {sids others : List Value} (h : ∀ v, v ∈ others ↔ v ∈ sids) :
    tables.scansOf others = tables.scansOf sids := by
  refine List.filter_congr fun s _ => ?_
  rw [Bool.eq_iff_iff, List.any_eq_true, List.any_eq_true]
  exact exists_congr fun v => and_congr_left fun _ => h v

theorem Fits.scanIds_scansOf (h : tables.Fits) (sids : List Value) :
    (tables.scansOf sids).Pairwise fun s t => s.scanId < t.scanId := h.scanIds.filter _

theorem mem_placesOf {motorId : Nat} {v : Value} :
    v ∈ tables.placesOf motorId ↔
      ∃ p ∈ tables.positionsOf motorId, p.position.isNull = false ∧ p.position.toValue = v := by
  unfold placesOf
  rw [List.mem_filter, List.mem_map]
  constructor
  · rintro ⟨⟨p, hp, rfl⟩, hnull⟩
    refine ⟨p, hp, ?_, rfl⟩
    rwa [Cell.isNull_toValue, Bool.not_eq_true'] at hnull
  · rintro ⟨p, hp, hnull, rfl⟩
    refine ⟨⟨p, hp, rfl⟩, ?_⟩
    rw [Cell.isNull_toValue, hnull]
    rfl

/-- The motors of a record are the mnemonics of the scan that have a position. -/
theorem mem_keys_placedMotors {scanId : Nat} {key : Value} :
    key ∈ (tables.placedMotors scanId).keys ↔
      ∃ m ∈ tables.mnemonicsOf scanId, m.mnemonic.toValue = key ∧
        ∃ p ∈ tables.positionsOf m.motorId, p.position.isNull = false := by
  unfold placedMotors Entries.keys
  rw [List.mem_map]
  constructor
  · rintro ⟨e, he, rfl⟩
    obtain ⟨m, hm, hlast⟩ := List.mem_filterMap.mp he
    obtain ⟨v, hv, rfl⟩ := Option.map_eq_some_iff.mp hlast
    obtain ⟨p, hp, hnull, -⟩ := mem_placesOf.mp (List.mem_of_getLast? hv)
    exact ⟨m, hm, rfl, p, hp, hnull⟩
  · rintro ⟨m, hm, rfl, p, hp, hnull⟩
    have hne : tables.placesOf m.motorId ≠ [] :=
      List.ne_nil_of_mem (mem_placesOf.mpr ⟨p, hp, hnull, rfl⟩)
    refine ⟨(m.mnemonic.toValue, (tables.placesOf m.motorId).getLast hne), ?_, rfl⟩
    refine List.mem_filterMap.mpr ⟨m, hm, ?_⟩
    rw [List.getLast?_eq_some_getLast hne]
    rfl

end Tables

namespace Session

variable {session : Session TableServer} {c : TableConnection}

/-- A question for sids finds the records of the scans that have one of them, in the order of the
row numbers, each with the mnemonics of its scan that have a position. So does the same question
with the sids in another order or more often. Sids of which more are different than a statement
can have parameters are refused. -/
theorem On.finds_scansOf (config : MotorsConfig) (hon : session.On c) (hready : c.Ready)
    (hfits : c.working.Fits) {sids : List Value} (hsids : ∀ v ∈ sids, v.IsSid) :
    (c.working.scansOf sids).Pairwise (fun s t => s.scanId < t.scanId) ∧
      (∀ s ∈ c.working.scans, ∀ key, key ∈ (c.working.recordOf s).motors.keys ↔
        ∃ m ∈ c.working.mnemonicsOf s.scanId, m.mnemonic.toValue = key ∧
          ∃ p ∈ c.working.positionsOf m.motorId, p.position.isNull = false) ∧
      ∀ others : List Value, (∀ v, v ∈ others ↔ v ∈ sids) →
        ∃ session', ((onTables config).bySids others).run session =
          (if sidCount sids ≤ Statement.parameterLimit then
            .ok ((c.working.scansOf sids).map c.working.recordOf)
          else .error tooManySids, session') := by
  refine ⟨hfits.scanIds_scansOf sids, fun s _ key => Tables.mem_keys_placedMotors,
    fun others hothers => ?_⟩
  have hreal : ∀ v ∈ others, v.IsReal := fun v hv => (hsids v ((hothers v).mp hv)).isReal
  rw [← sidCount_congr hsids hothers, ← Tables.scansOf_congr hothers]
  by_cases hcount : sidCount others ≤ Statement.parameterLimit
  · obtain ⟨session', c', hrun, -⟩ := hon.bySids config hready hfits hreal hcount
    rw [if_pos hcount]
    exact ⟨session', hrun⟩
  · obtain ⟨session', hrun, -⟩ :=
      hon.bySids_tooMany config hready hreal (Nat.lt_of_not_le hcount)
    rw [if_neg hcount]
    exact ⟨session', hrun⟩

/-- The sid of a scan with gaps. -/
def gappedSid : Binary64 := .ofRank false 0x3FF0000000000000

/-- Tables of a scan without motors, and of one with a motor whose position is null, a motor
without a position and a motor with one. -/
def gappedTables : Tables where
  scans := [⟨1, .real .zero⟩, ⟨3, .real gappedSid⟩]
  mnemonics := [⟨1, .int 3, .text "samx"⟩, ⟨2, .int 3, .text "samy"⟩, ⟨4, .int 3, .text "samz"⟩]
  positions := [⟨.int 1, .null⟩, ⟨.int 4, .real .zero⟩]

/-- A connection to these tables. -/
def gappedConnection : TableConnection where
  storage := .memory
  made := true
  working := gappedTables

/-- A session on the connection. -/
def gapped : Session TableServer :=
  ⟨true, { TableServer.inMemory with connection := some gappedConnection }⟩

theorem gappedTables_fits : gappedTables.Fits where
  scanIds := by decide
  sid := List.forall_mem_cons.mpr ⟨⟨_, by decide, rfl⟩,
    List.forall_mem_singleton.mpr ⟨_, by decide +kernel, rfl⟩⟩
  sids := by decide +kernel
  name := by
    simp only [gappedTables, List.forall_mem_cons]
    exact ⟨.inl ⟨_, rfl⟩, .inl ⟨_, rfl⟩, .inl ⟨_, rfl⟩, List.forall_mem_nil _⟩
  names := by decide +kernel
  position := List.forall_mem_cons.mpr ⟨.inl rfl, List.forall_mem_singleton.mpr (.inr ⟨_, rfl⟩)⟩

theorem finds_scansOf_gapped :
    gapped.On gappedConnection ∧ gappedConnection.Ready ∧ gappedTables.Fits ∧ ∃ session',
      ((onTables .inMemory).bySids [.float gappedSid, .float .zero, .float gappedSid]).run gapped =
        (.ok [⟨.float .zero, []⟩, ⟨.float gappedSid, [("samz", .float .zero)]⟩], session') := by
  have hon : gapped.On gappedConnection := ⟨rfl, rfl⟩
  have hready : gappedConnection.Ready := ⟨by decide, rfl, rfl⟩
  have hsids : ∀ v ∈ [Value.float gappedSid, .float .zero], v.IsSid :=
    List.forall_mem_cons.mpr ⟨⟨_, rfl, by decide +kernel⟩,
      List.forall_mem_singleton.mpr ⟨_, rfl, by decide⟩⟩
  have hrecords : (gappedTables.scansOf [.float gappedSid, .float .zero]).map
      gappedTables.recordOf =
        [⟨.float .zero, []⟩, ⟨.float gappedSid, [("samz", .float .zero)]⟩] := by decide +kernel
  have hcount : sidCount [.float gappedSid, .float .zero] ≤ Statement.parameterLimit := by
    decide +kernel
  obtain ⟨-, -, hfinds⟩ := hon.finds_scansOf .inMemory hready gappedTables_fits hsids
  obtain ⟨session', hrun⟩ := hfinds [.float gappedSid, .float .zero, .float gappedSid] (by grind)
  have hworking : gappedConnection.working = gappedTables := rfl
  rw [if_pos hcount, hworking, hrecords] at hrun
  exact ⟨hon, hready, gappedTables_fits, session', hrun⟩

/-- A question for a quarter of a million sids gets no answer, although a scan has one of them. -/
theorem bySids_wholeSids :
    ∃ c, oneScan.On c ∧ c.Ready ∧ c.working.Fits ∧
      c.working.records = [⟨.float .zero, [("b", .float .zero)]⟩] ∧
      Value.float .zero ∈ wholeSids 250001 ∧
      (∀ v ∈ wholeSids 250001, ∃ x : Binary64, v = .float x ∧ x.isFinite = true) ∧
      ∃ session', ((onTables .inMemory).bySids (wholeSids 250001)).run oneScan =
        (.error tooManySids, session') := by
  obtain ⟨h, ⟨c, hon, hc⟩, hrecords⟩ := oneScan_stores.shows
  have hsound : h.Sound := hc.holds.sound
  have hworking : c.working = h.toTables := hc.holds.working
  have hzero : wholeSid 0 = .zero := by decide +kernel
  have hmem : Value.float (wholeSid 0) ∈ wholeSids 250001 :=
    List.mem_map_of_mem (List.mem_range.mpr (by decide))
  have hbound : 250001 ≤ Binary64.exactBound := by decide
  have hfinite : ∀ v ∈ wholeSids 250001, ∃ x : Binary64, v = .float x ∧ x.isFinite = true :=
    List.forall_mem_map.mpr fun n hn => ⟨_, rfl, isFinite_wholeSid
      (Nat.le_trans (Nat.le_of_lt (List.mem_range.mp hn)) hbound)⟩
  have hcount : Statement.parameterLimit < sidCount (wholeSids 250001) := by
    rw [sidCount_wholeSids hbound]
    decide
  refine ⟨c, hon, hc.holds.ready, hworking ▸ hsound.toTables_fits, ?_, hzero ▸ hmem, hfinite, ?_⟩
  · rw [hworking, hsound.records_toTables, hrecords]
  · obtain ⟨session', hrun, -⟩ := hon.bySids_tooMany .inMemory hc.holds.ready
      (fun v hv => (hfinite v hv).imp fun _ h => h.1) hcount
    exact ⟨session', hrun⟩

end Session

end ScanCatalog
