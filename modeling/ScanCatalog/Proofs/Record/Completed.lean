import ScanCatalog.Proofs.Record.Reflexive

/-!
# Records that are split and completed

Splitting a record and completing it loses nothing. The parts share a sid that is a number, so
they can be put together again, and what comes of it is the record with that sid and with the
positions of its motors as floats, in another order of the keys.

## Main definitions

* `Entries.HasFloats`: the motors of a record as floats;
* `Entries.Equals`: equality of mappings, for which what is the same counts as equal.

## Main statements

* `motorsOf_hasFloats`: the motors that are split off;
* `Entries.erase_append_perm_set`: an entry that is taken out and put in again;
* `complete_decompose`: what is split and completed.
-/

namespace ScanCatalog

/-- The entry of a motor with its position as a float. -/
def IsFloatOf (motor float : Value × Value) : Prop :=
  float.1 = motor.1 ∧ ∃ x, motor.2.toReal = .ok x ∧ float.2 = .float x

namespace Entries

/-- The motors of a record with their positions as floats, none if there is no mapping. -/
def HasFloats (record floats : Entries) : Prop :=
  match record.get motorsKey with
  | .map motors => List.Forall₂ IsFloatOf motors floats
  | _ => floats = []

/-- Under each key there is a value in both mappings or in neither, and the values are equal or
the same. What is not a number is the same as itself, though not equal. -/
def Equals (entries others : Entries) : Prop :=
  ∀ t, Option.Rel (fun v w => v = w ∨ v.same w = true) (entries.get? (.text t))
    (others.get? (.text t))

variable {entries : Entries}

/-- An entry that is taken out and put in at the end is one that is put in its place. -/
theorem erase_append_perm_set (hdistinct : entries.Distinct) (t : Text) (value : Value) :
    (entries.erase (.text t) ++ [(Value.text t, value)]).Perm (entries.set (.text t) value) := by
  induction entries with
  | nil => exact .refl _
  | cons e rest ih =>
    obtain ⟨k, v⟩ := e
    obtain ⟨hfirst, hrest⟩ := List.pairwise_cons.mp hdistinct
    by_cases hkey : (Value.text t).same k = true
    · obtain rfl := Value.text_same_iff.mp hkey
      have hnot : has rest (.text t) = false := by
        refine has_text_eq_false_iff.mpr fun e he hsame => ?_
        have hdifferent := hfirst e he
        rw [hsame, Value.same_text_self] at hdifferent
        cases hdifferent
      rw [erase_cons, if_pos hkey, erase_of_not_has hnot, set, if_pos hkey]
      exact List.perm_append_singleton _ _
    · rw [erase_cons, if_neg hkey, set, if_neg hkey]
      exact (ih hrest).cons _

end Entries

/-! ### The motors -/

/-- Motors are split off under the same mnemonics, in the same order. -/
theorem positionsOf_floats {taken entries positions : Entries} (htexts : entries.TextKeys)
    (hdistinct : Entries.Distinct (taken ++ entries))
    (h : positionsOf taken entries = .ok positions) :
    ∃ floats, positions = taken ++ floats ∧ List.Forall₂ IsFloatOf entries floats := by
  induction entries generalizing taken with
  | nil =>
    cases h
    exact ⟨[], (List.append_nil _).symm, .nil⟩
  | cons motor rest ih =>
    obtain ⟨mnemonic, position⟩ := motor
    obtain ⟨⟨t, ht⟩, hrest⟩ := List.forall_mem_cons.mp htexts
    cases ht
    cases hx : position.toReal with
    | error fault => simp [positionsOf, hx] at h
    | ok x =>
      have hnew : Entries.has taken (.text t) = false := Entries.has_eq_false_iff.mpr fun e he =>
        (List.pairwise_append.mp hdistinct).2.2 e he _ List.mem_cons_self
      simp only [positionsOf, hx, Value.display_text, Entries.set_of_not_has hnew] at h
      have hkept : Entries.Distinct ((taken ++ [(.text t, .float x)]) ++ rest) := by
        refine Entries.distinct_of_keys_eq ?_ hdistinct
        simp [Entries.keys]
      obtain ⟨floats, rfl, hfloats⟩ := ih hrest hkept h
      exact ⟨(.text t, .float x) :: floats, by simp, .cons ⟨rfl, x, hx, rfl⟩ hfloats⟩

theorem motorsOf_hasFloats {record floats : Entries} (hjson : (record.get motorsKey).IsJson)
    (h : motorsOf record = .ok floats) : record.HasFloats floats := by
  simp only [motorsOf] at h
  unfold Entries.HasFloats
  generalize record.get motorsKey = motors at hjson h
  cases motors with
  | map motors =>
    cases hjson with
    | map htexts hdistinct _ =>
      cases motors with
      | nil =>
        cases h
        exact .nil
      | cons motor rest =>
        obtain ⟨positions, rfl, hpositions⟩ :=
          positionsOf_floats htexts (show Entries.Distinct ([] ++ _) from hdistinct) h
        exact hpositions
  | _ =>
    dsimp only at h ⊢
    split at h <;> cases h
    rfl

/-! ### The two parts and the whole -/

variable {record document : Entries} {motorRecord : MotorRecord} {clock clock' : SidClock}

/-- The document is the record with its sid, without the motors. -/
theorem documentOf_eq_erase (record : Entries) (sid : Binary64) :
    documentOf record sid = (record.set sidKey (.float sid)).erase motorsKey :=
  (Entries.erase_set_of_ne record (by decide) _).symm

theorem has_motors_documentOf (record : Entries) (sid : Binary64) :
    (documentOf record sid).has motorsKey = false := by
  rw [documentOf_eq_erase, Entries.has_erase_self]

theorem get_sid_documentOf (record : Entries) (sid : Binary64) :
    (documentOf record sid).get sidKey = .float sid := by
  simp [documentOf, Entries.get]

/-- The parts of a record with a sid that is a number are put together, with the motors last. -/
theorem complete_documentOf {sid : Binary64} (hsid : sid.same sid = true) (floats : Entries) :
    complete (documentOf record sid) ⟨.float sid, floats⟩ =
      .ok ((record.set sidKey (.float sid)).erase motorsKey ++ [(motorsKey, .map floats)]) := by
  have hsame : ((documentOf record sid).get sidKey).same (.float sid) = true := by
    rw [get_sid_documentOf]
    exact hsid
  simp only [complete, hsame, ↓reduceIte,
    Entries.set_of_not_has (has_motors_documentOf record sid)]
  rw [documentOf_eq_erase]

/-- The floats of floats are themselves. -/
theorem eq_of_floats {motors floats : Entries} (h : List.Forall₂ IsFloatOf motors floats)
    (hmotors : ∀ motor ∈ motors, ∃ x, motor.2 = .float x) : floats = motors := by
  induction h with
  | nil => rfl
  | @cons motor float _ _ hfloat _ ih =>
    obtain ⟨⟨x, hx⟩, hrest⟩ := List.forall_mem_cons.mp hmotors
    obtain ⟨hkey, y, hy, hvalue⟩ := hfloat
    rw [hx] at hy
    cases hy
    rw [ih hrest, Prod.ext hkey (hvalue.trans hx.symm)]

/-- A record is equal to one with an equal sid, and with motors that are its own. -/
theorem Entries.equals_of_perm {completed motors : Entries} {sid : Binary64}
    (hcompleted : completed.Perm ((record.set sidKey (.float sid)).set motorsKey (.map motors)))
    (htexts : record.TextKeys) (hdistinct : record.Distinct)
    (hsid : (Value.float sid).same (record.get sidKey) = true)
    (hmotors : record.get motorsKey = .map motors) : completed.Equals record := by
  have hwholeTexts : ((record.set sidKey (.float sid)).set motorsKey (.map motors)).TextKeys :=
    (htexts.set "sid" _).set "motors" _
  have hwhole : ((record.set sidKey (.float sid)).set motorsKey (.map motors)).Distinct :=
    (hdistinct.set _ _).set _ _
  intro t
  rw [get?_perm hwhole hwholeTexts hcompleted.symm]
  by_cases ht : t = "motors"
  · subst ht
    rw [get?_set_self]
    cases hget : record.get? (.text "motors") with
    | none => simp [get, hget] at hmotors
    | some v =>
      have hv : v = .map motors := by simpa [get, hget] using hmotors
      exact .some (.inl hv.symm)
  rw [get?_set_of_ne fun h => ht (Value.text.inj h).symm]
  by_cases hts : t = "sid"
  · subst hts
    rw [get?_set_self]
    cases hget : record.get? (.text "sid") with
    | none =>
      simp only [get, hget] at hsid
      cases hsid
    | some v =>
      have hv : (Value.float sid).same v = true := by simpa [get, hget] using hsid
      exact .some (.inr hv)
  rw [get?_set_of_ne fun h => hts (Value.text.inj h).symm]
  cases record.get? (.text t) with
  | none => exact .none
  | some v => exact .some (.inl rfl)

/-- Splitting a record and completing it gives the record with its sid and with its motors as
floats, in another order of the keys. That is equal to a record that has this sid and such motors
already. The record itself stays, as all that is made of it is made anew. -/
theorem complete_decompose (hjson : (Value.map record).IsJson)
    (h : (decompose record).run clock = (.ok (document, motorRecord), clock')) :
    document.has motorsKey = false ∧
    ∃ (sid : Binary64) (floats completed : Entries), sid.same sid = true ∧
      document.get sidKey = .float sid ∧ motorRecord.sid = .float sid ∧
      record.HasFloats floats ∧ complete document motorRecord = .ok completed ∧
      completed.Perm ((record.set sidKey (.float sid)).set motorsKey (.map floats)) ∧
      ((Value.float sid).same (record.get sidKey) = true →
        (∃ motors, record.get motorsKey = .map motors ∧
          ∀ motor ∈ motors, ∃ x, motor.2 = .float x) → completed.Equals record) := by
  obtain ⟨sid, floats, hsid, hmotors, rfl, rfl⟩ := decompose_eq_ok.mp h
  have hreal := same_self_of_deriveSid hsid
  have hfloats := motorsOf_hasFloats (hjson.get "motors") hmotors
  have hset : (record.set sidKey (.float sid)).Distinct := hjson.distinctKeys.set _ _
  have hperm := Entries.erase_append_perm_set hset "motors" (.map floats)
  refine ⟨has_motors_documentOf record sid, sid, floats, _, hreal, get_sid_documentOf record sid,
    rfl, hfloats, complete_documentOf hreal floats, hperm, ?_⟩
  rintro hsame ⟨motors, hmap, hall⟩
  simp only [Entries.HasFloats, hmap] at hfloats
  obtain rfl := eq_of_floats hfloats hall
  exact Entries.equals_of_perm hperm hjson.texts hjson.distinctKeys hsame hmap

/-- A record with an integer for a sid, which its start time is equal to. -/
def zeroRecord : Entries :=
  [("sid", .int 0), ("motors", .map [("samx", .float .zero)]), ("start_time", .float .zero)]

theorem complete_decompose_zeroRecord : (Value.map zeroRecord).IsJson ∧
    ∃ document motorRecord clock' completed,
      (decompose zeroRecord).run (.ofReadings []) = (.ok (document, motorRecord), clock') ∧
      complete document motorRecord = .ok completed ∧ completed.Equals zeroRecord := by
  have hmotors : (Value.map [("samx", .float .zero)]).IsJson :=
    .map (List.forall_mem_singleton.mpr ⟨_, rfl⟩) (List.pairwise_singleton _ _)
      (List.forall_mem_singleton.mpr (.float _))
  have hjson : (Value.map zeroRecord).IsJson := by
    refine .map ?_ (by unfold Entries.Distinct; decide) ?_
    · simp [zeroRecord, Entries.TextKeys]
    · simp only [zeroRecord, List.forall_mem_cons]
      exact ⟨.int 0, hmotors, .float _, nofun⟩
  obtain ⟨document, motorRecord, clock', h⟩ : ∃ document motorRecord clock',
      (decompose zeroRecord).run (.ofReadings []) = (.ok (document, motorRecord), clock') :=
    ⟨_, _, _, rfl⟩
  obtain ⟨-, sid, floats, completed, -, hget, -, -, hcompleted, -, hequals⟩ :=
    complete_decompose hjson h
  cases h
  cases hget
  refine ⟨hjson, _, _, _, completed, rfl, hcompleted, hequals (by decide +kernel) ⟨_, rfl, ?_⟩⟩
  exact List.forall_mem_singleton.mpr ⟨_, rfl⟩

end ScanCatalog
