import ScanCatalog.Filter.Parser

/-!
# Outcomes of steps that can fail

What steps in a row amount to: a result comes of a result of each step, and a fault of
the first step that fails.

## Main statements

* `Outcome.bind_eq_ok`, `Outcome.bind_eq_error`: two steps in a row;
* `Outcome.mapM_cons_eq_ok`, `Outcome.mapM_isOk_iff`, `Outcome.mapM_filter`: a step for each
  item of a list;
* `Outcome.failsAs_bind_iff`, `Outcome.failsAs_mapM_iff`: which faults they may have;
* `liftValue_eq_ok`, `liftFilter_eq_ok`: steps of values and of filters.
-/

namespace ScanCatalog

namespace Outcome

variable {ε α β : Type}

@[simp] theorem ok_bind (a : α) (f : α → Except ε β) : ((Except.ok a : Except ε α) >>= f) = f a :=
  rfl

@[simp] theorem error_bind (fault : ε) (f : α → Except ε β) :
    ((Except.error fault : Except ε α) >>= f) = .error fault := rfl

@[simp] theorem pure_eq_ok (a : α) : (Pure.pure a : Except ε α) = .ok a := rfl

theorem bind_eq_ok {x : Except ε α} {f : α → Except ε β} {b : β} :
    (x >>= f) = .ok b ↔ ∃ a, x = .ok a ∧ f a = .ok b := by
  cases x <;> simp

theorem bind_eq_error {x : Except ε α} {f : α → Except ε β} {fault : ε} :
    (x >>= f) = .error fault ↔ x = .error fault ∨ ∃ a, x = .ok a ∧ f a = .error fault := by
  cases x <;> simp

theorem map_eq_ok {x : Except ε α} {f : α → β} {b : β} :
    x.map f = .ok b ↔ ∃ a, x = .ok a ∧ f a = b := by
  cases x <;> simp [Except.map]

theorem mapM_cons_eq_ok {f : α → Except ε β} {a : α} {rest : List α} {bs : List β} :
    (a :: rest).mapM f = .ok bs ↔
      ∃ b cs, f a = .ok b ∧ rest.mapM f = .ok cs ∧ bs = b :: cs := by
  rw [List.mapM_cons, bind_eq_ok]
  constructor
  · rintro ⟨b, hb, h⟩
    obtain ⟨cs, hcs, h⟩ := bind_eq_ok.mp h
    cases h
    exact ⟨b, cs, hb, hcs, rfl⟩
  · rintro ⟨b, cs, hb, hcs, rfl⟩
    exact ⟨b, hb, by rw [hcs]; rfl⟩

/-- Each result of a step for each item is that of one of the items. -/
theorem exists_of_mapM_eq_ok {f : α → Except ε β} {items : List α} {bs : List β}
    (h : items.mapM f = .ok bs) {b : β} (hb : b ∈ bs) : ∃ a ∈ items, f a = .ok b := by
  induction items generalizing bs with
  | nil => cases h; cases hb
  | cons a rest ih =>
    obtain ⟨c, cs, hc, hcs, rfl⟩ := mapM_cons_eq_ok.mp h
    rcases List.mem_cons.mp hb with rfl | hb
    · exact ⟨a, List.mem_cons_self, hc⟩
    · obtain ⟨a, ha, h⟩ := ih hcs hb
      exact ⟨a, List.mem_cons_of_mem _ ha, h⟩

/-- The result of each item is among the results. -/
theorem mem_of_mapM_eq_ok {f : α → Except ε β} {items : List α} {bs : List β}
    (h : items.mapM f = .ok bs) {a : α} (ha : a ∈ items) {b : β} (hb : f a = .ok b) : b ∈ bs := by
  induction items generalizing bs with
  | nil => cases ha
  | cons a' rest ih =>
    obtain ⟨c, cs, hc, hcs, rfl⟩ := mapM_cons_eq_ok.mp h
    rcases List.mem_cons.mp ha with rfl | ha
    · cases hb.symm.trans hc
      exact List.mem_cons_self
    · exact List.mem_cons_of_mem _ (ih hcs ha)

theorem forall_of_mapM_eq_ok {f : α → Except ε β} {property : β → Prop} {items : List α}
    {bs : List β} (h : items.mapM f = .ok bs)
    (hf : ∀ a b, f a = .ok b → property b) : ∀ b ∈ bs, property b := by
  intro b hb
  obtain ⟨a, -, ha⟩ := exists_of_mapM_eq_ok h hb
  exact hf a b ha

/-- Steps whose results tell what they were taken for tell all of it. -/
theorem map_of_mapM_eq_ok {f : α → Except ε β} {g : β → α} (hf : ∀ a b, f a = .ok b → g b = a)
    {items : List α} {bs : List β} (h : items.mapM f = .ok bs) : bs.map g = items := by
  induction items generalizing bs with
  | nil =>
    cases h
    rfl
  | cons a rest ih =>
    obtain ⟨b, cs, hb, hcs, rfl⟩ := mapM_cons_eq_ok.mp h
    rw [List.map_cons, hf a b hb, ih hcs]

/-- A step for each item gives results just if it does for every item alone. -/
theorem mapM_isOk_iff {f : α → Except ε β} {items : List α} :
    (∃ bs, items.mapM f = .ok bs) ↔ ∀ a ∈ items, ∃ b, f a = .ok b := by
  induction items with
  | nil => exact iff_of_true ⟨[], rfl⟩ nofun
  | cons a rest ih =>
    rw [List.forall_mem_cons, ← ih]
    constructor
    · rintro ⟨bs, h⟩
      obtain ⟨b, cs, hb, hcs, -⟩ := mapM_cons_eq_ok.mp h
      exact ⟨⟨b, hb⟩, cs, hcs⟩
    · rintro ⟨⟨b, hb⟩, cs, hcs⟩
      exact ⟨b :: cs, mapM_cons_eq_ok.mpr ⟨b, cs, hb, hcs, rfl⟩⟩

/-- Steps for some of the items give those of the results. -/
theorem mapM_filter {f : α → Except ε β} {p : α → Bool} {q : β → Bool}
    (hf : ∀ a b, f a = .ok b → q b = p a) {items : List α} {bs : List β}
    (h : items.mapM f = .ok bs) : (items.filter p).mapM f = .ok (bs.filter q) := by
  induction items generalizing bs with
  | nil =>
    cases h
    rfl
  | cons a rest ih =>
    obtain ⟨b, cs, hb, hcs, rfl⟩ := mapM_cons_eq_ok.mp h
    rw [List.filter_cons, List.filter_cons, hf a b hb]
    split
    · exact mapM_cons_eq_ok.mpr ⟨b, _, hb, ih hcs, rfl⟩
    · exact ih hcs

/-- Steps for items fail at one of them. -/
theorem exists_of_mapM_eq_error {f : α → Except ε β} {items : List α} {fault : ε}
    (h : items.mapM f = .error fault) : ∃ a ∈ items, f a = .error fault := by
  induction items with
  | nil => cases h
  | cons a rest ih =>
    rw [List.mapM_cons] at h
    rcases bind_eq_error.mp h with h | ⟨b, -, h⟩
    · exact ⟨a, List.mem_cons_self, h⟩
    · rcases bind_eq_error.mp h with h | ⟨bs, -, h⟩
      · obtain ⟨a, ha, h⟩ := ih h
        exact ⟨a, List.mem_cons_of_mem _ ha, h⟩
      · cases h

/-! ### Faults of a kind -/

/-- There is no fault but those of a kind. -/
def FailsAs (kind : ε → Prop) (x : Except ε α) : Prop := ∀ fault, x = .error fault → kind fault

variable {kind : ε → Prop}

@[simp] theorem failsAs_ok (a : α) : FailsAs kind (.ok a) := nofun

@[simp] theorem failsAs_error_iff {fault : ε} :
    FailsAs kind (.error fault : Except ε α) ↔ kind fault := by
  simp [FailsAs]

theorem failsAs_bind_iff {x : Except ε α} {f : α → Except ε β} :
    FailsAs kind (x >>= f) ↔ FailsAs kind x ∧ ∀ a, x = .ok a → FailsAs kind (f a) := by
  cases x <;> simp

/-- Of the steps for some items, the first that fails counts. -/
theorem failsAs_mapM_iff {f : α → Except ε β} {items : List α} :
    FailsAs kind (items.mapM f) ↔ ∀ before a after, items = before ++ a :: after →
      (∀ b ∈ before, ∃ c, f b = .ok c) → FailsAs kind (f a) := by
  induction items with
  | nil => simp
  | cons a rest ih =>
    rw [List.mapM_cons, failsAs_bind_iff]
    constructor
    · rintro ⟨ha, hrest⟩ before a' after hsplit hbefore
      cases before with
      | nil =>
        cases hsplit
        exact ha
      | cons b before =>
        cases hsplit
        obtain ⟨⟨c, hc⟩, hbefore⟩ := List.forall_mem_cons.mp hbefore
        exact ih.mp (failsAs_bind_iff.mp (hrest c hc)).1 before a' after rfl hbefore
    · intro h
      refine ⟨h [] a rest rfl nofun, fun b hb => failsAs_bind_iff.mpr ⟨?_, fun bs _ => nofun⟩⟩
      refine ih.mpr fun before a' after hsplit hbefore => ?_
      exact h (a :: before) a' after (by rw [hsplit, List.cons_append])
        (List.forall_mem_cons.mpr ⟨⟨b, hb⟩, hbefore⟩)

end Outcome

variable {α : Type}

@[simp] theorem liftValue_ok (a : α) : liftValue (.ok a) = .ok a := rfl

@[simp] theorem liftValue_error (fault : ValueFault) :
    (liftValue (.error fault) : Except Fault α) = .error (.value fault) := rfl

theorem liftValue_eq_ok {x : Except ValueFault α} {a : α} : liftValue x = .ok a ↔ x = .ok a := by
  cases x <;> simp

theorem liftValue_eq_error {x : Except ValueFault α} {fault : Fault} :
    liftValue x = .error fault ↔ ∃ cause, x = .error cause ∧ fault = .value cause := by
  cases x <;> simp [liftValue, eq_comm]

theorem liftValue_bind {β : Type} (x : Except ValueFault α) (f : α → Except ValueFault β) :
    liftValue (x >>= f) = liftValue x >>= fun a => liftValue (f a) := by
  cases x <;> rfl

theorem liftFilter_eq_ok {x : Except FilterFault α} {a : α} : liftFilter x = .ok a ↔ x = .ok a := by
  cases x <;> simp [liftFilter]

end ScanCatalog
