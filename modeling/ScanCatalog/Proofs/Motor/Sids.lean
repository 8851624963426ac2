import Mathlib.Data.Finset.Card
import ScanCatalog.Motor.Store
import ScanCatalog.Proofs.Binary64.Equality
import ScanCatalog.Proofs.Binary64.Overflow
import ScanCatalog.Proofs.Motor.Compiled
import ScanCatalog.Proofs.Value.Numbers
import ScanCatalog.Sql.Limits

/-!
# Different sids

A question for sids leaves out those that come again. No two of the others are equal, and each sid
that was named is equal to one of them. So what decides how many are asked for is what the sids
amount to, and neither their order nor how often they are named.

## Main definitions

* `Value.IsSid`: numbers that are equal to themselves;
* `sidCount`: the number of different sids among some;
* `wholeSids`: as many different sids as one likes.

## Main statements

* `distinctSids_reals`: what is left of sids;
* `uniqueSids_eq`: sids that go up need not be compared;
* `sidCount_eq_card`: different sids amount to different quantities.
-/

namespace ScanCatalog

variable {taken sids others distinct : List Value} {low : Quantity}

/-- A number that is equal to itself. -/
def Value.IsSid (v : Value) : Prop := ∃ x : Binary64, v = .float x ∧ x.same x = true

theorem Value.IsSid.isReal {v : Value} (h : v.IsSid) : v.IsReal := by
  obtain ⟨x, rfl, -⟩ := h
  exact ⟨x, rfl⟩

/-- The number of different sids among some. -/
def sidCount (sids : List Value) : Nat :=
  match distinctSids [] sids with
  | .ok distinct => distinct.length
  | .error _ => 0

/-! ### What is left -/

theorem any_same_congr {x y : Binary64} (hxy : x.same y = true) (hsids : ∀ v ∈ sids, v.IsReal) :
    (sids.any fun v => (Value.float x).same v) = sids.any fun v => (Value.float y).same v := by
  rw [Bool.eq_iff_iff, List.any_eq_true, List.any_eq_true]
  refine exists_congr fun v => and_congr_right fun hv => ?_
  obtain ⟨z, rfl⟩ := hsids v hv
  rw [Value.same_float, Value.same_float, Binary64.same_congr_left hxy]

theorem length_le_of_distinctSids (h : distinctSids taken sids = .ok distinct) :
    taken.length ≤ distinct.length := by
  induction sids generalizing taken with
  | nil =>
    cases h
    exact Nat.le_refl _
  | cons sid rest ih =>
    unfold distinctSids at h
    split at h
    · cases h
    split at h
    · exact ih h
    · have hlength := ih h
      rw [List.length_append] at hlength
      exact Nat.le_of_add_right_le hlength

/-- Of some sids there is always one left. -/
theorem eq_nil_of_distinctSids (h : distinctSids [] sids = .ok []) : sids = [] := by
  cases sids with
  | nil => rfl
  | cons sid rest =>
    unfold distinctSids at h
    split at h
    · cases h
    · cases length_le_of_distinctSids h

/-- Leaving out the sids that come again takes no number away. -/
theorem distinctSids_reals (taken : List Value) (htaken : ∀ v ∈ taken, v.IsReal)
    (hsids : ∀ v ∈ sids, v.IsReal) :
    ∃ distinct, distinctSids taken sids = .ok distinct ∧ distinct.Sublist (taken ++ sids) ∧
      ∀ x : Binary64, (distinct.any fun v => (Value.float x).same v) =
        (taken ++ sids).any fun v => (Value.float x).same v := by
  induction sids generalizing taken with
  | nil =>
    rw [List.append_nil]
    exact ⟨taken, rfl, List.Sublist.refl _, fun _ => rfl⟩
  | cons sid rest ih =>
    obtain ⟨⟨y, rfl⟩, hrest⟩ := List.forall_mem_cons.mp hsids
    have hhashable : ¬ (!(Value.float y).isHashable) = true := Bool.false_ne_true
    unfold distinctSids
    rw [if_neg hhashable]
    by_cases hany : (taken.any fun s => (Value.float y).same s) = true
    · obtain ⟨distinct, hdistinct, hsublist, hsame⟩ := ih _ htaken hrest
      rw [if_pos hany]
      refine ⟨distinct, hdistinct,
        hsublist.trans ((List.sublist_cons_self _ rest).append_left taken), fun x => ?_⟩
      -- a sid that comes again adds nothing to those that were taken
      rw [hsame, List.any_append, List.any_append, List.any_cons]
      by_cases hxy : x.same y = true
      · rw [any_same_congr hxy htaken, hany, Bool.true_or, Bool.true_or]
      · rw [Value.same_float, Bool.eq_false_iff.mpr hxy, Bool.false_or]
    · have htaken' : ∀ v ∈ taken ++ [Value.float y], v.IsReal :=
        List.forall_mem_append.mpr ⟨htaken, List.forall_mem_singleton.mpr ⟨y, rfl⟩⟩
      obtain ⟨distinct, hdistinct, hsublist, hsame⟩ := ih _ htaken' hrest
      rw [List.append_assoc, List.singleton_append] at hsublist hsame
      rw [if_neg hany]
      exact ⟨distinct, hdistinct, hsublist, hsame⟩

/-- No two of the sids that are left are equal. -/
theorem pairwise_of_distinctSids (htaken : taken.Pairwise fun s t => t.same s = false)
    (h : distinctSids taken sids = .ok distinct) :
    distinct.Pairwise fun s t => t.same s = false := by
  induction sids generalizing taken with
  | nil =>
    cases h
    exact htaken
  | cons sid rest ih =>
    unfold distinctSids at h
    split at h
    · cases h
    split at h
    · exact ih htaken h
    · next hnew =>
      refine ih (List.pairwise_append.mpr ⟨htaken, List.pairwise_singleton _ _, ?_⟩) h
      intro s hs t ht
      rw [List.mem_singleton.mp ht]
      exact Bool.eq_false_iff.mpr fun hsame => hnew (List.any_eq_true.mpr ⟨s, hs, hsame⟩)

/-- All sids are left if no two of them are equal. -/
theorem distinctSids_of_pairwise (taken : List Value)
    (hhashable : ∀ v ∈ sids, v.isHashable = true)
    (hdifferent : (taken ++ sids).Pairwise fun s t => t.same s = false) :
    distinctSids taken sids = .ok (taken ++ sids) := by
  induction sids generalizing taken with
  | nil => rw [List.append_nil]; rfl
  | cons sid rest ih =>
    obtain ⟨hsid, hrest⟩ := List.forall_mem_cons.mp hhashable
    have hknown : ¬ (!sid.isHashable) = true := by rw [hsid]; exact Bool.false_ne_true
    have hnew : ¬ (taken.any fun s => sid.same s) = true := by
      rw [List.any_eq_true]
      rintro ⟨s, hs, hsame⟩
      cases hsame.symm.trans
        ((List.pairwise_append.mp hdifferent).2.2 s hs sid List.mem_cons_self)
    rw [List.append_cons] at hdifferent ⊢
    unfold distinctSids
    rw [if_neg hknown, if_neg hnew]
    exact ih _ hrest hdifferent

/-! ### Sids that go up -/

theorem less_of_sidsRise (h : sidsRise low sids = true) :
    ∀ v ∈ sids, ∃ quantity, v.quantity? = some quantity ∧ low.less quantity = true := by
  induction sids generalizing low with
  | nil => nofun
  | cons sid rest ih =>
    unfold sidsRise at h
    split at h
    · next quantity hquantity =>
      obtain ⟨hless, hrise⟩ := Bool.and_eq_true_iff.mp h
      refine List.forall_mem_cons.mpr ⟨⟨quantity, hquantity, hless⟩, fun v hv => ?_⟩
      obtain ⟨other, hother, habove⟩ := ih hrise v hv
      exact ⟨other, hother, Quantity.less_trans hless habove⟩
    · cases h

theorem pairwise_of_sidsRise (h : sidsRise low sids = true) :
    sids.Pairwise fun s t => t.same s = false := by
  induction sids generalizing low with
  | nil => exact List.Pairwise.nil
  | cons sid rest ih =>
    unfold sidsRise at h
    split at h
    · next quantity hquantity =>
      obtain ⟨-, hrise⟩ := Bool.and_eq_true_iff.mp h
      refine List.pairwise_cons.mpr ⟨fun v hv => ?_, ih hrise⟩
      obtain ⟨other, hother, hless⟩ := less_of_sidsRise hrise v hv
      rw [Value.number_same hother, hquantity, Option.any_some]
      -- a quantity above another is not the same
      refine Bool.eq_false_iff.mpr fun hsame => ?_
      rw [(Quantity.same_iff.mp hsame).1, Quantity.less_irrefl] at hless
      cases hless
    · cases h

theorem isHashable_of_sidsRise (h : sidsRise low sids = true) :
    ∀ v ∈ sids, v.isHashable = true := by
  intro v hv
  obtain ⟨quantity, hquantity, -⟩ := less_of_sidsRise h v hv
  cases v <;> first | rfl | cases hquantity

/-- Sids that go up need not be compared with each other. -/
theorem uniqueSids_eq (sids : List Value) : uniqueSids sids = distinctSids [] sids := by
  unfold uniqueSids
  split
  · next h =>
    exact (distinctSids_of_pairwise [] (isHashable_of_sidsRise h)
      (pairwise_of_sidsRise h)).symm
  · rfl

/-! ### Their number -/

theorem sidCount_of_distinctSids (h : distinctSids [] sids = .ok distinct) :
    sidCount sids = distinct.length := by
  unfold sidCount
  rw [h]

theorem sidCount_of_pairwise (hhashable : ∀ v ∈ sids, v.isHashable = true)
    (hdifferent : sids.Pairwise fun s t => t.same s = false) : sidCount sids = sids.length :=
  sidCount_of_distinctSids (distinctSids_of_pairwise [] hhashable hdifferent)

theorem sidCount_le_length (hsids : ∀ v ∈ sids, v.IsReal) : sidCount sids ≤ sids.length := by
  obtain ⟨distinct, hdistinct, hsublist, -⟩ := distinctSids_reals [] nofun hsids
  rw [sidCount_of_distinctSids hdistinct]
  exact hsublist.length_le

/-- One sid is not too many for a statement. -/
theorem sidCount_singleton_le (x : Binary64) :
    sidCount [.float x] ≤ Statement.parameterLimit :=
  calc
    sidCount [.float x] ≤ 1 := sidCount_le_length (List.forall_mem_singleton.mpr ⟨x, rfl⟩)
    _ ≤ Statement.parameterLimit := by decide

/-- There are as many different sids as quantities that they amount to. -/
theorem sidCount_eq_card (hsids : ∀ v ∈ sids, v.IsSid) :
    sidCount sids = (sids.map Value.quantity?).toFinset.card := by
  obtain ⟨distinct, hdistinct, hsublist, hsame⟩ :=
    distinctSids_reals [] nofun fun v hv => (hsids v hv).isReal
  have hleft : ∀ v ∈ distinct, v.IsSid := fun v hv => hsids v (hsublist.subset hv)
  have hnodup : (distinct.map Value.quantity?).Nodup := by
    refine List.pairwise_map.mpr ((pairwise_of_distinctSids List.Pairwise.nil hdistinct).imp_of_mem
      fun {s t} hs ht hdifferent heq => ?_)
    obtain ⟨x, rfl, hx⟩ := hleft s hs
    obtain ⟨y, rfl, -⟩ := hleft t ht
    rw [Value.same_float, Binary64.same, ← Option.some.inj heq] at hdifferent
    cases hdifferent.symm.trans hx
  have hquantities : (distinct.map Value.quantity?).toFinset =
      (sids.map Value.quantity?).toFinset := by
    ext quantity
    rw [List.mem_toFinset, List.mem_toFinset]
    refine ⟨fun h => (hsublist.map _).subset h, fun h => ?_⟩
    obtain ⟨v, hv, rfl⟩ := List.mem_map.mp h
    obtain ⟨x, rfl, hx⟩ := hsids v hv
    -- a sid that was left out is equal to one that is left
    have hany : (sids.any fun v => (Value.float x).same v) = true :=
      List.any_eq_true.mpr ⟨_, hv, hx⟩
    obtain ⟨w, hw, hxw⟩ := List.any_eq_true.mp ((hsame x).trans hany)
    obtain ⟨y, rfl, -⟩ := hleft w hw
    exact List.mem_map.mpr ⟨_, hw, congrArg some (Quantity.same_iff.mp hxw).1.symm⟩
  rw [sidCount_of_distinctSids hdistinct, ← hquantities, List.toFinset_card_of_nodup hnodup,
    List.length_map]

/-- Sids are as many as those among which they are, or fewer. -/
theorem sidCount_mono (hsids : ∀ v ∈ sids, v.IsSid) (h : others ⊆ sids) :
    sidCount others ≤ sidCount sids := by
  rw [sidCount_eq_card hsids, sidCount_eq_card fun v hv => hsids v (h hv)]
  refine Finset.card_le_card fun quantity hquantity => ?_
  rw [List.mem_toFinset] at hquantity ⊢
  exact List.map_subset _ h hquantity

/-- Naming sids again, or in another order, makes them no more and no fewer. -/
theorem sidCount_congr (hsids : ∀ v ∈ sids, v.IsSid) (h : ∀ v, v ∈ others ↔ v ∈ sids) :
    sidCount others = sidCount sids :=
  Nat.le_antisymm (sidCount_mono hsids fun _ hv => (h _).mp hv)
    (sidCount_mono (fun v hv => hsids v ((h v).mp hv)) fun _ hv => (h _).mpr hv)

/-! ### Whole numbers -/

/-- A whole number as a sid. -/
def wholeSid (n : Nat) : Binary64 := .ofRank false (Binary64.rankOfRatio n 1)

/-- The whole numbers up to one, which is left out, as sids. -/
def wholeSids (count : Nat) : List Value := (List.range count).map fun n => .float (wholeSid n)

theorem quantity_wholeSid {n : Nat} (hbound : n ≤ Binary64.exactBound) :
    (wholeSid n).quantity = .units (n * Binary64.unitsInOne : Nat) := by
  have hrank : Binary64.rankOfRatio n 1 < Binary64.rankBound := by
    by_contra h
    have hlarge := Binary64.overflowBound_mul_le_of_rankOfRatio (Nat.not_lt.mp h)
    have hsmall : Binary64.exactBound < Binary64.overflowBound * 1 := by decide +kernel
    omega
  unfold wholeSid Binary64.ofRank
  rw [dif_pos hrank, Binary64.quantity, Binary64.unitsOfRank_whole hbound]

theorem isFinite_wholeSid {n : Nat} (hbound : n ≤ Binary64.exactBound) :
    (wholeSid n).isFinite = true :=
  Binary64.isFinite_iff.mpr ⟨_, quantity_wholeSid hbound⟩

theorem same_wholeSid_of_lt {m n : Nat} (hlt : m < n) (hbound : n ≤ Binary64.exactBound) :
    (wholeSid n).same (wholeSid m) = false := by
  unfold Binary64.same
  rw [quantity_wholeSid hbound, quantity_wholeSid (Nat.le_trans (Nat.le_of_lt hlt) hbound)]
  refine beq_false_of_ne fun heq => Nat.ne_of_gt hlt ?_
  exact Nat.eq_of_mul_eq_mul_right (twoTo_pos 1074) (Int.ofNat.inj heq)

theorem isHashable_of_mem_wholeSids {count : Nat} :
    ∀ v ∈ wholeSids count, v.isHashable = true :=
  List.forall_mem_map.mpr fun _ _ => rfl

/-- Whole numbers of up to 53 bits are all different. -/
theorem sidCount_wholeSids {count : Nat} (hbound : count ≤ Binary64.exactBound) :
    sidCount (wholeSids count) = count := by
  have hdifferent : (wholeSids count).Pairwise fun s t => t.same s = false := by
    refine List.pairwise_map.mpr (List.pairwise_lt_range.imp_of_mem fun {m n} _ hn hlt => ?_)
    exact same_wholeSid_of_lt hlt (Nat.le_trans (Nat.le_of_lt (List.mem_range.mp hn)) hbound)
  rw [sidCount_of_pairwise isHashable_of_mem_wholeSids hdifferent, wholeSids, List.length_map,
    List.length_range]

end ScanCatalog
