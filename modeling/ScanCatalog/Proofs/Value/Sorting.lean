import ScanCatalog.Proofs.Action.Outcome
import ScanCatalog.Value.Sorting

/-!
# Sorting texts

Any two texts have an order, so putting texts in order does not stop.

## Main statements

* `Value.sort_texts`: texts can be put in order.
-/

namespace ScanCatalog.Value

/-- All values are texts. -/
def AreTexts (values : List Value) : Prop := ∀ v ∈ values, ∃ t, v = .text t

variable {values rest sorted : List Value} {v : Value} {t : Text}

theorem AreTexts.append (h : AreTexts values) (hrest : AreTexts rest) :
    AreTexts (values ++ rest) := fun v hv => (List.mem_append.mp hv).elim (h v) (hrest v)

theorem AreTexts.cons (t : Text) (h : AreTexts values) : AreTexts (.text t :: values) :=
  List.forall_mem_cons.mpr ⟨⟨t, rfl⟩, h⟩

theorem continueRun_texts (falling : Bool) (last : Text) (h : AreTexts values) :
    ∃ run rest, continueRun falling (.text last) values = .ok (run, rest) ∧ AreTexts run ∧
      AreTexts rest := by
  induction values generalizing last with
  | nil => exact ⟨[], [], rfl, nofun, nofun⟩
  | cons v values ih =>
    obtain ⟨⟨t, rfl⟩, hvalues⟩ := List.forall_mem_cons.mp h
    unfold continueRun
    rw [compare_texts, Outcome.ok_bind]
    by_cases hfalling : (Comparison.less.ofCodes t.codes last.codes == falling) = true
    · obtain ⟨run, rest, hrun, hrunTexts, hrest⟩ := ih t hvalues
      rw [if_pos hfalling, hrun]
      exact ⟨.text t :: run, rest, rfl, hrunTexts.cons t, hrest⟩
    · rw [if_neg hfalling]
      exact ⟨[], .text t :: values, rfl, nofun, h⟩

theorem firstRun_texts (h : AreTexts values) :
    ∃ run rest, firstRun values = .ok (run, rest) ∧ AreTexts run ∧ AreTexts rest := by
  match values, h with
  | [], _ => exact ⟨[], [], rfl, nofun, nofun⟩
  | [v], h => exact ⟨[v], [], rfl, h, nofun⟩
  | a :: b :: values, h =>
    obtain ⟨⟨s, rfl⟩, htail⟩ := List.forall_mem_cons.mp h
    obtain ⟨⟨t, rfl⟩, hvalues⟩ := List.forall_mem_cons.mp htail
    obtain ⟨run, rest, hrun, hrunTexts, hrest⟩ :=
      continueRun_texts (Comparison.less.ofCodes t.codes s.codes) t hvalues
    have hwhole : AreTexts (.text s :: .text t :: run) := (hrunTexts.cons t).cons s
    unfold firstRun
    dsimp only
    rw [compare_texts, Outcome.ok_bind, hrun, Outcome.ok_bind]
    refine ⟨_, rest, rfl, ?_, hrest⟩
    split
    · exact fun v hv => hwhole v (List.mem_reverse.mp hv)
    · exact hwhole

theorem insertionPlace_texts (t : Text) (low high : Nat) (h : AreTexts sorted) :
    ∃ place, insertionPlace sorted (.text t) low high = .ok place := by
  -- the induction is on the length of the part in which the place is known to lie
  induction hlength : high - low using Nat.strongRecOn generalizing low high with
  | _ length ih =>
    unfold insertionPlace
    by_cases hlow : low < high
    · obtain ⟨s, hs⟩ : ∃ s, sorted[low + (high - low) / 2]?.getD (.text t) = .text s := by
        cases hget : sorted[low + (high - low) / 2]? with
        | none => exact ⟨t, rfl⟩
        | some v => exact h v (List.mem_of_getElem? hget)
      rw [dif_pos hlow]
      dsimp only
      rw [hs, compare_texts]
      cases Comparison.less.ofCodes t.codes s.codes with
      | true => exact ih _ (by omega) low (low + (high - low) / 2) rfl
      | false => exact ih _ (by omega) (low + (high - low) / 2 + 1) high rfl
    · rw [dif_neg hlow]
      exact ⟨low, rfl⟩

theorem insertAll_texts (hsorted : AreTexts sorted) (h : AreTexts values) :
    ∃ all, insertAll sorted values = .ok all := by
  induction values generalizing sorted with
  | nil => exact ⟨sorted, rfl⟩
  | cons v values ih =>
    obtain ⟨⟨t, rfl⟩, hvalues⟩ := List.forall_mem_cons.mp h
    obtain ⟨place, hplace⟩ := insertionPlace_texts t 0 sorted.length hsorted
    unfold insertAll
    rw [hplace, Outcome.ok_bind]
    refine ih (AreTexts.append (fun v hv => hsorted v (List.mem_of_mem_take hv)) ?_) hvalues
    exact AreTexts.cons t fun v hv => hsorted v (List.mem_of_mem_drop hv)

/-- Texts can be put in order. -/
theorem sort_texts (h : AreTexts values) : ∃ sorted, sort values = .ok sorted := by
  obtain ⟨run, rest, hrun, hrunTexts, hrest⟩ := firstRun_texts h
  unfold sort
  rw [hrun, Outcome.ok_bind]
  exact insertAll_texts hrunTexts hrest

end ScanCatalog.Value
