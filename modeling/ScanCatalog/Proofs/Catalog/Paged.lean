import ScanCatalog.Proofs.Catalog.Search

/-!
# Searches by pages

A page is cut from the documents before they are completed, so it can be shorter than its
limit. Completing keeps the order and what is left of each document does not depend on the
others, so the pages of a search, put together, are what the search finds without paging.

## Main definitions

* `Catalog.pages`: the pages of a search, one after the other.

## Main statements

* `Catalog.Completes.pages`: what some pages have together;
* `Catalog.searchExpression_pages`: all pages have what is found.
-/

namespace ScanCatalog

open ScanCatalog.Action MotorStore

namespace Catalog

/-- So many pages of a search from an offset on, each of the same size, put together. -/
def pages {σ α : Type} (search : Int → Int → Action σ (List α)) (size : Nat) :
    (count offset : Nat) → Action σ (List α)
  | 0, _ => Pure.pure []
  | count + 1, offset => do
    let page ← search offset size
    return page ++ (← pages search size count (offset + size))

/-- A page is what a limit leaves of the items from an offset on. -/
theorem slice_natCast {α : Type} (items : List α) (offset : Nat) {size : Nat} (hsize : 0 < size) :
    slice items offset size = (items.drop offset).take size := by
  have hposition : ∀ length i : Nat, positionIn length i = i := by
    intro length i
    unfold positionIn
    rw [if_neg (Int.not_lt.mpr (Int.natCast_nonneg i)), Int.toNat_natCast]
  unfold slice
  dsimp only
  rw [if_neg (by omega), hposition, hposition]

variable {config : MotorsConfig} {router : Router} {schema : Schema}
  {collection serviceName : Text} {stores : Stores} {found results : List Entries}
  {scans : List MotorRecord} {state state' : CatalogState TableServer Collections}

/-- Some pages together complete the documents of all of them, if all documents are admitted. -/
theorem Completes.pages
    {search : Int → Int → Action (CatalogState TableServer Collections) (List Entries)}
    {admits : List Entries → Prop} (hsearch : Completes search stores admits found scans)
    (hadmits : admits found) {size : Nat} (hsize : 0 < size) (count offset : Nat) :
    Leads Offers (Catalog.pages search size count offset) stores
      (.ok (((found.drop offset).take (count * size)).filterMap fun d => d.completed? scans))
      stores := by
  induction count generalizing offset with
  | zero =>
    rw [Nat.zero_mul, List.take_zero]
    exact Leads.pure []
  | succ count ih =>
    have hpage := hsearch.answers offset size
      (hsearch.part (slice_sublist _ _ _) (List.Sublist.refl found) hadmits)
    rw [slice_natCast found offset hsize] at hpage
    -- the documents of the first page come before those of the others
    have hsplit : (found.drop offset).take ((count + 1) * size) =
        (found.drop offset).take size ++ (found.drop (offset + size)).take (count * size) := by
      rw [Nat.succ_mul, Nat.add_comm, List.take_add, List.drop_drop]
    rw [hsplit, List.filterMap_append]
    exact hpage.bind ((ih (offset + size)).bind (Leads.pure _))

/-- A search that is answered completes the documents that it finds, in each state of the same
stores and for each page that it admits. -/
theorem searchExpression_completes (hs : Offers state stores)
    (hdocuments : ∀ d ∈ stores.collections.documents collection, d.RealSid) {expression : Entries}
    {offset limit : Int}
    (hrun : ((embedded config router schema collection serviceName).searchExpression expression
      offset limit).run state = (.ok results, state')) :
    ∃ found scans admits, found.Sublist (stores.collections.documents collection) ∧
      scans.Sublist stores.scans.records ∧
      Completes ((embedded config router schema collection serviceName).searchExpression expression)
        stores admits found scans := by
  obtain ⟨routed, _, hrouteRun, hsearch⟩ := run_bind_eq_ok.mp hrun
  obtain ⟨hroute, rfl⟩ := run_ofExcept_eq hrouteRun
  obtain ⟨queries, found, admits, -, hsublist, hcompletes, -⟩ :=
    searchRouted_fulfils hs hdocuments hsearch
  have hroutes : Leads Offers
      ((embedded config router schema collection serviceName).route expression) stores
      (.ok routed) stores := by
    rw [← hroute]
    exact Leads.ofExcept _
  exact ⟨found, _, admits, hsublist, List.filter_sublist, hcompletes.after hroutes⟩

/-- The pages of a search, put together until no document is left, are what the search finds
without paging. No page fails, and none loses, repeats or moves a record. -/
theorem searchExpression_pages (hs : state.motors.Changed config)
    (hdocuments : ∀ d ∈ state.documents.documents collection, d.FiniteSid) {expression : Entries}
    (hrun : ((embedded config router schema collection serviceName).searchExpression expression
      0 0).run state = (.ok results, state')) {size count : Nat} (hsize : 0 < size)
    (hcount : (state.documents.documents collection).length ≤ count * size) :
    ((pages ((embedded config router schema collection serviceName).searchExpression expression)
      size count 0).run state).1 = .ok results := by
  obtain ⟨h, k, hshows⟩ := hs.shows
  have hoffers : Offers state ⟨state.documents, h⟩ := ⟨rfl, k, hshows⟩
  obtain ⟨found, scans, admits, hsublist, -, hcompletes⟩ :=
    searchExpression_completes hoffers (fun d hd => (hdocuments d hd).realSid) hrun
  have hall : found.take (count * size) = found :=
    List.take_of_length_le (Nat.le_trans hsublist.length_le hcount)
  obtain ⟨hadmits, hresults⟩ := hcompletes.eq_of_run hoffers hrun
  rw [slice_zero] at hadmits hresults
  obtain ⟨_, hpages, -⟩ := hcompletes.pages hadmits hsize count 0 state hoffers
  rw [hpages, hresults, List.drop_zero, hall]

/-- Both documents fit on two pages of one document each. The second page is empty. -/
theorem searchExpression_pages_oneScan :
    0 < 1 ∧ (oneScanState.documents.documents "scans").length ≤ 2 * 1 ∧
      ((pages ((embedded .inMemory builtInRouter .empty "scans" "SpecScans").searchExpression
        [("did", "x"), ("motors.b", .float .zero)]) 1 2 0).run oneScanState).1 =
          .ok [oneScanFound] := by
  have hrun : (((embedded .inMemory builtInRouter .empty "scans" "SpecScans").searchExpression
      [("did", "x"), ("motors.b", .float .zero)] 0 0).run oneScanState).1 =
      .ok [oneScanFound] := by
    decide +kernel
  exact ⟨Nat.one_pos, Nat.le_refl 2, searchExpression_pages oneScan_changed oneScanState_finiteSid
    (run_eq_of_fst hrun) Nat.one_pos (Nat.le_refl 2)⟩

end Catalog

end ScanCatalog
