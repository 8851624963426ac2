import ScanCatalog.Routing.Table

/-!
# The built-in routing table

The table that is used when no service map is given: the motors belong to the motor
tables and the fields that every scan has to the document collection.

## Main statements

* `RoutingTable.fault?_eq_none`: entries of pairwise different keys that are not empty
  have no fault;
* `RoutingTable.builtIn`: the built-in table of a service.
-/

namespace ScanCatalog

namespace RoutingTable

theorem firstFor?_eq_none {entries : List RoutingEntry} {service key : Text}
    (h : key ∉ entries.map (·.key)) : firstFor? entries service key = none := by
  simp only [firstFor?, List.find?_eq_none, Bool.and_eq_true, beq_iff_eq, not_and]
  rintro e he - rfl
  exact h (List.mem_map_of_mem he)

theorem faultFrom?_eq_none (before entries : List RoutingEntry)
    (filled : ∀ e ∈ entries, e.key.isEmpty = false)
    (different : ((before ++ entries).map (·.key)).Nodup) :
    faultFrom? before entries = none := by
  induction entries generalizing before with
  | nil => rfl
  | cons entry rest ih =>
    have fresh : entry.key ∉ before.map (·.key) := by
      rw [List.map_append, List.nodup_append] at different
      intro h
      exact different.2.2 _ h _ (by simp) rfl
    have head : entryFault? before entry = none := by
      simp [entryFault?, filled entry (by simp), firstFor?_eq_none fresh]
    simp only [faultFrom?, head]
    exact ih (before ++ [entry]) (fun e he => filled e (by simp [he])) (by simpa using different)

/-- Entries of pairwise different keys that are not empty have no fault. -/
theorem fault?_eq_none (entries : List RoutingEntry)
    (filled : ∀ e ∈ entries, e.key.isEmpty = false)
    (different : (entries.map (·.key)).Nodup) : fault? entries = none :=
  faultFrom?_eq_none [] entries filled (by simpa using different)

theorem keys_builtInEntries (service : Text) :
    (builtInEntries service).map (·.key) = documentKeys ++ relationalKeys := by
  simp [builtInEntries, Function.comp_def]

/-- The table that is used when no service map is given. -/
def builtIn (service : Text) : RoutingTable :=
  ⟨builtInEntries service, fault?_eq_none _
    (by
      intro e he
      have : e.key ∈ documentKeys ++ relationalKeys := by
        rw [← keys_builtInEntries service]
        exact List.mem_map_of_mem he
      revert this
      generalize e.key = key
      revert key
      decide)
    (by rw [keys_builtInEntries]; decide)⟩

end RoutingTable

end ScanCatalog
