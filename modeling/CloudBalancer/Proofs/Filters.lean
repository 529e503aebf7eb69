import CloudBalancer.Proofs.Backends

/-!
Synchronising the filter of a port. The entry for any source is neither added nor removed, so it
is there afterwards exactly if it was there before.
-/

namespace CloudBalancer

theorem applyChanges_append (filters : List String) (first second : List FilterChange) :
    applyChanges filters (first ++ second) = applyChanges (applyChanges filters first) second :=
  List.foldl_append ..

theorem mem_applyChanges_add {filters added : List String} {f : String} :
    f ∈ applyChanges filters (added.map (⟨true, ·⟩)) ↔ f ∈ filters ∨ f ∈ added := by
  induction added generalizing filters with
  | nil => simp [applyChanges]
  | cons a rest ih =>
      show f ∈ applyChanges (applyChange filters ⟨true, a⟩) (rest.map (⟨true, ·⟩)) ↔ _
      rw [ih]
      by_cases h : a ∈ filters
      · simp only [applyChange, if_true, List.contains_iff_mem, h, List.mem_cons]
        constructor
        · rintro (hf | hf)
          · exact .inl hf
          · exact .inr (.inr hf)
        · rintro (hf | rfl | hf)
          · exact .inl hf
          · exact .inl h
          · exact .inr hf
      · simp [applyChange, h, or_assoc]

theorem mem_applyChanges_remove {filters removed : List String} {f : String} :
    f ∈ applyChanges filters (removed.map (⟨false, ·⟩)) ↔ f ∈ filters ∧ f ∉ removed := by
  induction removed generalizing filters with
  | nil => simp [applyChanges]
  | cons r rest ih =>
      show f ∈ applyChanges (applyChange filters ⟨false, r⟩) (rest.map (⟨false, ·⟩)) ↔ _
      rw [ih]
      simp [applyChange, and_assoc]

/-- The filter of a port that had `current`, once it is changed to `desired`. -/
def syncedFilters (desired current : List String) : List String :=
  applyChanges current (filterChanges desired current)

theorem mem_syncedFilters {desired current : List String} {f : String} :
    f ∈ syncedFilters desired current ↔
      (f ∈ desired ∧ f ≠ anySource) ∨ (f = anySource ∧ anySource ∈ current) := by
  rw [syncedFilters, filterChanges, applyChanges_append, mem_applyChanges_remove,
    mem_applyChanges_add]
  simp only [List.mem_filter, mem_differences, beq_eq_false_iff_ne, bne_iff_ne]
  by_cases hany : f = anySource
  · simp [hany]
  · grind

theorem filterChanges_synced (desired current : List String) :
    filterChanges desired (syncedFilters desired current) = [] := by
  have own {f : String} (hf : f ∈ desired) (other : f ≠ anySource) :
      f ∈ syncedFilters desired current := mem_syncedFilters.2 (.inl ⟨hf, other⟩)
  have wanted {f : String} (hf : f ∈ syncedFilters desired current) (other : f ≠ anySource) :
      f ∈ desired := by
    rcases mem_syncedFilters.1 hf with ⟨hf, -⟩ | ⟨hf, -⟩
    · exact hf
    · exact absurd hf other
  simp only [filterChanges, List.append_eq_nil_iff, List.map_eq_nil_iff, List.filter_eq_nil_iff,
    mem_differences, bne_iff_ne]
  constructor
  · rintro f ⟨hf, absent⟩ other
    simpa using absent f (own hf other)
  · rintro f ⟨hf, absent⟩ other
    simpa using absent f (wanted hf other)

theorem nodup_applyChanges {filters : List String} (h : filters.Nodup)
    (changes : List FilterChange) : (applyChanges filters changes).Nodup := by
  induction changes generalizing filters with
  | nil => exact h
  | cons change rest ih =>
      refine ih ?_
      unfold applyChange
      split
      · split
        · exact h
        · next hnew =>
          refine List.nodup_append.2 ⟨h, by simp, ?_⟩
          rintro a ha b hb rfl
          rw [List.mem_singleton.1 hb] at ha
          exact hnew (by simpa using ha)
      · exact h.filter _

end CloudBalancer
