import CloudBalancer.Cloud.Table
import Mathlib.Data.List.Pairwise

/-!
Synchronising the backends of a port. Identity of backends is reflexive and symmetric but not
transitive, so that what leaves could take a wanted backend along. It does not where no two
registered backends are the same, which is all that the cloud promises about them.
-/

namespace CloudBalancer

variable {α : Type}

theorem mem_differences {equals : α → α → Bool} {target other : List α} {item : α} :
    item ∈ differences equals target other ↔
      item ∈ target ∧ ∀ o ∈ other, equals item o = false := by
  simp [differences]

@[simp]
theorem differences_nil (equals : α → α → Bool) (target : List α) :
    differences equals target [] = target := by
  simp [differences]

theorem differences_eq_nil_iff {equals : α → α → Bool} {target other : List α} :
    differences equals target other = [] ↔
      ∀ item ∈ target, ∃ o ∈ other, equals item o = true := by
  simp [differences, List.filter_eq_nil_iff]

namespace Backend

@[simp]
theorem same_refl (a : Backend) : a.same a = true := by
  simp [same]

theorem same_comm (a b : Backend) : a.same b = b.same a := by
  by_cases h : a.uniqueId ≠ "" ∧ b.uniqueId ≠ ""
  · simp only [same, if_pos h, if_pos h.symm, Bool.beq_comm]
  · simp only [same, if_neg h, if_neg fun h' : _ ∧ _ => h h'.symm, Bool.beq_comm]

end Backend

/-- No two of the backends mean the same one. -/
def Distinct (backends : List Backend) : Prop :=
  backends.Pairwise fun a b => a.same b = false

theorem Distinct.eq_of_same {backends : List Backend} (h : Distinct backends) {a b : Backend}
    (ha : a ∈ backends) (hb : b ∈ backends) (hsame : a.same b = true) : a = b := by
  have symm : Std.Symm fun a b : Backend => a.same b = false :=
    ⟨fun a b h => by rwa [Backend.same_comm]⟩
  by_contra hne
  have different : a.same b = false := List.Pairwise.forall h ha hb hne
  simp [different] at hsame

/-- One more backend, unless it is there. -/
def addBackend (current : List Backend) (b : Backend) : List Backend :=
  if current.any (·.same b) then current else current ++ [b]

theorem addBackends_cons (current rest : List Backend) (b : Backend) :
    addBackends current (b :: rest) = addBackends (addBackend current b) rest := rfl

theorem distinct_addBackend {current : List Backend} (h : Distinct current) (b : Backend) :
    Distinct (addBackend current b) := by
  unfold addBackend
  split
  · exact h
  · next hnew =>
    refine List.pairwise_append.2 ⟨h, List.pairwise_singleton .., ?_⟩
    intro a ha c hc
    simp only [List.any_eq_true, not_exists, not_and, Bool.not_eq_true] at hnew
    rw [List.mem_singleton.1 hc]
    exact hnew a ha

theorem exists_same_addBackend (current : List Backend) (b : Backend) :
    ∃ r ∈ addBackend current b, r.same b = true := by
  unfold addBackend
  split
  · next h => exact List.any_eq_true.1 h
  · exact ⟨b, by simp, b.same_refl⟩

theorem mem_addBackend {current : List Backend} {a b : Backend} (h : a ∈ addBackend current b) :
    a ∈ current ∨ a = b := by
  unfold addBackend at h
  split at h
  · exact .inl h
  · simpa using h

theorem subset_addBackend (current : List Backend) (b : Backend) :
    current ⊆ addBackend current b := by
  unfold addBackend
  split
  · exact List.Subset.refl _
  · exact List.subset_append_left ..

theorem distinct_addBackends {current : List Backend} (h : Distinct current)
    (backends : List Backend) : Distinct (addBackends current backends) := by
  induction backends generalizing current with
  | nil => exact h
  | cons b rest ih => exact ih (distinct_addBackend h b)

theorem subset_addBackends (current backends : List Backend) :
    current ⊆ addBackends current backends := by
  induction backends generalizing current with
  | nil => exact List.Subset.refl _
  | cons b rest ih => exact List.Subset.trans (subset_addBackend current b) (ih _)

theorem mem_addBackends {current backends : List Backend} {a : Backend}
    (h : a ∈ addBackends current backends) : a ∈ current ∨ a ∈ backends := by
  induction backends generalizing current with
  | nil => exact .inl h
  | cons b rest ih =>
      rcases ih h with h | h
      · rcases mem_addBackend h with h | rfl
        · exact .inl h
        · exact .inr List.mem_cons_self
      · exact .inr (List.mem_cons_of_mem b h)

theorem exists_same_addBackends (current : List Backend) {backends : List Backend} {b : Backend}
    (h : b ∈ backends) : ∃ r ∈ addBackends current backends, r.same b = true := by
  induction backends generalizing current with
  | nil => simp at h
  | cons first rest ih =>
      rcases List.mem_cons.1 h with rfl | h
      · obtain ⟨r, hr, hsame⟩ := exists_same_addBackend current b
        exact ⟨r, subset_addBackends _ rest hr, hsame⟩
      · exact ih _ h

theorem addBackends_of_same {current backends : List Backend}
    (h : ∀ b ∈ backends, ∃ r ∈ current, r.same b = true) :
    addBackends current backends = current := by
  induction backends with
  | nil => rfl
  | cons b rest ih =>
      have there : addBackend current b = current := if_pos (List.any_eq_true.2 (h b (by simp)))
      rw [addBackends_cons, there]
      exact ih fun c hc => h c (by simp [hc])

theorem removeBackends_of_same {current backends : List Backend}
    (h : ∀ b ∈ backends, ∃ r ∈ current, r.same b = true) :
    removeBackends current backends =
      .ok (current.filter fun r => !backends.any (·.same r)) := by
  have known : backends.find? (fun b => !current.any (·.same b)) = none := by
    simpa [List.find?_eq_none] using h
  simp [removeBackends, known]

theorem mem_removeBackends {current backends left : List Backend}
    (removed : removeBackends current backends = .ok left) {r : Backend} :
    r ∈ left ↔ r ∈ current ∧ ∀ b ∈ backends, b.same r = false := by
  unfold removeBackends at removed
  split at removed
  · cases removed
  · cases removed
    simp

theorem distinct_removeBackends {current backends left : List Backend} (h : Distinct current)
    (removed : removeBackends current backends = .ok left) : Distinct left := by
  unfold removeBackends at removed
  split at removed
  · cases removed
  · cases removed
    exact h.filter _

/-- The backends of a port that had `current`, once those of `desired` that it lacks are
registered and those that are not desired are gone. -/
def syncedBackends (desired current : List Backend) : List Backend :=
  (addBackends current (backendDifferences desired current)).filter fun r =>
    !(backendDifferences current desired).any (·.same r)

theorem mem_backendDifferences {target other : List Backend} {b : Backend} :
    b ∈ backendDifferences target other ↔ b ∈ target ∧ ∀ o ∈ other, b.same o = false :=
  mem_differences

theorem removeBackends_leaving (desired current : List Backend) :
    removeBackends (addBackends current (backendDifferences desired current))
        (backendDifferences current desired) = .ok (syncedBackends desired current) :=
  removeBackends_of_same fun b hb =>
    ⟨b, subset_addBackends _ _ (mem_backendDifferences.1 hb).1, b.same_refl⟩

theorem mem_syncedBackends {desired current : List Backend} {r : Backend} :
    r ∈ syncedBackends desired current ↔
      r ∈ addBackends current (backendDifferences desired current) ∧
        ∀ b ∈ backendDifferences current desired, b.same r = false := by
  simp [syncedBackends]

/-- What leaves does not take along what stays or joins. -/
theorem exists_same_syncedBackends {desired current : List Backend} (h : Distinct current)
    {b : Backend} (hb : b ∈ desired) : ∃ r ∈ syncedBackends desired current, b.same r = true := by
  by_cases hstays : ∃ r ∈ current, b.same r = true
  · obtain ⟨r, hr, hsame⟩ := hstays
    refine ⟨r, mem_syncedBackends.2 ⟨subset_addBackends _ _ hr, ?_⟩, hsame⟩
    intro gone hgone
    obtain ⟨hcurrent, hleaves⟩ := mem_backendDifferences.1 hgone
    by_contra htaken
    have heq : gone = r := h.eq_of_same hcurrent hr (by simpa using htaken)
    have hne : r.same b = false := heq ▸ hleaves b hb
    simp [Backend.same_comm r b, hsame] at hne
  · have hjoins : b ∈ backendDifferences desired current :=
      mem_backendDifferences.2 ⟨hb, by simpa using hstays⟩
    obtain ⟨r, hr, hsame⟩ := exists_same_addBackends current hjoins
    refine ⟨r, mem_syncedBackends.2 ⟨hr, ?_⟩, by rwa [Backend.same_comm]⟩
    intro gone hgone
    obtain ⟨hcurrent, hleaves⟩ := mem_backendDifferences.1 hgone
    rcases mem_addBackends hr with hr | hr
    · exact absurd ⟨r, hr, by rwa [Backend.same_comm]⟩ hstays
    · exact hleaves r (mem_backendDifferences.1 hr).1

/-- Whatever is registered in the end is desired. -/
theorem exists_same_desired {desired current : List Backend} {r : Backend}
    (hr : r ∈ syncedBackends desired current) : ∃ b ∈ desired, r.same b = true := by
  obtain ⟨hadded, hstays⟩ := mem_syncedBackends.1 hr
  rcases mem_addBackends hadded with hcurrent | hjoins
  · by_contra hundesired
    have hleaves : r ∈ backendDifferences current desired :=
      mem_backendDifferences.2 ⟨hcurrent, by simpa using hundesired⟩
    simpa using hstays r hleaves
  · exact ⟨r, (mem_backendDifferences.1 hjoins).1, r.same_refl⟩

theorem syncedBackends_of_none_leaves {desired current : List Backend}
    (h : backendDifferences current desired = []) :
    syncedBackends desired current =
      addBackends current (backendDifferences desired current) := by
  rw [syncedBackends, h]
  exact List.filter_eq_self.2 fun _ _ => rfl

theorem syncedBackends_nil (desired : List Backend) :
    syncedBackends desired [] = addBackends [] desired := by
  have none_leaves : backendDifferences [] desired = [] := rfl
  have all_join : backendDifferences desired [] = desired := differences_nil _ _
  rw [syncedBackends, none_leaves, all_join, List.filter_eq_self]
  intros
  rfl

end CloudBalancer
