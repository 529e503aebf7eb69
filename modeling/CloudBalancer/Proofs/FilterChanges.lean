import CloudBalancer.Proofs.Steps
import Mathlib.Data.List.Induction
import Mathlib.Data.List.Nodup

/-!
What the changes from one filter to another do to a port that has the first one, whatever is
repeated in either. They are all computed from the filter as it was, and applied one by one to a
filter that changes under them. Main statement: the outcome is the desired filter, the entry for any
source apart, entries that stay keep their order, and a second comparison finds nothing to change.
-/

namespace CloudBalancer

variable {desired current : List String}

/-- Additions that are all new go behind what is there, of those that are repeated the first. -/
theorem applyChanges_additions {added : List String} (absent : ∀ f ∈ added, f ∉ current) :
    ∃ new, applyChanges current (added.map (⟨true, ·⟩)) = current ++ new ∧
      new.Sublist added ∧ new.Nodup := by
  induction added using List.reverseRecOn with
  | nil => exact ⟨[], (List.append_nil current).symm, .refl [], List.nodup_nil⟩
  | append_singleton added a ih =>
      obtain ⟨new, applied, sublist, nodup⟩ :=
        ih fun f hf => absent f (List.mem_append_left [a] hf)
      have a_absent : a ∉ current := absent a (by simp)
      have last : applyChanges current ((added ++ [a]).map (⟨true, ·⟩)) =
          applyChange (current ++ new) ⟨true, a⟩ := by
        rw [List.map_append, applyChanges_append, applied]
        rfl
      by_cases known : a ∈ new
      · refine ⟨new, ?_, sublist.trans (List.sublist_append_left added [a]), nodup⟩
        rw [last]
        simp [applyChange, known]
      · refine ⟨new ++ [a], ?_, sublist.append_right [a], ?_⟩
        · rw [last]
          simp [applyChange, known, a_absent]
        · exact List.Nodup.append nodup (List.nodup_singleton a) (by simpa using known)

theorem applyChanges_removals (filters removed : List String) :
    applyChanges filters (removed.map (⟨false, ·⟩)) =
      filters.filter fun f => !removed.contains f := by
  induction removed generalizing filters with
  | nil => exact (List.filter_eq_self.2 fun _ _ => rfl).symm
  | cons r rest ih =>
      show applyChanges (applyChange filters ⟨false, r⟩) (rest.map (⟨false, ·⟩)) = _
      rw [ih]
      show (filters.filter (· != r)).filter _ = _
      rw [List.filter_filter]
      refine List.filter_congr fun f _ => ?_
      simp [bne, Bool.and_comm, beq_eq_decide]

/-- The entries of `desired` that are to join `current`. -/
def joiningFilters (desired current : List String) : List String :=
  (differences (· == ·) desired current).filter (· != anySource)

theorem filterChanges_eq (desired current : List String) :
    filterChanges desired current = (joiningFilters desired current).map (⟨true, ·⟩) ++
      (joiningFilters current desired).map (⟨false, ·⟩) := rfl

theorem mem_joiningFilters {f : String} :
    f ∈ joiningFilters desired current ↔ f ∈ desired ∧ f ∉ current ∧ f ≠ anySource := by
  simp only [joiningFilters, List.mem_filter, mem_differences, beq_eq_false_iff_ne, bne_iff_ne]
  constructor
  · intro ⟨⟨wanted, absent⟩, other⟩
    exact ⟨wanted, fun held => absent f held rfl, other⟩
  · intro ⟨wanted, absent, other⟩
    exact ⟨⟨wanted, fun _ held => (ne_of_mem_of_not_mem held absent).symm⟩, other⟩

/-- What stays of `current`: what is desired, and the entry for any source. -/
def keptFilters (desired current : List String) : List String :=
  current.filter fun f => desired.contains f || f == anySource

theorem filter_staying (desired current : List String) :
    (current.filter fun f => !(joiningFilters current desired).contains f) =
      keptFilters desired current := by
  refine List.filter_congr fun f held => ?_
  rw [Bool.eq_iff_iff]
  simp only [Bool.not_eq_true', List.contains_eq_mem, decide_eq_false_iff_not, mem_joiningFilters,
    held, true_and, not_and, not_not, Bool.or_eq_true, decide_eq_true_eq, beq_iff_eq]
  exact or_iff_not_imp_left.symm

/-- What stays keeps its order, and what joins is behind it. -/
theorem syncedFilters_eq (desired current : List String) :
    ∃ new, syncedFilters desired current = keptFilters desired current ++ new ∧
      new.Sublist desired ∧ new.Nodup ∧ ∀ f ∈ new, f ∉ current := by
  have absent : ∀ f ∈ joiningFilters desired current, f ∉ current :=
    fun f hf => (mem_joiningFilters.1 hf).2.1
  obtain ⟨new, applied, sublist, nodup⟩ := applyChanges_additions absent
  have joining : ∀ f ∈ new, f ∈ joiningFilters desired current := fun f hf => sublist.subset hf
  have spared : ∀ f ∈ new, f ∉ joiningFilters current desired :=
    fun f hf leaving => (mem_joiningFilters.1 leaving).2.1 (mem_joiningFilters.1 (joining f hf)).1
  have among : (joiningFilters desired current).Sublist desired :=
    List.filter_sublist.trans List.filter_sublist
  refine ⟨new, ?_, sublist.trans among, nodup, fun f hf => absent f (joining f hf)⟩
  calc syncedFilters desired current
      = (current ++ new).filter fun f => !(joiningFilters current desired).contains f := by
        rw [syncedFilters, filterChanges_eq, applyChanges_append, applied, applyChanges_removals]
    _ = keptFilters desired current ++ new := by
        rw [List.filter_append, filter_staying, List.filter_eq_self.2 (by simpa using spared)]

theorem additions_first (desired current : List String) :
    (filterChanges desired current).Pairwise fun c e => e.add = true → c.add = true := by
  rw [filterChanges_eq, List.pairwise_append]
  refine ⟨?_, ?_, ?_⟩
  · exact List.pairwise_map.2 (List.pairwise_of_forall fun _ _ _ => rfl)
  · exact List.pairwise_map.2 (List.pairwise_of_forall fun _ _ add => add)
  · intro c hc e _ _
    obtain ⟨f, -, rfl⟩ := List.mem_map.1 hc
    rfl

/-- No address both joins and leaves. -/
theorem not_joining_and_leaving {f : String} (joins : ⟨true, f⟩ ∈ filterChanges desired current) :
    ⟨false, f⟩ ∉ filterChanges desired current := by
  have joining : f ∈ joiningFilters desired current := by simpa [filterChanges_eq] using joins
  intro leaves
  have leaving : f ∈ joiningFilters current desired := by simpa [filterChanges_eq] using leaves
  exact (mem_joiningFilters.1 leaving).2.1 (mem_joiningFilters.1 joining).1

namespace Inventory

variable {inv : Inventory} {k : Kind} {d p : k.Port} {before after : List k.Port}

/-- Applying the changes from the filter of a port to a desired one succeeds and changes nothing
but that filter. It is then the desired one, the entry for any source apart, which is there exactly
if it was; what stays keeps its order, and what is new follows. Nothing joins after something left
or is both added and removed, and nothing is left to change. -/
theorem filter_changed_to_desired (held : inv.ports k d.name = before ++ p :: after)
    (selects : Selects d before p) (desired : List String) :
    ∃ left new,
      inv.apply (.setFilter k d (filterChanges desired p.filters)) =
        .ok ((), inv.withPorts k d.name (before ++ { p with filters := left } :: after)) ∧
      (∀ f, f ∈ left ↔ f ∈ desired ∧ f ≠ anySource ∨ f = anySource ∧ anySource ∈ p.filters) ∧
      left = (p.filters.filter fun f => desired.contains f || f == anySource) ++ new ∧
      (new.Sublist desired ∧ new.Nodup ∧ ∀ f ∈ new, f ∉ p.filters) ∧
      ((filterChanges desired p.filters).Pairwise fun c e => e.add = true → c.add = true) ∧
      (∀ f, ¬ (⟨true, f⟩ ∈ filterChanges desired p.filters ∧
        ⟨false, f⟩ ∈ filterChanges desired p.filters)) ∧
      filterChanges desired left = [] := by
  obtain ⟨new, ordered, joined⟩ := syncedFilters_eq desired p.filters
  have some_port : (inv.table k).get? d.name ≠ some [] := by
    intro empty
    simp [Inventory.ports, empty] at held
  have changed : (inv.withPorts k d.name (before ++ p :: after)).apply
      (.setFilter k d (filterChanges desired p.filters)) =
        .ok ((), inv.withPorts k d.name
          (before ++ { p with filters := syncedFilters desired p.filters } :: after)) :=
    Reconcile.apply_setFilter rfl selects _
  rw [← held, withPorts_ports some_port] at changed
  exact ⟨syncedFilters desired p.filters, new, changed, fun f => mem_syncedFilters, ordered, joined,
    additions_first desired p.filters, fun f both => not_joining_and_leaving both.1 both.2,
    filterChanges_synced desired p.filters⟩

end Inventory

namespace Sample

/-- A port whose filter has the entry for any source and says one thing twice. -/
def filteredPort : L4Port where
  name := "web"
  settings := {}
  pair := ⟨80, 30080⟩
  healthCheck := {}
  backends := []
  filters := ["10.0.0.0/8", anySource, "192.0.2.1", "10.0.0.0/8"]
  vip := "203.0.113.1"
  attachment := ()

def filteredInventory : Inventory := .ofSnapshot { l4 := [filteredPort] }

end Sample

/-- Asked for something new twice, the block that is there twice, and the entry for any source. -/
theorem filter_changed_with_repetitions :
    let p := Sample.filteredPort
    let desired := ["198.51.100.0/24", "10.0.0.0/8", anySource, "198.51.100.0/24"]
    Sample.filteredInventory.ports .l4 p.name = [] ++ p :: [] ∧ Selects p [] p ∧
      ∃ left new,
        Sample.filteredInventory.apply (.setFilter .l4 p (filterChanges desired p.filters)) =
          .ok ((), Sample.filteredInventory.withPorts .l4 p.name [{ p with filters := left }]) ∧
        (∀ f, f ∈ left ↔ f ∈ desired ∧ f ≠ anySource ∨ f = anySource ∧ anySource ∈ p.filters) ∧
        left = (p.filters.filter fun f => desired.contains f || f == anySource) ++ new ∧
        (new.Sublist desired ∧ new.Nodup ∧ ∀ f ∈ new, f ∉ p.filters) ∧
        ((filterChanges desired p.filters).Pairwise fun c e => e.add = true → c.add = true) ∧
        (∀ f, ¬ (⟨true, f⟩ ∈ filterChanges desired p.filters ∧
          ⟨false, f⟩ ∈ filterChanges desired p.filters)) ∧
        filterChanges desired left = [] := by
  intro p desired
  have held : Sample.filteredInventory.ports .l4 p.name = [] ++ p :: [] := rfl
  have selects : Selects p [] p := ⟨by simp, rfl⟩
  exact ⟨held, selects, Inventory.filter_changed_to_desired (k := .l4) held selects desired⟩

end CloudBalancer
