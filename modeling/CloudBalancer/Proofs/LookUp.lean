import CloudBalancer.NameMap
import Mathlib.Data.List.Pairwise

/-!
Look-ups in name maps: what every operation does to them. As the entries are in the order of their
names, a map is determined by its look-ups, and equations between maps are proved through them.
-/

namespace CloudBalancer

variable {α : Type}

theorem lookup_cons_name (key : String) (entry : String × α) (rest : List (String × α)) :
    (entry :: rest).lookup key = if key = entry.1 then some entry.2 else rest.lookup key := by
  obtain ⟨name, value⟩ := entry
  by_cases h : key = name
  · simp [h]
  · simp [List.lookup_cons, beq_false_of_ne h, h]

theorem lookup_insertEntry (name key : String) (value : α) (entries : List (String × α)) :
    (insertEntry name value entries).lookup key =
      if key = name then some value else entries.lookup key := by
  induction entries with
  | nil => rw [insertEntry, lookup_cons_name]
  | cons entry rest ih =>
      by_cases heq : name = entry.1
      · simp only [insertEntry, heq, if_true, lookup_cons_name]
        split <;> rfl
      · by_cases hlt : name < entry.1
        · simp only [insertEntry, heq, hlt, if_false, if_true, lookup_cons_name key (name, value)]
        · simp only [insertEntry, heq, hlt, if_false, lookup_cons_name, ih]
          by_cases h : key = entry.1
          · simp [h, Ne.symm heq]
          · simp [h]

theorem mem_iff_lookup {name : String} {value : α} {entries : List (String × α)}
    (ascending : Ascending entries) :
    (name, value) ∈ entries ↔ entries.lookup name = some value := by
  induction entries with
  | nil => simp
  | cons entry rest ih =>
      obtain ⟨before, hrest⟩ := List.pairwise_cons.1 ascending
      rw [List.mem_cons, lookup_cons_name, ih hrest]
      by_cases heq : name = entry.1
      · have notLater : ¬ rest.lookup name = some value := fun h =>
          String.lt_irrefl name (heq.symm ▸ before (name, value) ((ih hrest).2 h))
        simp [Prod.ext_iff, heq ▸ notLater, heq, eq_comm]
      · simp [Prod.ext_iff, heq]

/-- A name behind all others joins them at the end. -/
theorem insertEntry_last {name : String} {entries : List (String × α)}
    (before : ∀ e ∈ entries, e.1 < name) (value : α) :
    insertEntry name value entries = entries ++ [(name, value)] := by
  induction entries with
  | nil => rfl
  | cons entry rest ih =>
      obtain ⟨first, others⟩ := List.forall_mem_cons.1 before
      have other : name ≠ entry.1 := fun same => String.lt_irrefl name (same ▸ first)
      have later : ¬ name < entry.1 := fun less =>
        String.lt_irrefl name (String.lt_trans less first)
      rw [insertEntry, if_neg other, if_neg later, ih others, List.cons_append]

namespace NameMap

@[simp]
theorem get?_empty (key : String) : (∅ : NameMap α).get? key = none := rfl

@[simp]
theorem get?_insert (m : NameMap α) (name key : String) (value : α) :
    (m.insert name value).get? key = if key = name then some value else m.get? key :=
  lookup_insertEntry name key value m.entries

@[simp]
theorem get?_erase (m : NameMap α) (name key : String) :
    (m.erase name).get? key = if key = name then none else m.get? key := by
  show (m.entries.filter fun e => e.1 ≠ name).lookup key = if _ then _ else m.entries.lookup key
  induction m.entries with
  | nil => simp
  | cons entry rest ih =>
      by_cases hname : entry.1 = name
      · rw [List.filter_cons_of_neg (by simp [hname]), ih, lookup_cons_name]
        by_cases h : key = name <;> simp [h, hname]
      · rw [List.filter_cons_of_pos (by simp [hname]), lookup_cons_name, lookup_cons_name, ih]
        by_cases h : key = entry.1 <;> simp [h, hname]

theorem mem_entries_iff (m : NameMap α) (name : String) (value : α) :
    (name, value) ∈ m.entries ↔ m.get? name = some value :=
  mem_iff_lookup m.ascending

theorem nodup_entries (m : NameMap α) : m.entries.Nodup := by
  refine m.ascending.imp ?_
  rintro a b hlt rfl
  exact String.lt_irrefl _ hlt

/-- A map is what its look-ups answer. -/
theorem ext_get? {m n : NameMap α} (h : ∀ key, m.get? key = n.get? key) : m = n := by
  have perm : m.entries.Perm n.entries :=
    (List.perm_ext_iff_of_nodup m.nodup_entries n.nodup_entries).2 fun entry => by
      rw [mem_entries_iff m entry.1 entry.2, mem_entries_iff n entry.1 entry.2, h]
  refine ext (perm.eq_of_pairwise ?_ m.ascending n.ascending)
  intro a b _ _ hab hba
  exact absurd (String.lt_trans hab hba) (String.lt_irrefl _)

theorem insert_get? {m : NameMap α} {name : String} {value : α} (held : m.get? name = some value) :
    m.insert name value = m := by
  refine ext_get? fun key => ?_
  by_cases hkey : key = name <;> simp [hkey, held]

theorem insert_insert (m : NameMap α) (name : String) (first second : α) :
    (m.insert name first).insert name second = m.insert name second := by
  refine ext_get? fun key => ?_
  by_cases hkey : key = name <;> simp [hkey]

theorem erase_insert (m : NameMap α) (name : String) (value : α) :
    (m.insert name value).erase name = m.erase name := by
  refine ext_get? fun key => ?_
  by_cases hkey : key = name <;> simp [hkey]

theorem entries_foldl_insert {m : NameMap α} {rest : List (String × α)}
    (ascending : Ascending (m.entries ++ rest)) :
    (rest.foldl (fun m e => m.insert e.1 e.2) m).entries = m.entries ++ rest := by
  induction rest generalizing m with
  | nil => rw [List.foldl_nil, List.append_nil]
  | cons entry rest ih =>
      have before : ∀ e ∈ m.entries, e.1 < entry.1 := fun e he =>
        (List.pairwise_append.1 ascending).2.2 e he entry List.mem_cons_self
      have inserted : (m.insert entry.1 entry.2).entries = m.entries ++ [entry] :=
        insertEntry_last before entry.2
      have regrouped : m.entries ++ entry :: rest = m.entries ++ [entry] ++ rest :=
        List.append_cons m.entries entry rest
      rw [List.foldl_cons, ih, inserted, ← regrouped]
      rwa [inserted, ← regrouped]

/-- A map is made of its entries. -/
theorem ofList_entries (m : NameMap α) : ofList m.entries = m :=
  ext (entries_foldl_insert m.ascending)

end NameMap

end CloudBalancer
