import CloudBalancer.Cloud.Inventory
import CloudBalancer.Proofs.Backends
import CloudBalancer.Proofs.LookUp

/-!
What the calls of the cloud do to the port list of a balancer. A call that changes a port is
described by the list split at that port; all else of the inventory stays as it is.
-/

namespace CloudBalancer

variable {α : Type}

namespace Port

theorem same_iff {a b : Port α} : a.same b = true ↔ a.name = b.name ∧ a.pair = b.pair := by
  simp [same]

@[simp]
theorem same_refl (a : Port α) : a.same a = true := by
  simp [same]

theorem same_comm (a b : Port α) : a.same b = b.same a := by
  simp only [same, Bool.beq_comm]

/-- The port as the cloud adds it, nothing configured yet. -/
def bare (p : Port α) (vip : String) (attachment : α) : Port α :=
  { p with attachment, vip, healthCheck := {}, backends := [], filters := [] }

end Port

/-- `p` is the first port meant by `d`, of those before it and itself. -/
structure Selects (d : Port α) (before : List (Port α)) (p : Port α) : Prop where
  skips : ∀ q ∈ before, q.same d = false
  same : p.same d = true

theorem Selects.find?_eq {d p : Port α} {before : List (Port α)} (h : Selects d before p)
    (after : List (Port α)) : (before ++ p :: after).find? (·.same d) = some p := by
  rw [List.find?_append, List.find?_eq_none.2 (by simpa using h.skips)]
  simp [h.same]

theorem Selects.replaceFirst_eq {d p : Port α} {before : List (Port α)} (h : Selects d before p)
    (after : List (Port α)) (new : Port α) :
    replaceFirst (·.same d) new (before ++ p :: after) = before ++ new :: after := by
  obtain ⟨skips, same⟩ := h
  induction before with
  | nil => simp [replaceFirst, same]
  | cons q rest ih =>
      have hq : q.same d = false := skips q List.mem_cons_self
      simp only [List.cons_append, replaceFirst, hq]
      rw [← ih fun r hr => skips r (List.mem_cons_of_mem q hr)]
      rfl

namespace Table

variable {t : Table α} {missing : ErrorCode} {d p : Port α} {before after ports : List (Port α)}

/-- The table with `ports` as the balancer `name`, which is none if there are no ports. -/
def put (t : Table α) (name : String) (ports : List (Port α)) : Table α :=
  if ports.isEmpty then t.erase name else t.insert name ports

theorem get?_put (t : Table α) (name key : String) (ports : List (Port α)) :
    (t.put name ports).get? key =
      if key = name then (if ports = [] then none else some ports) else t.get? key := by
  unfold put
  cases ports with
  | nil => simp
  | cons p rest => simp

theorem put_put (t : Table α) (name : String) (first second : List (Port α)) :
    (t.put name first).put name second = t.put name second := by
  refine NameMap.ext_get? fun key => ?_
  simp only [get?_put]
  split <;> rfl

theorem put_of_get? {name : String} (h : t.get? name ≠ some []) :
    t.put name ((t.get? name).getD []) = t := by
  refine NameMap.ext_get? fun key => ?_
  rw [get?_put]
  by_cases hkey : key = name
  · subst hkey
    cases hports : t.get? key with
    | none => simp
    | some ports =>
        have : ports ≠ [] := fun hnil => h (by rw [hports, hnil])
        simp [this]
  · simp [hkey]

theorem put_of_ne_nil {name : String} (h : ports ≠ []) :
    t.put name ports = t.insert name ports := by
  simp [put, h]

theorem modify_put (selects : Selects d before p) {f : Port α → Except ApiError (Port α)}
    {new : Port α} (hf : f p = .ok new) :
    (t.put d.name (before ++ p :: after)).modify missing d f =
      .ok (t.put d.name (before ++ new :: after)) := by
  have found : (t.put d.name (before ++ p :: after)).get? d.name = some (before ++ p :: after) := by
    simp [get?_put]
  simp only [modify, Table.ports, found, bind, Except.bind, selects.find?_eq, hf,
    selects.replaceFirst_eq]
  rw [← put_of_ne_nil (by simp), put_put]
  rfl

theorem modify_eq_ok {f : Port α → Except ApiError (Port α)} {t' : Table α}
    (h : t.modify missing d f = .ok t') :
    ∃ before p after new, t.get? d.name = some (before ++ p :: after) ∧ Selects d before p ∧
      f p = .ok new ∧ t' = t.put d.name (before ++ new :: after) := by
  cases hports : t.get? d.name with
  | none => simp [modify, Table.ports, hports, bind, Except.bind] at h
  | some ports =>
      simp only [modify, Table.ports, hports, bind, Except.bind] at h
      cases hfind : ports.find? (·.same d) with
      | none => simp [hfind] at h
      | some p =>
          simp only [hfind] at h
          obtain ⟨same, before, after, rfl, skips⟩ := List.find?_eq_some_iff_append.1 hfind
          have selects : Selects d before p := ⟨by simpa using skips, same⟩
          cases hf : f p with
          | error e => simp [hf] at h
          | ok new =>
              refine ⟨before, p, after, new, rfl, selects, hf, ?_⟩
              simp only [hf, selects.replaceFirst_eq, pure, Except.pure, Except.ok.injEq] at h
              rw [← h, put_of_ne_nil (by simp)]

theorem add_put (new : ∀ q ∈ ports, q.same p = false) (vip : String) :
    (t.put p.name ports).add p vip =
      .ok (t.put p.name (ports ++ [p.bare vip p.attachment])) := by
  have held : ((t.put p.name ports).get? p.name).getD [] = ports := by
    rw [get?_put]
    by_cases h : ports = [] <;> simp [h]
  have hnew : ports.any (·.same p) = false := by simpa using new
  simp only [add, held, hnew]
  rw [← put_of_ne_nil (by simp), put_put]
  rfl

theorem add_eq_ok {vip : String} {t' : Table α} (h : t.add p vip = .ok t') :
    (∀ q ∈ (t.get? p.name).getD [], q.same p = false) ∧
      t' = t.put p.name ((t.get? p.name).getD [] ++ [p.bare vip p.attachment]) := by
  unfold add at h
  dsimp only at h
  split at h
  · cases h
  · next hnew =>
    refine ⟨by simpa using hnew, ?_⟩
    rw [put_of_ne_nil (by simp)]
    exact (Except.ok.inj h).symm

theorem add_of_absent {vip : String} (absent : t.get? p.name = none) :
    t.add p vip = .ok (t.insert p.name [p.bare vip p.attachment]) := by
  simp [add, absent, Port.bare]

theorem add_put_of_taken (taken : ∃ q ∈ ports, q.same p = true) (vip : String) :
    ∃ e, (t.put p.name ports).add p vip = .error e := by
  have some_port : ports ≠ [] := fun h => by simp [h] at taken
  have held : ((t.put p.name ports).get? p.name).getD [] = ports := by
    simp [get?_put, some_port]
  exact ⟨_, by simp only [add, held]; exact if_pos (List.any_eq_true.2 taken)⟩

theorem length_filter_other_eq_iff :
    (ports.filter (!·.same p)).length = ports.length ↔ ∀ q ∈ ports, q.same p = false := by
  rw [List.length_filter_eq_length_iff]
  simp

theorem remove_put (hp : ∃ q ∈ ports, q.same p = true) :
    (t.put p.name ports).remove missing p =
      .ok (t.put p.name (ports.filter (!·.same p))) := by
  have some_port : ports ≠ [] := fun h => by simp [h] at hp
  have held : (t.put p.name ports).get? p.name = some ports := by simp [get?_put, some_port]
  have shorter : ¬ (ports.filter (!·.same p)).length = ports.length := by
    rw [length_filter_other_eq_iff]
    obtain ⟨q, hq, same⟩ := hp
    exact fun h => by simp [h q hq] at same
  simp only [remove, Table.ports, held, bind, Except.bind, shorter, if_false]
  rw [← put_put t p.name ports (ports.filter (!·.same p))]
  generalize t.put p.name ports = held
  rw [put]
  split <;> rfl

theorem remove_eq_ok {t' : Table α} (h : t.remove missing p = .ok t') :
    t' = t.put p.name (((t.get? p.name).getD []).filter (!·.same p)) := by
  cases hports : t.get? p.name with
  | none => simp [remove, Table.ports, hports, bind, Except.bind] at h
  | some ports =>
      simp only [remove, Table.ports, hports, bind, Except.bind] at h
      split at h
      · cases h
      · rw [put]
        split at h
        · next hleft => simpa [hleft] using (Except.ok.inj h).symm
        · next hleft => simpa [hleft] using (Except.ok.inj h).symm

end Table

end CloudBalancer
