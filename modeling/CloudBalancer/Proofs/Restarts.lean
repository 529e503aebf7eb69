import CloudBalancer.Proofs.Validity
import Mathlib.Data.List.Induction

/-!
Clouds that are written down and started again. A table whose balancers have ports, all of them
under the balancer's name, is read back as it was from the ports it is written down as, so a restart
leaves a cloud that is in order as it is but for its address pools, its log and the failures that
are to happen. Hence whatever happens to an empty cloud leaves it in order.
-/

namespace CloudBalancer

namespace Table

variable {α : Type}

theorem get?_ofPorts (ports : List (Port α)) (key : String) :
    (ofPorts ports).get? key =
      if ports.filter (·.name = key) = [] then none else some (ports.filter (·.name = key)) := by
  induction ports using List.reverseRecOn with
  | nil => simp [ofPorts]
  | append_singleton ports port ih =>
      have step : ofPorts (ports ++ [port]) =
          (ofPorts ports).alter port.name fun same => same.getD [] ++ [port] := by
        simp [ofPorts]
      rw [step, NameMap.alter, NameMap.get?_insert, List.filter_append]
      by_cases hkey : key = port.name
      · subst hkey
        rw [ih]
        by_cases none_yet : ports.filter (·.name = port.name) = [] <;> simp [none_yet]
      · simp [hkey, Ne.symm hkey, ih]

/-- Among the ports of all balancers those with a name are the balancer of that name. -/
theorem filter_flatten_entries {entries : List (String × List (Port α))}
    (ascending : Ascending entries) (named : ∀ e ∈ entries, ∀ p ∈ e.2, p.name = e.1)
    (key : String) :
    (entries.map Prod.snd).flatten.filter (·.name = key) = (entries.lookup key).getD [] := by
  induction entries with
  | nil => rfl
  | cons entry rest ih =>
      obtain ⟨before, hrest⟩ := List.pairwise_cons.1 ascending
      have rest_eq := ih hrest fun e he => named e (List.mem_cons_of_mem entry he)
      have own : ∀ p ∈ entry.2, p.name = entry.1 := named entry List.mem_cons_self
      rw [List.map_cons, List.flatten_cons, List.filter_append, rest_eq, lookup_cons_name]
      by_cases hkey : key = entry.1
      · subst hkey
        have alone : rest.lookup entry.1 = none := by
          refine Option.eq_none_iff_forall_ne_some.2 fun ports held => ?_
          have later := before _ ((mem_iff_lookup hrest).2 held)
          exact String.lt_irrefl _ later
        rw [List.filter_eq_self.2 (by simpa using own), alone]
        simp
      · have others : entry.2.filter (·.name = key) = [] :=
          List.filter_eq_nil_iff.2 fun p hp => by simp [own p hp, Ne.symm hkey]
        simp [others, hkey]

theorem filter_allPorts {t : Table α}
    (named : ∀ name ports, t.get? name = some ports → ∀ p ∈ ports, p.name = name) (key : String) :
    t.allPorts.filter (·.name = key) = (t.get? key).getD [] :=
  filter_flatten_entries t.ascending
    (fun entry hentry => named entry.1 entry.2 ((t.mem_entries_iff _ _).1 hentry)) key

/-- A table in order is what it is written down as. -/
theorem ofPorts_allPorts {t : Table α} (solid : ∀ name, t.get? name ≠ some [])
    (named : ∀ name ports, t.get? name = some ports → ∀ p ∈ ports, p.name = name) :
    ofPorts t.allPorts = t := by
  refine NameMap.ext_get? fun key => ?_
  rw [get?_ofPorts, filter_allPorts named]
  cases held : t.get? key with
  | none => simp
  | some ports =>
      have some_port : ports ≠ [] := fun hnil => solid key (by rw [held, hnil])
      simp [some_port]

end Table

namespace Inventory

variable {inv : Inventory} {k : Kind}

theorem Stocked.ofPorts_allPorts (stocked : inv.Stocked k) :
    Table.ofPorts (inv.table k).allPorts = inv.table k := by
  refine Table.ofPorts_allPorts stocked.solid fun name ports held p hp => ?_
  have vports := stocked.ports name
  simp only [Inventory.ports, held, Option.getD_some] at vports
  exact vports.named hp

/-- Writing an inventory down and reading it back keeps the balancers of every kind. -/
theorem Valid.table_ofSnapshot (valid : inv.Valid) (k : Kind) :
    (ofSnapshot inv.snapshot).table k = inv.table k := by
  cases k with
  | l4 => exact (valid.stocked .l4).ofPorts_allPorts
  | elastic => exact (valid.stocked .elastic).ofPorts_allPorts

theorem Valid.ofSnapshot (valid : inv.Valid) : (ofSnapshot inv.snapshot).Valid :=
  ⟨fun k => (valid.stocked k).of_table (valid.table_ofSnapshot k), valid.rules, valid.members⟩

end Inventory

/-- What may happen to a cloud: a call, which may be refused; a failure that is set up for one; an
extension of a security group; and a restart from what it is written down as. -/
inductive Happening
  | call (c : Call)
  | failOn (op : Operation) (e : ApiError)
  | addToGroup (name : String) (instanceIds : List String)
  | restart

def Cloud.undergo (cloud : Cloud) : Happening → Cloud
  | .call c => (cloud.perform c).2
  | .failOn op e => cloud.failOn op e
  | .addToGroup name instanceIds =>
    { cloud with inventory := cloud.inventory.addToGroup name instanceIds }
  | .restart => .ofSnapshot cloud.snapshot

namespace Cloud

variable {cloud : Cloud}

/-- A call that the cloud answers was applied to its inventory. -/
theorem perform_eq_ok {c : Call} {answer : c.Answer} {after : Cloud}
    (h : cloud.perform c = (.ok answer, after)) :
    cloud.inventory.apply c = .ok (answer, after.inventory) := by
  unfold Cloud.perform at h
  dsimp only at h
  split at h
  · cases h
  · cases happly : cloud.inventory.apply c with
    | error e => simp [happly] at h
    | ok answered =>
        simp only [happly] at h
        cases h
        rfl

theorem perform_outcome (cloud : Cloud) (c : Call) :
    (∃ e, (cloud.perform c).1 = .error e ∧ (cloud.perform c).2.inventory = cloud.inventory) ∨
      ∃ answer, (cloud.perform c).1 = .ok answer ∧
        cloud.inventory.apply c = .ok (answer, (cloud.perform c).2.inventory) := by
  unfold perform
  dsimp only
  split
  case h_1 e _ => exact .inl ⟨e, rfl, rfl⟩
  case h_2 =>
      cases happly : cloud.inventory.apply c with
      | error e => exact .inl ⟨e, rfl, rfl⟩
      | ok result => exact .inr ⟨result.1, rfl, rfl⟩

theorem perform_inventory (cloud : Cloud) (c : Call) :
    (cloud.perform c).2.inventory = cloud.inventory ∨
      ∃ answer, cloud.inventory.apply c = .ok (answer, (cloud.perform c).2.inventory) := by
  cases cloud.perform_outcome c with
  | inl refused =>
      obtain ⟨e, -, same⟩ := refused
      exact .inl same
  | inr answered =>
      obtain ⟨answer, -, happly⟩ := answered
      exact .inr ⟨answer, happly⟩

theorem valid_undergo (valid : cloud.inventory.Valid) (happening : Happening) :
    (cloud.undergo happening).inventory.Valid := by
  cases happening with
  | call c =>
      rcases cloud.perform_inventory c with same | ⟨answer, happly⟩
      · rw [undergo, same]
        exact valid
      · exact valid.changes (Inventory.changes_apply happly)
  | failOn op e => exact valid
  | addToGroup name instanceIds => exact valid.addToGroup name instanceIds
  | restart => exact valid.ofSnapshot

theorem valid_undergoAll (valid : cloud.inventory.Valid) (happenings : List Happening) :
    (happenings.foldl undergo cloud).inventory.Valid := by
  induction happenings generalizing cloud with
  | nil => exact valid
  | cons happening rest ih => exact ih (valid_undergo valid happening)

/-- Whatever happens to an empty cloud, its balancers and security groups are in order. -/
theorem valid_whatever_happens (happenings : List Happening) :
    (happenings.foldl undergo {}).inventory.Valid :=
  valid_undergoAll Inventory.valid_empty happenings

end Cloud

end CloudBalancer
