import CloudBalancer.Proofs.Exactness

/-!
What a deletion of an elastic balancer leaves of the rules on groups, after requests of which any
call may have failed. A deletion withdraws what the ports derive, each from the groups of the
backends that it still has. A rule whose port or backend is gone, or whose health check is another
one by now, stays for good.
-/

namespace CloudBalancer

open Reconcile.Elastic Inventory

/-- A grant outlives a deletion if no port needs it at that time. -/
theorem holds_delete {name : String} {inv after : Inventory} (stocked : inv.Stocked .elastic)
    (h : (delete name).effect inv = (.ok (), after)) (x : Grant) :
    after.Holds x ↔ inv.Holds x ∧ ∀ p ∈ inv.ports .elastic name, ¬ Needs inv p x := by
  have valid := stocked.ports name
  have outcome := effect_delete inv (apart_of_pairs valid.pairs) fun p hp => valid.named hp
  rw [stocked.withPorts_ports, h] at outcome
  rcases outcome with ⟨base', heffect, -, holds⟩ | ⟨e, inv', heffect, -⟩
  · cases heffect
    rw [holds_withPorts, holds]
    rfl
  · cases heffect

/-- A deletion that goes through after requests for one elastic service that need not have: it
leaves no rule if and only if every rule there was is one that some port of the balancer still
derives for a group of its backends. -/
theorem delete_clears_iff {service : Service} (elastic : service.kind = .ok .elastic)
    {start : Inventory} (empty : start.elastic = ∅) {s : Session}
    (prompt : s.cloud.failures = [])
    (history : Attempted (·.service = service) start s.cloud.inventory) {last : Session}
    (ok : service.delete.run s = (.ok (), last)) :
    (∀ group, last.cloud.inventory.rulesOf group = []) ↔
      ∀ group, ∀ rule ∈ s.cloud.inventory.rulesOf group,
        ∃ p ∈ s.cloud.inventory.ports .elastic service.balancerName,
          Needs s.cloud.inventory p (group, rule) := by
  have outcome := service.delete.run_hasEffect prompt
  rw [ok, Service.delete_eq elastic, Program.effect_ofJob] at outcome
  have heffect : (delete service.balancerName).effect s.cloud.inventory =
      (.ok (), last.cloud.inventory) := Prod.ext outcome.result.symm outcome.inventory.symm
  have left := holds_delete (history.stocked empty) heffect
  simp only [List.eq_nil_iff_forall_not_mem]
  refine forall_congr' fun group => forall_congr' fun rule => ?_
  have hleft : rule ∈ last.cloud.inventory.rulesOf group ↔ _ := left (group, rule)
  rw [hleft, not_and, Holds]
  simp

namespace Sample

/-- The sample balancer with its rule granted. -/
def granted : Inventory :=
  ((Request.ensure service backends).program.simulate {}
    { cloud := { inventory } }).2.cloud.inventory

/-- The sample balancer as a deletion leaves it that fails to withdraw the rule. -/
def unrevoked : Inventory :=
  ((Request.delete service).program.simulate {} (refusing .revoke granted)).2.cloud.inventory

theorem granted_eq :
    granted = (({ cloud := { inventory } } : Session).serve
      (.ensure service backends)).cloud.inventory := by
  obtain ⟨w', hsimulate, hsession, -⟩ :=
    (Request.ensure service backends).program.simulate_of_quiet
      (w := { cloud := { inventory } }) rfl {}
  rw [granted, hsimulate]
  exact congrArg (·.cloud.inventory) hsession

theorem attempted_granted : Attempted (·.service = service) inventory granted := by
  rw [granted_eq]
  exact Attempted.serve .start rfl

theorem attempted_unrevoked : Attempted (·.service = service) inventory unrevoked :=
  .attempt {} (truthful_refusing .revoke granted) rfl attempted_granted

theorem exact_granted : Exact backends service.balancerName granted := by
  have start : Exact backends service.balancerName inventory := exact_of_empty rfl unruled
  have identified : Identified backends backends := by
    unfold Identified
    decide
  rw [granted_eq, (Session.serve_inventory rfl _).1]
  exact exact_request start identified (by decide +kernel) rfl (List.Subset.refl _)

end Sample

/-- Where nothing fails, the rule of the sample balancer goes. -/
theorem delete_clears_sample :
    (Sample.deleted Sample.granted).1 = .ok () ∧
      ∀ group, (Sample.deleted Sample.granted).2.cloud.inventory.rulesOf group = [] := by
  have ok : (Sample.deleted Sample.granted).1 = .ok () := by decide +kernel
  refine ⟨ok, (delete_clears_iff (s := { cloud := { inventory := Sample.granted } })
    (by decide +kernel) rfl rfl Sample.attempted_granted (Prod.ext ok rfl)).2 ?_⟩
  exact fun group rule hrule => (Sample.exact_granted.grants (group, rule)).1 hrule

/-- Where the rule is not withdrawn at first, the next deletion goes through and leaves it, for the
port has lost its backends by then. -/
theorem unrevoked_rule_stays :
    Sample.service.kind = .ok .elastic ∧ Sample.inventory.elastic = ∅ ∧
      (∀ group, Sample.inventory.rulesOf group = []) ∧
      Attempted (·.service = Sample.service) Sample.inventory Sample.unrevoked ∧
      (Sample.deleted Sample.unrevoked).1 = .ok () ∧
      (Sample.deleted Sample.unrevoked).2.cloud.inventory.rulesOf "g" ≠ [] :=
  ⟨by decide +kernel, rfl, Sample.unruled, Sample.attempted_unrevoked, by decide +kernel,
    by decide +kernel⟩

end CloudBalancer
