import CloudBalancer.Proofs.Administration
import CloudBalancer.Proofs.Exactness

/-!
Reconciliation of an elastic balancer reaches the desired state from every state that operations on
services can bring about, whatever went wrong with them and whichever rules the groups hold or lack.
-/

namespace CloudBalancer

/-- The port `p` is as `d` says, without a filter of its own. -/
structure Serves (d p : ElasticPort) : Prop where
  settings : p.settings = d.settings
  healthCheck : p.healthCheck = d.healthCheck
  registered : ∀ b ∈ d.backends, ∃ r ∈ p.backends, b.same r = true
  wanted : ∀ r ∈ p.backends, ∃ b ∈ d.backends, r.same b = true
  filters : ∀ f ∈ p.filters, f = anySource

/-- The ports of a balancer that had `former`, if any, are as `desired` says and wired in alike. -/
structure Restored (former desired : List ElasticPort) (vip : String) (ports : List ElasticPort) :
    Prop where
  pairs : (ports.map Port.pair).Perm (desired.map Port.pair)
  serves : ∀ p ∈ ports, ∀ d ∈ desired, p.pair = d.pair → Serves d p
  vip : ∀ p ∈ ports, p.vip = vip
  interfaces : ∀ p ∈ ports, ∀ q ∈ ports, p.attachment.interfaces = q.attachment.interfaces
  kept : ∀ p ∈ ports, ∀ q ∈ former,
    p.vip = q.vip ∧ p.attachment.interfaces = q.attachment.interfaces

namespace Reconcile.Elastic

open Inventory

variable {inv : Inventory} {name : String} {backends : List Backend} {desired : List ElasticPort}

theorem Provisioned.deployed_ports (provisioned : Provisioned inv) (name : String) :
    ∀ p ∈ inv.ports .elastic name,
      Deployed ((inv.ports .elastic name).flatMap Port.backends) p := by
  intro p hp
  obtain ⟨protocol, wired, checked, -⟩ := provisioned.deployed name p hp
  exact ⟨protocol, wired, checked, fun b hb => List.mem_flatMap.2 ⟨p, hp, hb⟩⟩

/-- Where the desired ports are told apart, reconciling goes through. -/
theorem Provisioned.completed (provisioned : Provisioned inv)
    (service : OfService name backends desired) (hnew : desired ≠ [])
    (pairs : (desired.map Port.pair).Nodup) :
    Completed name desired inv (inv.ports .elastic name) ((reconcile name desired).effect inv) :=
  provisioned.completed_deployable (deployable_of_service service (apart_of_pairs pairs)) hnew

theorem serves_synced {d p : ElasticPort} (distinct : Distinct p.backends)
    (unfiltered : d.filters = []) : Serves d (d.synced p) := by
  refine ⟨rfl, rfl, fun b hb => exists_same_syncedBackends distinct hb,
    fun r hr => exists_same_desired hr, fun f hf => ?_⟩
  rcases mem_syncedFilters.1 hf with ⟨hf, -⟩ | ⟨hf, -⟩
  · simp [unfiltered] at hf
  · exact hf

theorem restored_synced {current arranged : List ElasticPort} {topology : ElasticPort}
    (service : OfService name backends desired)
    (unfiltered : ∀ d ∈ desired, d.filters = []) (pairs : (desired.map Port.pair).Nodup)
    (covers : Covers name desired arranged) (distinct : ∀ p ∈ arranged, Distinct p.backends)
    (wired : ∀ p ∈ current, WiredLike topology p)
    (arrangedWired : ∀ p ∈ arranged, WiredLike topology p) :
    Restored current desired topology.vip (arranged.map (Port.syncedBy desired)) := by
  have like : ∀ p ∈ arranged.map (Port.syncedBy desired),
      p.vip = topology.vip ∧ p.attachment.interfaces = topology.attachment.interfaces := by
    simp only [List.forall_mem_map, Port.syncedBy_vip, Port.syncedBy_attachment]
    exact fun p hp => ⟨(arrangedWired p hp).vip, (arrangedWired p hp).interfaces⟩
  refine ⟨covers.synced.perm (apart_of_pairs pairs) service.named, ?_,
    fun p hp => (like p hp).1, fun p hp q hq => (like p hp).2.trans (like q hq).2.symm,
    fun p hp q hq => ⟨(like p hp).1.trans (wired q hq).vip.symm,
      (like p hp).2.trans (wired q hq).interfaces.symm⟩⟩
  simp only [List.forall_mem_map, Port.syncedBy_pair]
  intro p hp d hd hpair
  have hsame : d.same p = true :=
    Port.same_iff.2 ⟨(service.named d hd).trans (covers.named p hp).symm, hpair.symm⟩
  rw [Port.syncedBy_eq service.unambiguous hd hsame]
  exact serves_synced (distinct p hp) (unfiltered d hd)

theorem Provisioned.restores (provisioned : Provisioned inv) {service : Service}
    (wanted : desiredElastic name backends service = .ok desired) (hnew : desired ≠ [])
    (pairs : (desired.map Port.pair).Nodup) :
    ∃ (status : Status) (base' : Inventory) (ports : List ElasticPort),
      (reconcile name desired).effect inv = (.ok status, base'.withPorts .elastic name ports) ∧
      ports ≠ [] ∧ Restored (inv.ports .elastic name) desired status.vip ports := by
  have ofService := ofService_desiredElastic wanted
  have valid := provisioned.stocked.ports name
  have distinct : ∀ p ∈ inv.arrangedPorts (k := .elastic) desired (inv.ports .elastic name),
      Distinct p.backends := fun p hp => distinct_arrangedPorts valid hp
  obtain ⟨hstatus, covers, base', hports, -, -⟩ := provisioned.completed ofService hnew pairs
  obtain ⟨topology, wired, arrangedWired⟩ :=
    wired_arrangedPorts inv ofService hnew valid (provisioned.deployed_ports name)
  generalize inv.arrangedPorts (k := .elastic) desired (inv.ports .elastic name) = arranged at *
  obtain ⟨first, rest, rfl⟩ := List.exists_cons_of_ne_nil (covers.ne_nil hnew)
  have hvip : first.vip = topology.vip := (arrangedWired first List.mem_cons_self).vip
  refine ⟨⟨topology.vip⟩, base', (first :: rest).map (Port.syncedBy desired),
    Prod.ext ?_ hports, by simp, ?_⟩
  · rw [hstatus, statusOf, hvip]
  · exact restored_synced ofService (filters_desiredElastic wanted) pairs covers distinct wired
      arrangedWired

end Reconcile.Elastic

open Reconcile.Elastic Inventory

/-- After whatever was done to services before, a request for an elastic one that nothing disturbs
succeeds, and leaves the balancer as the service wants it. -/
theorem ensure_restores {s : Session} (administered : Administered s.cloud.inventory)
    (prompt : s.cloud.failures = []) {service : Service} (elastic : service.kind = .ok .elastic)
    {backends : List Backend} {desired : List ElasticPort}
    (wanted : desiredElastic service.balancerName backends service = .ok desired)
    (hnew : desired ≠ []) (pairs : (desired.map Port.pair).Nodup) :
    ∃ status ports,
      ((service.ensure backends).run s).1 = .ok status ∧
      ((service.ensure backends).run s).2.cloud.inventory.elastic.get? service.balancerName =
        some ports ∧
      Restored (s.cloud.inventory.ports .elastic service.balancerName) desired status.vip
        ports := by
  obtain ⟨status, base', ports, heffect, some_port, restored⟩ :=
    administered.provisioned.restores wanted hnew pairs
  have outcome := (service.ensure backends).run_hasEffect prompt
  rw [Service.ensure_eq elastic wanted] at outcome ⊢
  rw [heffect] at outcome
  have held : (base'.withPorts .elastic service.balancerName ports).elastic.get?
      service.balancerName = some ports :=
    (get?_withPorts base' .elastic service.balancerName ports).trans (if_neg some_port)
  exact ⟨status, ports, outcome.result, outcome.inventory ▸ held, restored⟩

namespace Sample

/-- A world in which the second description is out of date: it does not have the new balancer. -/
def outdated : World where
  cloud := { inventory }
  script := [(.describe .elastic, {}), (.describe .elastic, { elasticPorts := some [] })]

/-- The sample balancer as a request leaves it that is misled in this way. -/
def misled : Inventory :=
  ((Request.ensure service backends).program.simulate {} outdated).2.cloud.inventory

theorem administered_misled : Administered misled :=
  .serve (w := outdated) (.ensure service backends) {} administered_inventory

end Sample

/-- The request that was misled left a port with nothing configured, the next one makes it good. -/
theorem ensure_restores_misled :
    (Sample.misled.ports .elastic Sample.service.balancerName).map Port.healthCheck = [{}] ∧
      ∃ status ports,
        (Sample.ensured Sample.misled).1 = .ok status ∧
        (Sample.ensured Sample.misled).2.cloud.inventory.elastic.get?
          Sample.service.balancerName = some ports ∧
        Restored (Sample.misled.ports .elastic Sample.service.balancerName) Sample.desired
          status.vip ports :=
  ⟨by decide +kernel,
    ensure_restores (s := { cloud := { inventory := Sample.misled } }) Sample.administered_misled
      rfl (by decide +kernel) Sample.desiredElastic_service (by simp [Sample.desired])
      (by decide +kernel)⟩

end CloudBalancer
