import CloudBalancer.Proofs.Administration
import CloudBalancer.Proofs.L4Convergence

/-!
Elastic balancers taken for L4 ones, which is to forget how their ports are wired in. The operations
on the two kinds are written separately and make their calls in different orders. Where nothing goes
wrong they come to the same, for what they tell apart, keep, add and bring up to date is never the
wiring. All that an elastic balancer has of its own is what is granted to it.
-/

namespace CloudBalancer

namespace NameMap

variable {α β : Type}

/-- The map with `f` of every value. -/
def map (f : α → β) (m : NameMap α) : NameMap β where
  entries := m.entries.map fun e => (e.1, f e.2)
  ascending := List.pairwise_map.2 (m.ascending.imp fun h => h)

theorem get?_map (f : α → β) (m : NameMap α) (key : String) :
    (m.map f).get? key = (m.get? key).map f := by
  show (m.entries.map fun e => (e.1, f e.2)).lookup key = (m.entries.lookup key).map f
  induction m.entries with
  | nil => rfl
  | cons entry rest ih =>
      rw [List.map_cons, lookup_cons_name, lookup_cons_name, ih]
      split <;> rfl

end NameMap

/-- The port but for how it is wired in. -/
def Port.unwired (p : ElasticPort) : L4Port :=
  { p with attachment := () }

/-- The balancers but for how they are wired in. -/
def Table.unwired (t : Table Attachment) : Table Unit :=
  t.map (List.map Port.unwired)

section Ports

variable {desired current ports : List ElasticPort}

theorem Port.unwired_syncedBy (desired : List ElasticPort) (p : ElasticPort) :
    (p.syncedBy desired).unwired = p.unwired.syncedBy (desired.map Port.unwired) := by
  have found : (desired.map Port.unwired).find? (·.same p.unwired) =
      (desired.find? (·.same p)).map Port.unwired := List.find?_map ..
  rw [Port.syncedBy, Port.syncedBy, found]
  cases desired.find? (·.same p) <;> rfl

theorem unwired_portDifferences (target other : List ElasticPort) :
    (portDifferences target other).map Port.unwired =
      portDifferences (target.map Port.unwired) (other.map Port.unwired) := by
  simp only [portDifferences, differences, List.filter_map, List.any_map]
  rfl

theorem unwired_keptPorts (desired current : List ElasticPort) :
    (keptPorts desired current).map Port.unwired =
      keptPorts (desired.map Port.unwired) (current.map Port.unwired) := by
  simp only [keptPorts, List.filter_map, List.any_map]
  rfl

theorem statusOf_unwired (name : String) (ports : List ElasticPort) :
    Reconcile.statusOf name (ports.map Port.unwired) = Reconcile.statusOf name ports := by
  cases ports <;> rfl

theorem apart_unwired : Apart (ports.map Port.unwired) ↔ Apart ports :=
  List.pairwise_map

theorem named_unwired {name : String} (named : ∀ p ∈ ports, p.name = name) :
    ∀ p ∈ ports.map Port.unwired, p.name = name :=
  List.forall_mem_map.2 named

theorem Table.unwired_put (t : Table Attachment) (name : String) (ports : List ElasticPort) :
    (t.put name ports).unwired = t.unwired.put name (ports.map Port.unwired) := by
  refine NameMap.ext_get? fun key => ?_
  simp only [Table.unwired, NameMap.get?_map, Table.get?_put, List.map_eq_nil_iff]
  split
  · split <;> rfl
  · rfl

end Ports

namespace Inventory

/-- The L4 balancers of `plain` are the elastic ones of `wired` but for how these are wired in, and
the next balancer gets the same VIP. -/
structure Projects (wired plain : Inventory) : Prop where
  balancers : plain.l4 = wired.elastic.unwired
  lastVip : plain.lastVip = wired.lastVip

variable {wired plain : Inventory}

theorem Projects.ports (projects : wired.Projects plain) (name : String) :
    plain.ports .l4 name = (wired.ports .elastic name).map Port.unwired := by
  simp only [Inventory.ports, table, projects.balancers, Table.unwired, NameMap.get?_map]
  cases wired.elastic.get? name <;> rfl

theorem Projects.withPorts_ports (projects : wired.Projects plain)
    (stocked : wired.Stocked .elastic) (name : String) :
    plain.withPorts .l4 name ((wired.ports .elastic name).map Port.unwired) = plain := by
  rw [← projects.ports]
  refine Inventory.withPorts_ports (k := .l4) fun blank => stocked.solid name ?_
  simp only [table, projects.balancers, Table.unwired, NameMap.get?_map] at blank ⊢
  simpa using blank

theorem unwired_firstPort (lastVip : plain.lastVip = wired.lastVip) (p : ElasticPort) :
    (firstPort (k := .elastic) wired p).unwired = firstPort (k := .l4) plain p.unwired := by
  simp only [firstPort, lastVip]
  rfl

theorem unwired_arrangedPorts (lastVip : plain.lastVip = wired.lastVip)
    (desired current : List ElasticPort) :
    (arrangedPorts (k := .elastic) wired desired current).map Port.unwired =
      arrangedPorts (k := .l4) plain (desired.map Port.unwired) (current.map Port.unwired) := by
  cases current with
  | nil =>
      cases desired with
      | nil => rfl
      | cons d rest =>
          simp only [arrangedPorts, newPorts, List.map_nil, List.map_cons, List.map_map,
            unwired_firstPort lastVip]
          refine congrArg _ (List.map_congr_left fun q _ => ?_)
          rw [Function.comp_apply, Function.comp_apply, ← unwired_firstPort lastVip]
          rfl
  | cons first after =>
      simp only [arrangedPorts, mergedPorts, List.map_append, unwired_keptPorts,
        ← unwired_portDifferences, List.map_map]
      rfl

end Inventory

/-- An operation on an elastic balancer and its counterpart ended alike, with the same balancers. -/
structure Alike {α : Type} (wired plain : Except EngineError α × Inventory) : Prop where
  result : plain.1 = wired.1
  balancers : plain.2.l4 = wired.2.elastic.unwired

/-- It does not matter what else became of the inventories. -/
theorem Inventory.Projects.alike {α : Type} {wired plain wired' plain' : Inventory}
    (projects : wired.Projects plain) (same : wired.SameButRules wired')
    (balancers : plain'.l4 = plain.l4) (name : String) (ports : List ElasticPort)
    (result : Except EngineError α) :
    Alike (result, wired'.withPorts .elastic name ports)
      (result, plain'.withPorts .l4 name (ports.map Port.unwired)) := by
  have kept : wired'.elastic = wired.elastic := same.tables .elastic
  refine ⟨rfl, ?_⟩
  show plain'.l4.put name _ = (wired'.elastic.put name ports).unwired
  rw [Table.unwired_put, kept, balancers, projects.balancers]

namespace Reconcile

open Inventory Elastic

variable {wired plain : Inventory} {name : String} {desired : List ElasticPort}

/-- Both create the same ports or synchronise them in the same way. -/
theorem alike_reconcile (provisioned : Provisioned wired) (projects : wired.Projects plain)
    (deployable : Deployable name desired) :
    Alike ((reconcile name .elastic desired).effect wired)
      ((reconcile name .l4 (desired.map Port.unwired)).effect plain) := by
  by_cases hnew : desired = []
  · subst hnew
    exact ⟨rfl, projects.balancers⟩
  have valid := provisioned.stocked.ports name
  have named : ∀ p ∈ wired.ports .elastic name, p.name = name := fun p hp => valid.named hp
  have apart := apart_of_pairs valid.pairs
  obtain ⟨status, -, wired', hwired, same, -⟩ := provisioned.completed_deployable deployable hnew
  obtain ⟨plain', ports, hports, balancers, heffect⟩ := L4.effect_converge plain
    (by simpa using hnew) (named_unwired deployable.named) (apart_unwired.2 deployable.apart)
    (named_unwired named) (apart_unwired.2 apart)
  rw [projects.withPorts_ports provisioned.stocked] at heffect
  have arranged : ports = ((wired.arrangedPorts (k := .elastic) desired
      (wired.ports .elastic name)).map (Port.syncedBy desired)).map Port.unwired := by
    rw [hports, ← unwired_arrangedPorts projects.lastVip]
    simp only [List.map_map]
    exact List.map_congr_left fun p _ => (Port.unwired_syncedBy desired p).symm
  have hplain : (reconcile name .l4 (desired.map Port.unwired)).effect plain =
      (statusOf name ports, plain'.withPorts .l4 name ports) := by
    rw [reconcile, L4.effect_reconcile_eq (by simpa using hnew), heffect]
  have hstatus : statusOf name ports =
      statusOf name (wired.arrangedPorts (k := .elastic) desired (wired.ports .elastic name)) := by
    rw [arranged, statusOf_unwired, L4.statusOf_map_syncedBy]
  have hreconcile : (reconcile name .elastic desired).effect wired = (_, _) :=
    Prod.ext status hwired
  rw [hplain, hstatus, arranged, hreconcile]
  exact projects.alike same balancers name _ _

/-- The ports of both are deleted one by one. -/
theorem alike_delete (provisioned : Provisioned wired) (projects : wired.Projects plain)
    (name : String) :
    Alike ((delete name .elastic).effect wired) ((delete name .l4).effect plain) := by
  have valid := provisioned.stocked.ports name
  have named : ∀ p ∈ wired.ports .elastic name, p.name = name := fun p hp => valid.named hp
  have apart := apart_of_pairs valid.pairs
  have cleared := Elastic.effect_delete wired apart named
  have hplain := L4.effect_delete plain (named_unwired named) (apart_unwired.2 apart)
  rw [provisioned.stocked.withPorts_ports] at cleared
  rw [projects.withPorts_ports provisioned.stocked] at hplain
  show Alike ((Elastic.delete name).effect wired) ((L4.delete name).effect plain)
  rcases cleared with ⟨wired', hwired, same, -⟩ | ⟨e, wired', -, p, hp, -, undetermined⟩
  · rw [hplain, hwired]
    exact projects.alike same rfl name [] _
  · obtain ⟨rules, granted⟩ := (provisioned.deployed name p hp).granted
    exact absurd granted (undetermined rules)

theorem effect_status {k : Kind} (base : Inventory) (name : String) (ports : List k.Port) :
    (status k name).effect (base.withPorts k name ports) =
      (.ok (ports.head?.map fun p => ⟨p.vip⟩), base.withPorts k name ports) := by
  cases ports with
  | nil =>
      rw [status, Job.effect_bind_ok effect_describe_nil]
      rfl
  | cons first rest =>
      rw [status, Job.effect_bind_ok (effect_describe (by simp))]
      rfl

theorem alike_status (stocked : wired.Stocked .elastic) (projects : wired.Projects plain)
    (name : String) :
    Alike ((status .elastic name).effect wired) ((status .l4 name).effect plain) := by
  have hwired := effect_status (k := .elastic) wired name (wired.ports .elastic name)
  have hplain :=
    effect_status (k := .l4) plain name ((wired.ports .elastic name).map Port.unwired)
  rw [stocked.withPorts_ports] at hwired
  rw [projects.withPorts_ports stocked] at hplain
  rw [hwired, hplain]
  refine ⟨?_, projects.balancers⟩
  cases wired.ports .elastic name <;> rfl

end Reconcile

/-- What a run comes to. -/
def observed {α : Type} (outcome : Except EngineError α × Session) :
    Except EngineError α × Inventory :=
  (outcome.1, outcome.2.cloud.inventory)

theorem HasEffect.observed_eq {α : Type} {outcome : Except EngineError α × Session}
    {effect : Except EngineError α × Inventory} (h : HasEffect outcome effect) :
    observed outcome = effect :=
  Prod.ext h.result h.inventory

open Reconcile in
/-- Where nothing goes wrong, what is done to an elastic balancer is what the same operation does to
the L4 balancer that it is but for its wiring, whatever is granted to it. -/
theorem elastic_extends_l4 {s t : Session} (administered : Administered s.cloud.inventory)
    (prompt : s.cloud.failures = []) (prompt' : t.cloud.failures = [])
    (projects : s.cloud.inventory.Projects t.cloud.inventory) {name : String}
    {desired : List ElasticPort} (named : ∀ d ∈ desired, d.name = name)
    (pairs : (desired.map Port.pair).Nodup) (probed : ∀ d ∈ desired, Probed d)
    (wired : ∀ d ∈ desired, Wired d.attachment.interfaces) :
    Alike (observed ((reconcile name .elastic desired).run s))
        (observed ((reconcile name .l4 (desired.map Port.unwired)).run t)) ∧
      Alike (observed ((delete name .elastic).run s)) (observed ((delete name .l4).run t)) ∧
      Alike (observed ((status .elastic name).run s)) (observed ((status .l4 name).run t)) := by
  have provisioned := administered.provisioned
  simp only [(Program.run_hasEffect _ prompt).observed_eq,
    (Program.run_hasEffect _ prompt').observed_eq, (Job.run_hasEffect _ prompt).observed_eq,
    (Job.run_hasEffect _ prompt').observed_eq]
  exact ⟨alike_reconcile provisioned projects ⟨named, apart_of_pairs pairs, probed, wired⟩,
    alike_delete provisioned projects name, alike_status provisioned.stocked projects name⟩

namespace Sample

/-- The L4 balancer that the sample balancer with two ports is but for its wiring. -/
def plain : Cloud where
  inventory := { l4 := widened.inventory.elastic.unwired, lastVip := widened.inventory.lastVip }

end Sample

open Reconcile Sample in
/-- The second port is deleted again. -/
theorem elastic_extends_l4_widened :
    (plain.inventory.ports .l4 service.balancerName).map Port.pair =
        [⟨80, 30080⟩, ⟨443, 30443⟩] ∧
      Alike (observed ((reconcile service.balancerName .elastic desired).run { cloud := widened }))
        (observed ((reconcile service.balancerName .l4 (desired.map Port.unwired)).run
          { cloud := plain })) ∧
      Alike (observed ((delete service.balancerName .elastic).run { cloud := widened }))
        (observed ((delete service.balancerName .l4).run { cloud := plain })) ∧
      Alike (observed ((status .elastic service.balancerName).run { cloud := widened }))
        (observed ((status .l4 service.balancerName).run { cloud := plain })) := by
  have ofService := ofService_desiredElastic desiredElastic_service
  exact ⟨by decide +kernel, elastic_extends_l4 (s := { cloud := widened }) (t := { cloud := plain })
    administered_widened (by decide +kernel) rfl ⟨rfl, rfl⟩ ofService.named (by decide +kernel)
    ofService.probed ofService.wired⟩

end CloudBalancer
