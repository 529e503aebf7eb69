import CloudBalancer.Proofs.Administration
import CloudBalancer.Proofs.L4Convergence
import CloudBalancer.Proofs.Requests

/-!
The first request for the balancer of a service, where nothing disturbs it. The balancer comes to be
with exactly the ports of the service if these are for different port pairs. A port pair that is
declared twice gets through the builder, and is refused by the cloud once the balancer is there.
-/

namespace CloudBalancer

open Inventory

section NewPorts

variable {k : Kind} {base : Inventory} {desired : List k.Port}

theorem pairs_newPorts (base : Inventory) (desired : List k.Port) :
    (base.newPorts desired).map Port.pair = desired.map Port.pair := by
  cases desired with
  | nil => rfl
  | cons first rest => simp [newPorts, firstPort, furtherPort, Port.bare]

theorem vip_newPorts : ∀ p ∈ base.newPorts desired, p.vip = vipAt (base.lastVip + 1) := by
  intro p hp
  cases desired with
  | nil => cases hp
  | cons first rest =>
      rcases List.mem_cons.1 hp with rfl | hp
      · rfl
      · obtain ⟨further, -, rfl⟩ := List.mem_map.1 hp
        rfl

theorem statusOf_newPorts (hnew : desired ≠ []) (name : String) :
    Reconcile.statusOf name (base.newPorts desired) = .ok ⟨vipAt (base.lastVip + 1)⟩ := by
  cases desired with
  | nil => exact absurd rfl hnew
  | cons first rest => rfl

end NewPorts

/-- How the creation of the balancer `name` ends: with all of the desired ports at the next address
if no two of them are the same, and with an error if there are such. -/
inductive Creation (k : Kind) (name : String) (desired : List k.Port) (base : Inventory) :
    Except EngineError Status × Inventory → Prop
  | built {ports : List k.Port} {after : Inventory} (apart : Apart desired)
      (pairs : ports.map Port.pair = desired.map Port.pair)
      (vip : ∀ p ∈ ports, p.vip = vipAt (base.lastVip + 1)) :
      Creation k name desired base
        (.ok ⟨vipAt (base.lastVip + 1)⟩, after.withPorts k name ports)
  | refused {e : EngineError} {after : Inventory} (taken : ¬ Apart desired) :
      Creation k name desired base (.error e, after)

/-- The new ports, synchronised, are what there is to be. -/
theorem Creation.of_newPorts {k : Kind} {name : String} {desired : List k.Port} {base : Inventory}
    {outcome : Except EngineError Status × Inventory} (hnew : desired ≠ []) (apart : Apart desired)
    (status : outcome.1 = Reconcile.statusOf name (base.newPorts desired)) {after : Inventory}
    (ports : outcome.2 =
      after.withPorts k name ((base.newPorts desired).map (Port.syncedBy desired))) :
    Creation k name desired base outcome := by
  obtain ⟨result, inv⟩ := outcome
  subst status ports
  rw [statusOf_newPorts hnew]
  refine .built apart ?_ ?_
  · have synced : Port.pair ∘ Port.syncedBy desired = Port.pair :=
      funext fun p => Port.syncedBy_pair desired p
    rw [List.map_map, synced, pairs_newPorts]
  · simp only [List.forall_mem_map, Port.syncedBy_vip]
    exact vip_newPorts

namespace Reconcile

variable {name : String} {base : Inventory}

/-- Of two L4 ports that are the same the second one is refused, when the first one is already
there. -/
theorem L4.effect_create_of_taken (base : Inventory) {desired : List L4Port}
    (named : ∀ d ∈ desired, d.name = name) (taken : ¬ Apart desired) :
    ∃ e after,
      (L4.create name desired).effect (base.withPorts .l4 name []) = (.error e, after) := by
  cases desired with
  | nil => exact absurd List.Pairwise.nil taken
  | cons p rest =>
      let base' := base.allocated .l4 p.attachment
      let top : L4Port := firstPort (k := .l4) base p
      have hp : p.name = name := named p List.mem_cons_self
      have selects : Selects p [] top := ⟨by simp, p.same_refl⟩
      have hconfigured : (L4.configureNewPort p).effect (base'.withPorts .l4 name [top]) =
          (.ok (), base'.withPorts .l4 name [p.synced top]) :=
        L4.effect_configureNewPort hp selects rfl rfl rfl
      have same : Apart ([p.synced top] ++ rest) → Apart (p :: rest) := fun apart =>
        List.pairwise_cons.2 (List.pairwise_cons.1 apart)
      obtain ⟨-, e, done, -, -, hloop⟩ := ((L4.adds_configured base' name
        (p.synced top)).effect_forEach (fun q hq => named q (List.mem_cons_of_mem p hq))
          (List.pairwise_singleton ..)).resolve_left fun added => taken (same added.1)
      exact ⟨e, _, by
        rw [L4.create, Job.effect_bind_ok (effect_createPort hp), Job.effect_bind_ok hconfigured,
          hloop]⟩

theorem L4.creation_reconcile {desired : List L4Port} (base : Inventory) (hnew : desired ≠ [])
    (named : ∀ d ∈ desired, d.name = name) :
    Creation .l4 name desired base
      ((L4.reconcile name desired).effect (base.withPorts .l4 name [])) := by
  rw [L4.effect_reconcile_eq hnew]
  by_cases apart : Apart desired
  · have unported : ∀ p ∈ ([] : List L4Port), p.name = name := by simp
    obtain ⟨after, ports, rfl, -, heffect⟩ :=
      L4.effect_converge base hnew named apart unported .nil
    rw [heffect]
    exact .of_newPorts hnew apart (statusOf_map_syncedBy ..) rfl
  · obtain ⟨e, after, hcreate⟩ := L4.effect_create_of_taken base named apart
    have hconverge : (L4.converge name desired).effect (base.withPorts .l4 name []) =
        (.error e, after) := by
      rw [L4.converge, Job.effect_bind_ok effect_describe_nil]
      exact Job.effect_bind_error hcreate
    rw [hconverge]
    exact .refused apart

theorem Elastic.creation_reconcile {desired : List ElasticPort} {backends : List Backend}
    (base : Inventory) (hnew : desired ≠ []) (service : OfService name backends desired) :
    Creation .elastic name desired base
      ((Elastic.reconcile name desired).effect (base.withPorts .elastic name [])) := by
  rw [Elastic.effect_reconcile_eq hnew]
  by_cases apart : Apart desired
  · obtain ⟨status, -, after, ports, -, -⟩ :=
      Elastic.effect_create_deployable base (Elastic.deployable_of_service service apart) hnew
    exact .of_newPorts hnew apart status ports
  · have outcome : Elastic.Completed name desired base [] _ ∨
        ¬ Apart desired ∧ Elastic.Aborted [] name base [] _ :=
      Elastic.effect_create base service hnew
    cases outcome with
    | inl completed =>
        have pairs := pairs_of_apart completed.covers.apart completed.covers.named
        exact absurd (apart_of_pairs (pairs_newPorts (k := .elastic) base desired ▸ pairs)) apart
    | inr failed =>
        obtain ⟨e, error⟩ := failed.2.error
        rw [show (Elastic.converge name desired).effect (base.withPorts .elastic name []) =
          (.error e, _) from Prod.ext error rfl]
        exact .refused apart

end Reconcile

namespace Service

variable {k : Kind} {service : Service} {backends : List Backend} {desired : List k.Port}

theorem ensure_eq_reconcile (ofKind : service.kind = .ok k)
    (wanted : service.desired backends k = .ok desired) :
    service.ensure backends = Reconcile.reconcile service.balancerName k desired := by
  rw [ensure, kindOrFail, ofKind]
  show Program.ofExcept ((service.desired backends k).mapError _) >>= _ = _
  rw [wanted]
  rfl

theorem creation_ensure (ofKind : service.kind = .ok k)
    (wanted : service.desired backends k = .ok desired) (hnew : desired ≠ []) {inv : Inventory}
    (absent : (inv.table k).get? service.balancerName = none) :
    Creation k service.balancerName desired inv ((service.ensure backends).effect inv) := by
  have unported : inv.withPorts k service.balancerName [] = inv := by
    have solid : (inv.table k).get? service.balancerName ≠ some [] := by simp [absent]
    have held := withPorts_ports solid
    rwa [Inventory.ports, absent] at held
  rw [ensure_eq_reconcile ofKind wanted]
  cases k with
  | l4 =>
      have creation := Reconcile.L4.creation_reconcile inv hnew (named_desired wanted)
      rwa [unported] at creation
  | elastic =>
      have creation := Reconcile.Elastic.creation_reconcile inv hnew
        (ofService_desiredElastic wanted)
      rwa [unported] at creation

end Service

/-- The balancer of a service is provided by the first request for it, with exactly the port pairs
that the service comes to and at an address of its own, just where no two of these are the same. -/
theorem first_ensure_provides_iff {s : Session} (prompt : s.cloud.failures = []) {k : Kind}
    {service : Service} (ofKind : service.kind = .ok k) {backends : List Backend}
    {desired : List k.Port} (wanted : service.desired backends k = .ok desired)
    (hnew : desired ≠ [])
    (absent : (s.cloud.inventory.table k).get? service.balancerName = none) :
    (∃ status ports,
      ((service.ensure backends).run s).1 = .ok status ∧
      status.vip = vipAt (s.cloud.inventory.lastVip + 1) ∧
      (((service.ensure backends).run s).2.cloud.inventory.table k).get? service.balancerName =
        some ports ∧
      ports.map Port.pair = desired.map Port.pair ∧ ∀ p ∈ ports, p.vip = status.vip) ↔
    (desired.map Port.pair).Nodup := by
  obtain ⟨result, inventory, -⟩ := (service.ensure backends).run_hasEffect prompt
  rw [result, inventory]
  have creation := service.creation_ensure ofKind wanted hnew absent
  generalize (service.ensure backends).effect s.cloud.inventory = outcome at creation
  constructor
  · rintro ⟨status, ports, succeeds, -⟩
    cases creation with
    | built apart => exact pairs_of_apart apart (service.named_desired wanted)
    | refused => cases succeeds
  · intro pairs
    cases creation with
    | @built ports after _ samePairs vip =>
        have some_port : ports ≠ [] := by
          intro none
          rw [none, List.map_nil, eq_comm, List.map_eq_nil_iff] at samePairs
          exact hnew samePairs
        exact ⟨_, ports, rfl, rfl, by rw [get?_withPorts, if_neg some_port], samePairs, vip⟩
    | refused taken => exact absurd (apart_of_pairs pairs) taken

namespace Sample

/-- The sample service with a second port, the same as the first one if `balancerPort` is 80. -/
def twofold (balancerPort : UInt16) : Service :=
  { service with
    ports := service.ports ++
      [{ protocol := tcp, port := balancerPort, nodePort := some 30080 }] }

def twofoldDesired (balancerPort : UInt16) : List ElasticPort :=
  desired ++ desired.map fun p => { p with pair := ⟨balancerPort, 30080⟩ }

end Sample

theorem first_ensure_provides_twofold :
    (Sample.twofold 443).desired Sample.backends .elastic = .ok (Sample.twofoldDesired 443) ∧
    ∃ status ports,
      (((Sample.twofold 443).ensure Sample.backends).run
        { cloud := { inventory := Sample.inventory } }).1 = .ok status ∧
      status.vip = vipAt 1 ∧
      (((Sample.twofold 443).ensure Sample.backends).run
        { cloud := { inventory := Sample.inventory } }).2.cloud.inventory.elastic.get?
          (Sample.twofold 443).balancerName = some ports ∧
      ports.map Port.pair = (Sample.twofoldDesired 443).map Port.pair ∧
      ∀ p ∈ ports, p.vip = status.vip :=
  have wanted : (Sample.twofold 443).desired Sample.backends .elastic =
      .ok (Sample.twofoldDesired 443) := by decide +kernel
  ⟨wanted, (first_ensure_provides_iff (k := .elastic)
    (s := { cloud := { inventory := Sample.inventory } }) rfl (by decide +kernel) wanted
    (by simp [Sample.twofoldDesired, Sample.desired]) rfl).2 (by decide)⟩

/-- A port pair that is declared twice is built twice, and the request fails over the second one
when the balancer is there with nothing configured. -/
theorem twice_declared_port_refused :
    (Sample.twofold 80).desired Sample.backends .elastic = .ok (Sample.twofoldDesired 80) ∧
      Sample.inventory.elastic.get? (Sample.twofold 80).balancerName = none ∧
      (((Sample.twofold 80).ensure Sample.backends).run
        { cloud := { inventory := Sample.inventory } }).1 =
          .error (.remote (.registerPort .elastic) (.port "web" ⟨80, 30080⟩)
            ⟨.duplicatePort, "port 80->30080 already exists on web"⟩) ∧
      ((((Sample.twofold 80).ensure Sample.backends).run
        { cloud := { inventory := Sample.inventory } }).2.cloud.inventory.ports .elastic
          (Sample.twofold 80).balancerName).map Port.pair = [⟨80, 30080⟩] := by
  decide +kernel

end CloudBalancer
