import CloudBalancer.Proofs.ElasticSync

/-!
What a reconciliation of an elastic balancer comes to where nothing goes wrong. It goes through if
the rules of all ports can be derived and no two desired ports are for one port pair. The ports of a
service are such that their rules can be derived at any time, so that all that can fail is that two
ports with one port pair are to be registered.
-/

namespace CloudBalancer

theorem OfService.unambiguous {name : String} {backends : List Backend}
    {desired : List ElasticPort} (service : OfService name backends desired) :
    Unambiguous desired :=
  fun d hd e he hsame => service.unique d hd e he (Port.same_iff.1 hsame).2

namespace Reconcile.Elastic

open Inventory

/-- Desired ports that can be deployed together: no two of them are the same, and the rules of each
can be derived. -/
structure Deployable (name : String) (desired : List ElasticPort) : Prop where
  named : ∀ d ∈ desired, d.name = name
  apart : Apart desired
  probed : ∀ d ∈ desired, Probed d
  wired : ∀ d ∈ desired, Wired d.attachment.interfaces

/-- The rules of a stored port can be derived once its health check is configured. -/
structure Routable (p : ElasticPort) : Prop where
  wired : Wired p.attachment.interfaces
  checked : p.healthCheck.target = "" ∨ Probed p

/-- What a stored port of an elastic balancer is like, whichever requests brought it about. -/
structure Deployed (known : List Backend) (p : ElasticPort) : Prop where
  protocol : p.attachment.protocol = tcp
  wired : Wired p.attachment.interfaces
  checked : p.healthCheck.target = "" ∨ Probed p
  known : p.backends ⊆ known

section Routable

variable {name : String} {desired current : List ElasticPort} {p first : ElasticPort}
  {base : Inventory}

theorem Routable.granted (routable : Routable p) : ∃ rules, grantedRules p = .ok rules := by
  rcases routable.checked with blank | probed
  · exact ⟨[], if_pos blank⟩
  · exact grantedRules_ok (deriveRules_ok probed routable.wired)

theorem Routable.routed (routable : Routable p) (probed : ∀ d ∈ desired, Probed d) :
    Routed desired p :=
  ⟨routable.granted, fun e he => deriveRules_ok (probed e he) routable.wired⟩

theorem isVipNetwork_fillInterfaces (vip : String) (last : Nat)
    (interfaces : List NetworkInterface) :
    (fillInterfaces vip last interfaces).1.map NetworkInterface.isVipNetwork =
      interfaces.map NetworkInterface.isVipNetwork := by
  induction interfaces generalizing last with
  | nil => rfl
  | cons interface rest ih =>
      unfold fillInterfaces
      split
      · simp [ih]
      · split <;> simp [ih]

theorem wired_iff (interfaces : List NetworkInterface) :
    Wired interfaces ↔ (interfaces.map NetworkInterface.isVipNetwork).length = 1 ∨
      (interfaces.map NetworkInterface.isVipNetwork).length = 2 ∧
        false ∈ interfaces.map NetworkInterface.isVipNetwork := by
  simp [Wired]

theorem wired_fillInterfaces {interfaces : List NetworkInterface} (wired : Wired interfaces)
    (vip : String) (last : Nat) : Wired (fillInterfaces vip last interfaces).1 := by
  rw [wired_iff] at wired ⊢
  rwa [isVipNetwork_fillInterfaces]

theorem routable_newPorts (wired : ∀ d ∈ desired, Wired d.attachment.interfaces) :
    ∀ p ∈ newPorts (k := .elastic) base desired, Routable p := by
  cases desired with
  | nil => simp [newPorts]
  | cons d rest =>
      have top : Wired (firstPort (k := .elastic) base d).attachment.interfaces :=
        wired_fillInterfaces (wired d List.mem_cons_self) _ _
      intro p hp
      rcases List.mem_cons.1 hp with rfl | hp
      · exact ⟨top, .inl rfl⟩
      · obtain ⟨e, -, rfl⟩ := List.mem_map.1 hp
        exact ⟨top, .inl rfl⟩

theorem routable_mergedPorts (probed : ∀ d ∈ desired, Probed d) (top : Routable first)
    (routable : ∀ p ∈ current, Routable p) :
    ∀ p ∈ mergedPorts (k := .elastic) first desired current, Routable p := by
  intro p hp
  rcases List.mem_append.1 hp with hp | hp
  · exact routable p (mem_keptPorts.1 hp).1
  · obtain ⟨d, hd, rfl⟩ := List.mem_map.1 hp
    exact ⟨top.wired, .inr (probed d (mem_portDifferences.1 hd).1)⟩

end Routable

section Deployed

variable {known backends : List Backend} {name : String} {desired : List ElasticPort}
  {d p first : ElasticPort} {base : Inventory}

theorem deployable_of_service (service : OfService name backends desired)
    (apart : Apart desired) : Deployable name desired :=
  ⟨service.named, apart, service.probed, service.wired⟩

theorem Deployed.routable (deployed : Deployed known p) : Routable p :=
  ⟨deployed.wired, deployed.checked⟩

theorem Deployed.granted (deployed : Deployed known p) : ∃ rules, grantedRules p = .ok rules :=
  deployed.routable.granted

theorem deployed_firstPort (service : OfService name backends desired) (hd : d ∈ desired) :
    Deployed known (firstPort (k := .elastic) base d) :=
  ⟨service.protocol d hd, wired_fillInterfaces (service.wired d hd) _ _, .inl rfl,
    List.nil_subset _⟩

theorem deployed_furtherPort (service : OfService name backends desired) (hd : d ∈ desired)
    (deployed : Deployed known first) :
    Deployed known (furtherPort (k := .elastic) first d) :=
  ⟨service.protocol d hd, deployed.wired, .inl rfl, List.nil_subset _⟩

theorem deployed_freshPort (service : OfService name backends desired) (hd : d ∈ desired)
    (deployed : Deployed known first) :
    Deployed known (freshPort (k := .elastic) first d) :=
  ⟨service.protocol d hd, deployed.wired, .inr (service.probed d hd), List.nil_subset _⟩

theorem Deployed.synced (deployed : Deployed known p) (service : OfService name backends desired)
    (hd : d ∈ desired) (hknown : backends ⊆ known) : Deployed known (d.synced p) := by
  refine ⟨deployed.protocol, deployed.wired, .inr (service.probed d hd), fun r hr => ?_⟩
  rcases mem_addBackends (mem_syncedBackends.1 hr).1 with h | h
  · exact deployed.known h
  · exact hknown (service.backends d hd ▸ (mem_backendDifferences.1 h).1)

end Deployed

variable {known backends : List Backend} {name : String} {base : Inventory}
  {desired current ports : List ElasticPort}

theorem deployed_syncedAll (service : OfService name backends desired) (hknown : backends ⊆ known)
    (covers : Covers name desired current) (deployed : ∀ p ∈ current, Deployed known p) :
    ∀ p ∈ current.map (Port.syncedBy desired), Deployed known p := by
  intro p' hp'
  obtain ⟨p, hp, rfl⟩ := List.mem_map.1 hp'
  obtain ⟨d, hd, hsame⟩ := covers.sound p hp
  rw [Port.syncedBy_eq service.unambiguous hd hsame]
  exact (deployed p hp).synced service hd hknown

theorem probed_syncedAll (service : OfService name backends desired)
    (covers : Covers name desired current) :
    ∀ p ∈ current.map (Port.syncedBy desired), Probed p := by
  intro p' hp'
  obtain ⟨p, hp, rfl⟩ := List.mem_map.1 hp'
  obtain ⟨d, hd, hsame⟩ := covers.sound p hp
  rw [Port.syncedBy_eq service.unambiguous hd hsame]
  exact service.probed d hd

theorem deployed_newPorts (service : OfService name backends desired) (subset : ports ⊆ desired) :
    ∀ p ∈ newPorts (k := .elastic) base ports, Deployed known p := by
  cases ports with
  | nil => simp [newPorts]
  | cons d rest =>
      have top : Deployed known (firstPort (k := .elastic) base d) :=
        deployed_firstPort service (subset List.mem_cons_self)
      intro p hp
      rcases List.mem_cons.1 hp with rfl | hp
      · exact top
      · obtain ⟨e, he, rfl⟩ := List.mem_map.1 hp
        exact deployed_furtherPort service (subset (List.mem_cons_of_mem d he)) top

theorem bare_newPorts {p : ElasticPort} (hp : p ∈ newPorts (k := .elastic) base ports) :
    p.backends = [] ∧ p.filters = [] ∧ ∃ d ∈ ports, d.same p = true ∧ p.settings = d.settings := by
  cases ports with
  | nil => simp [newPorts] at hp
  | cons d rest =>
      rcases List.mem_cons.1 hp with rfl | hp
      · exact ⟨rfl, rfl, d, List.mem_cons_self, d.same_refl, rfl⟩
      · obtain ⟨e, he, rfl⟩ := List.mem_map.1 hp
        exact ⟨rfl, rfl, e, List.mem_cons_of_mem d he, e.same_refl, rfl⟩

theorem bare_of_same {d p : ElasticPort} (unambiguous : Unambiguous desired)
    (hp : p ∈ newPorts (k := .elastic) base desired) (hd : d ∈ desired)
    (hsame : d.same p = true) : p.settings = d.settings ∧ p.backends = [] ∧ p.filters = [] := by
  obtain ⟨backends, filters, e, he, hsame_ep, settings⟩ := bare_newPorts hp
  have heq : e = d := unambiguous.eq_of_same he hd hsame_ep hsame
  exact ⟨heq ▸ settings, backends, filters⟩

theorem deployed_mergedPorts {first : ElasticPort} (service : OfService name backends desired)
    (top : Deployed known first) (deployed : ∀ p ∈ current, Deployed known p) :
    ∀ p ∈ mergedPorts (k := .elastic) first desired current, Deployed known p := by
  intro p hp
  rcases List.mem_append.1 hp with hp | hp
  · exact deployed p (mem_keptPorts.1 hp).1
  · obtain ⟨d, hd, rfl⟩ := List.mem_map.1 hp
    exact deployed_freshPort service (mem_portDifferences.1 hd).1 top

theorem deployed_arrangedPorts (base : Inventory) (service : OfService name backends desired)
    (deployed : ∀ p ∈ current, Deployed known p) :
    ∀ p ∈ arrangedPorts (k := .elastic) base desired current, Deployed known p := by
  cases current with
  | nil => exact deployed_newPorts service (List.Subset.refl _)
  | cons first after =>
      exact deployed_mergedPorts service (deployed first List.mem_cons_self) deployed

/-- A reconciliation that fails, which leaves new ports with nothing registered. -/
structure Aborted (known : List Backend) (name : String) (base : Inventory)
    (current : List ElasticPort) (outcome : Except EngineError Status × Inventory) : Prop where
  error : ∃ e, outcome.1 = .error e
  ports : ∃ base' added, outcome.2 = base'.withPorts .elastic name (current ++ added) ∧
    (∀ p ∈ added, p.backends = [] ∧ Deployed known p) ∧ base.SameButRules base' ∧
    ∀ x, base'.Holds x ↔ base.Holds x

/-- A reconciliation that goes through, with what becomes of every grant. -/
structure Completed (name : String) (desired : List ElasticPort) (base : Inventory)
    (current : List ElasticPort) (outcome : Except EngineError Status × Inventory) : Prop where
  status : outcome.1 = statusOf name (base.arrangedPorts (k := .elastic) desired current)
  covers : Covers name desired (base.arrangedPorts (k := .elastic) desired current)
  ports : ∃ base', outcome.2 = base'.withPorts .elastic name
      ((base.arrangedPorts (k := .elastic) desired current).map (Port.syncedBy desired)) ∧
    base.SameButRules base' ∧
    ∀ x, base'.Holds x ↔ UpheldAll base desired (base.arrangedPorts (k := .elastic) desired current)
      x (base.Holds x ∧ Survives base desired (portDifferences current desired) x)

theorem effect_reconcile_eq (hnew : desired ≠ []) (name : String) (inv : Inventory) :
    (reconcile name desired).effect inv = (converge name desired).effect inv := by
  rw [reconcile, if_neg (by simpa using hnew), effect_reporting]

theorem effect_create_deployable (base : Inventory) (deployable : Deployable name desired)
    (hnew : desired ≠ []) :
    Completed name desired base []
      ((converge name desired).effect (base.withPorts .elastic name [])) := by
  obtain ⟨named, apart, probed, wired⟩ := deployable
  have unambiguous := unambiguous_of_apart apart
  let current := newPorts (k := .elastic) base desired
  have covers : Covers name desired current := covers_newPorts (k := .elastic) base apart named
  have routable : ∀ p ∈ current, Routable p := routable_newPorts wired
  obtain ⟨base₁, same₁, holds₁, ⟨-, hports⟩ | ⟨undetermined, -⟩⟩ :=
    effect_createPorts base hnew named
  case inr => exact absurd apart undetermined
  obtain ⟨base₂, hconfigure, same₂, holds₂⟩ := effect_configureAll base₁ unambiguous named covers
    (fun p hp => (routable p hp).routed probed)
    fun p hp d hd hsame => bare_of_same unambiguous hp hd hsame
  have hcreate : (create name desired).effect (base.withPorts .elastic name []) =
      (.ok current, base₂.withPorts .elastic name (current.map (Port.syncedBy desired))) := by
    rw [create, Program.effect_lift_ok hports, Program.effect_lift_ok
      (effect_describeExisting (k := .elastic) (covers.ne_nil hnew)),
      Program.effect_bind_ok hconfigure]
    rfl
  rw [converge, Program.effect_lift_ok (effect_describe_nil (k := .elastic))]
  show Completed name desired base [] ((create name desired >>= fun current =>
    Program.ofExcept (statusOf name current)).effect (base.withPorts .elastic name []))
  rw [Program.effect_bind_ok hcreate, Program.effect_ofExcept]
  refine ⟨rfl, covers, base₂, rfl, same₁.trans same₂, fun x => ?_⟩
  have idle : ∀ p ∈ arrangedPorts (k := .elastic) base desired [], p.backends = [] :=
    fun p hp => (bare_newPorts hp).1
  rw [upheldAll_of_idle idle, holds₂, holds₁]
  simp only [joins_congr same₁.protects]
  refine or_congr_left (iff_self_and.2 fun _ => ?_)
  simp [Survives, portDifferences, differences]

/-- Once the port pairs are synchronised, all goes through. -/
theorem completed_of_syncPorts {first : ElasticPort} {after : List ElasticPort} {base₁ : Inventory}
    (named : ∀ d ∈ desired, d.name = name) (unambiguous : Unambiguous desired)
    (probed : ∀ d ∈ desired, Probed d) (routable : ∀ p ∈ first :: after, Routable p)
    (hports : (syncPorts name desired (first :: after)).effect
        (base.withPorts .elastic name (first :: after)) =
      (.ok (mergedPorts (k := .elastic) first desired (first :: after)),
        base₁.withPorts .elastic name
          (mergedPorts (k := .elastic) first desired (first :: after))))
    (covers : Covers name desired (mergedPorts (k := .elastic) first desired (first :: after)))
    (same₁ : base.SameButRules base₁)
    (holds₁ : ∀ x, base₁.Holds x ↔
      base.Holds x ∧ Survives base desired (portDifferences (first :: after) desired) x) :
    Completed name desired base (first :: after)
      ((converge name desired).effect (base.withPorts .elastic name (first :: after))) := by
  have merged := routable_mergedPorts probed (routable first List.mem_cons_self) routable
  obtain ⟨base₂, hall, same₂, holds₂⟩ := effect_syncAll base₁ unambiguous named covers
    fun p hp => (merged p hp).routed probed
  rw [converge, Program.effect_lift_ok (effect_describe (k := .elastic) (by simp))]
  dsimp only
  rw [Program.effect_lift_ok hports, Program.effect_lift_ok hall, Program.effect_ofExcept]
  refine ⟨rfl, covers, base₂, rfl, same₁.trans same₂, fun x => ?_⟩
  rw [holds₂, upheldAll_congr same₁.protects, holds₁]
  rfl

theorem effect_converge_deployable (base : Inventory) (deployable : Deployable name desired)
    (hnew : desired ≠ []) (named : ∀ p ∈ current, p.name = name) (apart : Apart current)
    (routable : ∀ p ∈ current, Routable p) :
    Completed name desired base current
      ((converge name desired).effect (base.withPorts .elastic name current)) := by
  cases current with
  | nil => exact effect_create_deployable base deployable hnew
  | cons first after =>
      obtain ⟨named', apart', probed, -⟩ := deployable
      obtain ⟨base₁, hports, covers, same, holds⟩ := (effect_syncPorts base hnew named' named apart
        fun p hp => (routable p hp).routed probed).resolve_right fun failed => failed.1 apart'
      exact completed_of_syncPorts named' (unambiguous_of_apart apart') probed routable hports
        covers same holds

theorem effect_create (base : Inventory) (service : OfService name backends desired)
    (hnew : desired ≠ []) :
    Completed name desired base []
        ((converge name desired).effect (base.withPorts .elastic name [])) ∨
      ¬ Apart desired ∧ Aborted known name base []
        ((converge name desired).effect (base.withPorts .elastic name [])) := by
  by_cases apart : Apart desired
  case pos => exact .inl (effect_create_deployable base (deployable_of_service service apart) hnew)
  obtain ⟨base', same, holds, ⟨determined, -⟩ | ⟨undetermined, e, done, hdone, hfailed⟩⟩ :=
    effect_createPorts base hnew service.named
  case inl => exact absurd determined apart
  have hcreate : (create name desired).effect (base.withPorts .elastic name []) =
      (.error e, base'.withPorts .elastic name (newPorts (k := .elastic) base done)) :=
    Program.effect_lift_error hfailed
  rw [converge, Program.effect_lift_ok (effect_describe_nil (k := .elastic))]
  show _ ∨ _ ∧ Aborted known name base [] ((create name desired >>= fun current =>
    Program.ofExcept (statusOf name current)).effect (base.withPorts .elastic name []))
  rw [Program.effect_bind_error hcreate]
  refine .inr ⟨undetermined, ⟨e, rfl⟩, base', _, rfl, fun p hp => ?_, same, holds⟩
  exact ⟨(bare_newPorts hp).1, deployed_newPorts service hdone p hp⟩

theorem effect_sync {first : ElasticPort} {after : List ElasticPort} (base : Inventory)
    (service : OfService name backends desired) (hnew : desired ≠ [])
    (named : ∀ p ∈ first :: after, p.name = name) (apart : Apart (first :: after))
    (deployed : ∀ p ∈ first :: after, Deployed known p) :
    Completed name desired base (first :: after)
        ((converge name desired).effect (base.withPorts .elastic name (first :: after))) ∨
      ¬ Apart desired ∧ Aborted known name base (first :: after)
        ((converge name desired).effect (base.withPorts .elastic name (first :: after))) := by
  have routable : ∀ p ∈ first :: after, Routable p := fun p hp => (deployed p hp).routable
  rcases effect_syncPorts base hnew service.named named apart
    fun p hp => (routable p hp).routed service.probed with
      ⟨base₁, hports, covers, same, holds⟩ | ⟨undetermined, e, done, hdone, hfailed⟩
  · exact .inl (completed_of_syncPorts service.named service.unambiguous service.probed routable
      hports covers same holds)
  · rw [converge, Program.effect_lift_ok (effect_describe (k := .elastic) (by simp))]
    dsimp only
    rw [Program.effect_lift_error hfailed]
    refine .inr ⟨undetermined, ⟨e, rfl⟩, base, _, rfl, fun p hp => ?_, .refl base, fun x => Iff.rfl⟩
    obtain ⟨d, hd, rfl⟩ := List.mem_map.1 hp
    exact ⟨rfl, deployed_freshPort service (hdone hd) (deployed first List.mem_cons_self)⟩

/-- Reconciling a balancer whose ports can always be routed. It fails only where two desired ports
are the same. -/
theorem effect_reconcile {inv : Inventory} (stocked : inv.Stocked .elastic)
    (service : OfService name backends desired) (hnew : desired ≠ [])
    (deployed : ∀ p ∈ inv.ports .elastic name, Deployed known p) :
    Completed name desired inv (inv.ports .elastic name) ((reconcile name desired).effect inv) ∨
      ¬ Apart desired ∧
        Aborted known name inv (inv.ports .elastic name) ((reconcile name desired).effect inv) := by
  have valid := stocked.ports name
  have hinv := stocked.withPorts_ports name
  have hreconcile : (reconcile name desired).effect inv =
      (converge name desired).effect (inv.withPorts .elastic name (inv.ports .elastic name)) := by
    rw [effect_reconcile_eq hnew, hinv]
  rw [hreconcile]
  cases hports : inv.ports .elastic name with
  | nil => exact effect_create inv service hnew
  | cons first after =>
      rw [hports] at valid deployed
      exact effect_sync inv service hnew (fun p hp => valid.named hp) (apart_of_pairs valid.pairs)
        deployed

end Reconcile.Elastic

end CloudBalancer
