import CloudBalancer.Proofs.FailFast
import CloudBalancer.Proofs.L4Economy
import CloudBalancer.Proofs.Projection

/-!
Reconciling an elastic balancer wastes no call either: what it does about security groups between
its other calls makes none that is to change balancers, and leaves balancers alone. So for balancers
of both kinds, in every state that operations on services can bring about, each call of a
reconciliation that is to change balancers does.
-/

namespace CloudBalancer

/-- A health check that names a probe is not that of a port that has just come about. -/
theorem Probed.checked {d : ElasticPort} (probed : Probed d) : d.healthCheck ≠ {} := by
  obtain ⟨probe, names⟩ := probed
  intro blank
  rw [blank] at names
  cases names

namespace Reconcile.Elastic

open Inventory

variable {base : Inventory} {name : String} {d p q view first : ElasticPort}
  {before after desired current ports all : List ElasticPort} {backends : List Backend}

section Groups

theorem groundwork_asks : groundwork.LetsAsk := ⟨fun _ => rfl, fun _ => rfl⟩

theorem thrifty_groupsOf (target : Target) (backends : List Backend) (inv : Inventory) :
    (groupsOf target backends).Thrifty inv :=
  .of_within (within_groupsOf groundwork_asks backends) inv

theorem thrifty_groupsOfLeaving (target : Target) (backends : List Backend) (inv : Inventory) :
    (groupsOfLeaving target backends).Thrifty inv :=
  .of_within (within_groupsOfLeaving groundwork_asks backends) inv

theorem thrifty_authorize (target : Target) (groups : List String) (rules : List Rule)
    (inv : Inventory) : (authorize target groups rules).Thrifty inv :=
  .of_within (within_authorize groundwork_asks fun _ _ _ _ => rfl) inv

theorem thrifty_revoke (target : Target) (groups : List String) (rules : List Rule)
    (retained : List Grant) (inv : Inventory) :
    (revoke target groups rules retained).Thrifty inv :=
  .of_within (within_revoke groundwork_asks fun _ _ _ _ _ => rfl) inv

theorem thrifty_retainedGrants (desired : List ElasticPort) (topology except : ElasticPort)
    (inv : Inventory) : (retainedGrants desired topology except).Thrifty inv :=
  .of_within (within_retainedGrants groundwork_asks desired topology except) inv

theorem thrifty_retention (all : List ElasticPort) (d p : ElasticPort) (inv : Inventory) :
    (retention all d p).Thrifty inv :=
  .of_within (within_retention groundwork_asks all d p) inv

theorem thrifty_refreshRules (p view : ElasticPort) (retained : List Grant) (inv : Inventory) :
    (refreshRules p view retained).Thrifty inv :=
  .of_within (within_refreshRules groundwork_asks (fun _ _ _ => rfl) fun _ _ _ _ _ => rfl) inv

end Groups

section Steps

variable {retained : List Grant}

theorem thrifty_registerTargets (named : view.name = name) (selects : Selects view before p)
    (joins : addBackends p.backends backends ≠ p.backends) :
    (registerTargets view backends).Thrifty
      (base.withPorts .elastic name (before ++ p :: after)) := by
  refine (thrifty_registerBackends (k := .elastic) named selects joins).bind fun _ inv _ => ?_
  refine (Job.Thrifty.ofExcept _ inv).bind fun rules inv _ => ?_
  exact (thrifty_groupsOf _ backends inv).bind fun groups inv _ =>
    thrifty_authorize _ groups rules inv

theorem thrifty_deregisterTargets (named : view.name = name) (selects : Selects view before p)
    {left : List Backend} (removed : removeBackends p.backends backends = .ok left)
    (leaves : left ≠ p.backends) (remaining : List Backend) :
    (deregisterTargets view backends remaining retained).Thrifty
      (base.withPorts .elastic name (before ++ p :: after)) := by
  have gains := gains_deregisterBackends (k := .elastic) base after named selects removed leaves
  have deregisters : (deregisterLeaving view backends).Thrifty
      (base.withPorts .elastic name (before ++ p :: after)) := by
    refine (Job.Thrifty.remoteUnless .instanceNotFound (.ofPort view) gains).bind
      fun answer inv _ => ?_
    split <;> trivial
  refine deregisters.bind fun _ inv _ => ?_
  refine (Job.Thrifty.ofExcept _ inv).bind fun rules inv _ => ?_
  refine (thrifty_groupsOfLeaving _ backends inv).bind fun answer inv _ => ?_
  split
  · trivial
  · exact (thrifty_groupsOf _ remaining inv).bind fun used inv _ => thrifty_revoke _ _ rules _ inv

theorem thrifty_changeCheck (named : d.name = name) (selects : Selects d before q)
    (check : q.healthCheck = p.healthCheck) (retained : List Grant) :
    (changeCheck d p retained).Thrifty (base.withPorts .elastic name (before ++ q :: after)) := by
  unfold changeCheck
  split
  · next changed =>
    have differ : d.healthCheck ≠ q.healthCheck := check ▸ changed
    refine (thrifty_configureHealthCheck (k := .elastic) named selects differ).bind
      fun _ inv _ => ?_
    split
    · trivial
    · exact thrifty_refreshRules p (ruleView d p) retained inv
  · trivial

theorem thrifty_join (named : p.name = name) (selects : Selects p before q)
    (held : q.backends = p.backends) :
    (join d p).Thrifty (base.withPorts .elastic name (before ++ q :: after)) := by
  have viewNamed : (ruleView d p).name = name := named
  have viewSelects : Selects (ruleView d p) before q := ⟨selects.skips, selects.same⟩
  unfold join
  split
  · trivial
  · next some_join =>
    refine thrifty_registerTargets viewNamed viewSelects ?_
    rw [held]
    exact addBackends_ne (by simpa using some_join)

theorem thrifty_leave (named : p.name = name) (selects : Selects p before q)
    (held : q.backends = addBackends p.backends (backendDifferences d.backends p.backends))
    (retained : List Grant) :
    (leave d p retained).Thrifty (base.withPorts .elastic name (before ++ q :: after)) := by
  have viewNamed : (ruleView d p).name = name := named
  have viewSelects : Selects (ruleView d p) before q := ⟨selects.skips, selects.same⟩
  unfold leave
  split
  · trivial
  · next some_leave =>
    have removed := removeBackends_leaving d.backends p.backends
    rw [← held] at removed
    refine thrifty_deregisterTargets viewNamed viewSelects removed ?_ d.backends
    refine removeBackends_ne removed (by simpa using some_leave) fun r hr => ?_
    rw [held]
    exact subset_addBackends _ _ (mem_backendDifferences.1 hr).1

theorem thrifty_syncPort (named : d.name = name) (selects : Selects d before p)
    (routed : Routed all p) (wanted : d ∈ all) :
    (syncPort all d p).Thrifty (base.withPorts .elastic name (before ++ p :: after)) := by
  let settled : ElasticPort := { p with settings := d.settings }
  let checked : ElasticPort := { settled with healthCheck := d.healthCheck }
  let joined : ElasticPort := { checked with
    backends := addBackends p.backends (backendDifferences d.backends p.backends) }
  let left : ElasticPort := { checked with backends := syncedBackends d.backends p.backends }
  have pnamed : p.name = name := ((Port.same_iff.1 selects.same).1).trans named
  have hsettled : Selects d before settled := selects.other p.same_refl
  have hchecked : Selects p before checked := selects.self.other p.same_refl
  have hjoined : Selects p before joined := selects.self.other p.same_refl
  have hleft : Selects d before left := selects.other p.same_refl
  obtain ⟨retained, base₁, base₂, base₃, hretention, hcheck, hjoin, hleave, -, -⟩ :=
    effect_stages base after named selects routed wanted
  rw [syncPort_eq]
  refine (thrifty_updateSettings (k := .elastic) named selects).bind_ok
    (effect_updateSettings (k := .elastic) named selects) ?_
  refine (thrifty_retention all d p _).bind_ok hretention ?_
  refine (thrifty_changeCheck named hsettled rfl retained).bind_ok hcheck ?_
  refine (thrifty_join pnamed hchecked rfl).bind_ok hjoin ?_
  refine (thrifty_leave pnamed hjoined rfl retained).bind_ok hleave ?_
  exact thrifty_setFilter (k := .elastic) named hleft rfl

theorem thrifty_dropPort (base : Inventory) (apart : Apart ports) (held : p ∈ ports)
    (named : p.name = name) (busy : p.backends ≠ [])
    (granted : ∃ rules, grantedRules p = .ok rules) (retained : List Grant) :
    (do deregisterTargets p p.backends [] retained; deletePort (k := .elastic) name p :
      Job Unit).Thrifty (base.withPorts .elastic name ports) := by
  obtain ⟨before, after, rfl⟩ := List.append_of_mem held
  have selects : Selects p before p :=
    ⟨fun q hq => (List.pairwise_append.1 apart).2.2 q hq p List.mem_cons_self, p.same_refl⟩
  have removed : removeBackends p.backends p.backends = .ok _ :=
    removeBackends_of_same fun b hb => ⟨b, hb, b.same_refl⟩
  obtain ⟨base', heffect, -, -⟩ :=
    effect_deregisterTargets base after named selects removed granted [] retained
  refine (thrifty_deregisterTargets named selects removed
    (removeBackends_ne removed busy (List.Subset.refl _)) []).bind_ok heffect ?_
  exact thrifty_deletePort (k := .elastic) named
    ⟨_, List.mem_append_right _ List.mem_cons_self, p.same_refl⟩

theorem sheds_deleteStale (named : p.name = name) (routed : Routed desired p) :
    Sheds (k := .elastic) name (deleteStale name desired) p := by
  intro base ports apart held
  obtain ⟨base', heffect, -, -⟩ := effect_deleteStale base apart held named routed
  refine ⟨?_, base', heffect⟩
  unfold deleteStale
  split
  · exact thrifty_deletePort (k := .elastic) named ⟨p, held, p.same_refl⟩
  · next some_backend =>
    obtain ⟨retained, hretained, -⟩ :=
      effect_retainedGrants (base.withPorts .elastic name ports) p routed.placed
    refine (thrifty_retainedGrants desired p p _).bind_ok hretained ?_
    exact thrifty_dropPort base apart held named (by simpa using some_backend) routed.granted
      retained

theorem thrifty_configureNewPort (base : Inventory) (after : List ElasticPort)
    (named : d.name = name) (selects : Selects d before p)
    (differ : d.healthCheck ≠ p.healthCheck) (backends : p.backends = []) (filters : p.filters = [])
    (derivable : ∃ rules, deriveRules (ruleView d p) = .ok rules) :
    (configureNewPort name d p).Thrifty
      (base.withPorts .elastic name (before ++ p :: after)) := by
  let checked : ElasticPort := { p with healthCheck := d.healthCheck }
  let joined : ElasticPort := { checked with
    backends := addBackends p.backends (backendDifferences d.backends p.backends) }
  have pnamed : p.name = name := ((Port.same_iff.1 selects.same).1).trans named
  have hchecked : Selects p before checked := selects.self.other p.same_refl
  have hjoined : Selects d before joined := selects.other p.same_refl
  have registers : (if d.backends.isEmpty then return
      else registerTargets (ruleView d p) d.backends : Job Unit) = join d p := by
    rw [join, backends, show backendDifferences d.backends [] = d.backends from differences_nil ..]
  obtain ⟨base', hjoin, -, -⟩ := effect_join base after pnamed hchecked
    (rfl : checked.backends = p.backends) derivable
  -- Where no job waits, they run in this order, each on what the one before it has left.
  rw [configureNewPort, registers]
  refine .group _ (.cons (thrifty_configureHealthCheck (k := .elastic) named selects differ)
    (effect_configureHealthCheck (k := .elastic) named selects) ?_)
  refine .cons (thrifty_join pnamed hchecked rfl) hjoin ⟨?_, fun _ _ => trivial⟩
  exact thrifty_setFilter (k := .elastic) named hjoined filters

end Steps

theorem thrifty_createPorts (base : Inventory) (named : ∀ d ∈ desired, d.name = name)
    (apart : Apart desired) :
    (createPorts name desired).Thrifty (base.withPorts .elastic name []) := by
  cases desired with
  | nil => trivial
  | cons p rest =>
      obtain ⟨hp, namedRest⟩ := List.forall_mem_cons.1 named
      let base' := base.allocated .elastic p.attachment
      let top : ElasticPort := firstPort (k := .elastic) base p
      have apartTop : Apart (top :: [] ++ rest) := List.pairwise_cons.2 (List.pairwise_cons.1 apart)
      refine (thrifty_createPort (k := .elastic) hp).bind_ok (effect_createPort hp) ?_
      exact (adds_registerPort (k := .elastic) base' name top).thrifty_forEach namedRest
        (fun q hq _ new => thrifty_registerPort (k := .elastic) (namedRest q hq) new) apartTop

/-- Ports with nothing configured are configured without waste, one after the other. -/
theorem thrifty_configureAll (base : Inventory) (unambiguous : Unambiguous desired)
    (named : ∀ d ∈ desired, d.name = name) (checked : ∀ d ∈ desired, d.healthCheck ≠ {})
    (covers : Covers name desired current) (routed : ∀ p ∈ current, Routed desired p)
    (bare : ∀ p ∈ current, ∀ d ∈ desired, d.same p = true → p.settings = d.settings ∧
      p.healthCheck = {} ∧ p.backends = [] ∧ p.filters = []) :
    (Program.forEach current fun p => do
        configureNewPort name (← Program.ofExcept (desiredFor desired p)) p).Thrifty
      (base.withPorts .elastic name current) := by
  -- The ports before `p` are as they are desired, those after it as they came about.
  let Reached (done rest : List ElasticPort) (inv : Inventory) : Prop :=
    current = done ++ rest ∧ ∃ base' : Inventory,
      inv = base'.withPorts .elastic name (done.map (Port.syncedBy desired) ++ rest)
  have start : Reached [] current (base.withPorts .elastic name current) := ⟨rfl, base, rfl⟩
  refine .forEach Reached ?_ start
  rintro done p rest _ ⟨rfl, base₁, rfl⟩
  obtain ⟨d, hd, hsame⟩ := covers.sound p (by simp)
  obtain ⟨settings, unchecked, backends, filters⟩ := bare p (by simp) d hd hsame
  have differ : d.healthCheck ≠ p.healthCheck := unchecked ▸ checked d hd
  have derivable : ∃ rules, deriveRules (ruleView d p) = .ok rules :=
    placed_of_same hsame ▸ (routed p (by simp)).placed d hd
  have selects := covers.selects hsame
  have wanted : Program.ofExcept (desiredFor desired p) = pure d := by
    rw [desiredFor_eq unambiguous hd hsame]
    rfl
  obtain ⟨base₂, heffect, -, -⟩ := effect_configureNewPort base₁ rest (named d hd) selects settings
    backends filters derivable
  rw [wanted]
  refine ⟨thrifty_configureNewPort base₁ rest (named d hd) selects differ backends filters
    derivable, _, heffect, by simp, base₂, ?_⟩
  simp [Port.syncedBy_eq unambiguous hd hsame]

theorem unchecked_newPorts (hp : p ∈ newPorts (k := .elastic) base desired) :
    p.healthCheck = {} := by
  cases desired with
  | nil => simp [newPorts] at hp
  | cons d rest =>
      rcases List.mem_cons.1 hp with rfl | hp
      · rfl
      · obtain ⟨e, -, rfl⟩ := List.mem_map.1 hp
        rfl

theorem thrifty_create (base : Inventory) (deployable : Deployable name desired)
    (hnew : desired ≠ []) :
    (create name desired).Thrifty (base.withPorts .elastic name []) := by
  obtain ⟨named, apart, probed, wired⟩ := deployable
  have unambiguous := unambiguous_of_apart apart
  have covers : Covers name desired (newPorts (k := .elastic) base desired) :=
    covers_newPorts (k := .elastic) base apart named
  have routable : ∀ p ∈ newPorts (k := .elastic) base desired, Routable p :=
    routable_newPorts wired
  obtain ⟨base₁, -, -, ⟨-, hports⟩ | ⟨undetermined, -⟩⟩ := effect_createPorts base hnew named
  case inr => exact absurd apart undetermined
  rw [create]
  refine .lift_ok (thrifty_createPorts base named apart) hports ?_
  refine .lift_ok (thrifty_describeExisting .elastic name _)
    (effect_describeExisting (k := .elastic) (covers.ne_nil hnew)) ?_
  refine (thrifty_configureAll base₁ unambiguous named (fun d hd => (probed d hd).checked) covers
    (fun p hp => (routable p hp).routed probed) fun p hp d hd hsame => ?_).bind
      fun _ _ _ => trivial
  obtain ⟨settings, backends, filters⟩ := bare_of_same unambiguous hp hd hsame
  exact ⟨settings, unchecked_newPorts hp, backends, filters⟩

theorem thrifty_syncPorts (base : Inventory) (deployable : Deployable name desired)
    (named : ∀ p ∈ first :: after, p.name = name) (apart : Apart (first :: after))
    (routed : ∀ p ∈ first :: after, Routed desired p) :
    (syncPorts name desired (first :: after)).Thrifty
      (base.withPorts .elastic name (first :: after)) := by
  unfold syncPorts
  dsimp only
  split
  · trivial
  · exact Reconcile.thrifty_syncPorts (k := .elastic) base deployable.named deployable.apart
      (fun d hd => (deployable.probed d hd).checked) apart
      fun s hs => sheds_deleteStale (named s hs) (routed s hs)

theorem thrifty_converge (base : Inventory) (deployable : Deployable name desired)
    (hnew : desired ≠ []) (named : ∀ p ∈ current, p.name = name) (apart : Apart current)
    (routable : ∀ p ∈ current, Routable p) :
    (converge name desired).Thrifty (base.withPorts .elastic name current) := by
  rw [converge]
  cases current with
  | nil =>
      refine .lift_ok (thrifty_describe .elastic name _) (effect_describe_nil (k := .elastic)) ?_
      exact (thrifty_create base deployable hnew).bind fun _ after _ => .ofExcept _ after
  | cons first after =>
      have routed : ∀ p ∈ first :: after, Routed desired p := fun p hp =>
        (routable p hp).routed deployable.probed
      have merged := routable_mergedPorts deployable.probed (routable first List.mem_cons_self)
        routable
      obtain ⟨base₁, hports, covers, -, -⟩ := (effect_syncPorts base hnew deployable.named named
        apart routed).resolve_right fun failed => failed.1 deployable.apart
      refine .lift_ok (thrifty_describe .elastic name _)
        (effect_describe (k := .elastic) (by simp)) ?_
      refine .lift_ok (thrifty_syncPorts base deployable named apart routed) hports ?_
      refine Program.Thrifty.bind (.ofJob (thrifty_syncAll (k := .elastic) base₁
        (unambiguous_of_apart deployable.apart) covers
        fun base before after d p hd hp selects => ?_)) fun _ inv _ => .ofExcept _ inv
      have routed : Routed desired p := (merged p hp).routed deployable.probed
      obtain ⟨base', heffect, -, -⟩ :=
        effect_syncPort base after (deployable.named d hd) selects routed hd
      exact ⟨thrifty_syncPort (deployable.named d hd) selects routed hd, base', heffect⟩

theorem Provisioned.thrifty_reconcile {inv : Inventory} (provisioned : Provisioned inv)
    (deployable : Deployable name desired) : (reconcile name desired).Thrifty inv := by
  unfold reconcile
  split
  · trivial
  · next some_port =>
    have former := provisioned.stocked.ports name
    have converges := thrifty_converge inv deployable (by simpa using some_port)
      (fun p hp => former.named hp) (apart_of_pairs former.pairs)
      fun p hp => (provisioned.deployed name p hp).routable
    rw [provisioned.stocked.withPorts_ports] at converges
    exact .reporting name converges

end Reconcile.Elastic

open Reconcile Inventory

variable {k : Kind}

theorem Service.checked_desired {service : Service} {backends : List Backend}
    {desired : List k.Port} (wanted : service.desired backends k = .ok desired) :
    ∀ d ∈ desired, d.healthCheck ≠ {} := by
  cases k with
  | l4 =>
      obtain ⟨policy, filters, pairs, -, rfl⟩ := desiredL4_eq_ok wanted
      intro d hd
      obtain ⟨pair, -, rfl⟩ := List.mem_map.1 hd
      exact (policy.probed_port service.balancerName backends filters
        { protocol := tcp, interfaces := [] } pair).checked
  | elastic => exact fun d hd => ((ofService_desiredElastic wanted).probed d hd).checked

/-- Reconciling what a service wants wastes no call. -/
theorem Administered.thrifty_reconcile {inv : Inventory} (administered : Administered inv)
    {service : Service} {backends : List Backend} {desired : List k.Port}
    (wanted : service.desired backends k = .ok desired) (pairs : (desired.map Port.pair).Nodup) :
    (reconcile service.balancerName k desired).Thrifty inv := by
  have apart := apart_of_pairs pairs
  cases k with
  | l4 =>
      exact L4.thrifty_reconcile (administered.stocked .l4) (service.named_desired wanted) apart
        (service.checked_desired wanted)
  | elastic =>
      exact administered.provisioned.thrifty_reconcile
        (Elastic.deployable_of_service (ofService_desiredElastic wanted) apart)

/-- No call of a reconciliation is redundant. Whatever was done to services before, each call that
is to change balancers succeeds and changes what the cloud has of them, if nothing disturbs the
reconciliation. -/
theorem reconcile_not_redundant {s : Session} (administered : Administered s.cloud.inventory)
    (prompt : s.cloud.failures = []) {service : Service} {backends : List Backend}
    {desired : List k.Port} (wanted : service.desired backends k = .ok desired)
    (pairs : (desired.map Port.pair).Nodup) :
    ∃ issued,
      ((reconcile service.balancerName k desired).run s).2.cloud = s.cloud.performAll issued ∧
      ((reconcile service.balancerName k desired).run s).2.cloud.calls =
        s.cloud.calls ++ issued ∧
      ∀ before c, before ++ [c] <+: issued → c.changesBalancers = true →
        (s.cloud.performAll before).Alters c :=
  (administered.thrifty_reconcile wanted pairs).alters ⟨prompt, administered.stocked⟩

open Sample in
/-- The second port of the sample balancer goes in two calls, and an L4 balancer of the same name
comes about besides. -/
theorem reconcile_not_redundant_widened :
    ((reconcile service.balancerName .elastic desired).run
        { cloud := widened }).2.cloud.calls.countP Call.changesBalancers =
      widened.calls.countP Call.changesBalancers + 2 ∧
    (∃ issued,
      ((reconcile service.balancerName .elastic desired).run { cloud := widened }).2.cloud =
        widened.performAll issued ∧
      ((reconcile service.balancerName .elastic desired).run { cloud := widened }).2.cloud.calls =
        widened.calls ++ issued ∧
      ∀ before c, before ++ [c] <+: issued → c.changesBalancers = true →
        (widened.performAll before).Alters c) ∧
    ∃ issued,
      ((reconcile service.balancerName .l4 (desired.map Port.unwired)).run
        { cloud := widened }).2.cloud = widened.performAll issued ∧
      ((reconcile service.balancerName .l4 (desired.map Port.unwired)).run
        { cloud := widened }).2.cloud.calls = widened.calls ++ issued ∧
      ∀ before c, before ++ [c] <+: issued → c.changesBalancers = true →
        (widened.performAll before).Alters c :=
  ⟨by decide +kernel,
    reconcile_not_redundant (k := .elastic) (s := { cloud := widened }) administered_widened
      (by decide +kernel) (desiredElastic_service : service.desired backends .elastic = .ok desired)
      (by decide +kernel),
    reconcile_not_redundant (k := .l4) (s := { cloud := widened }) administered_widened
      (by decide +kernel)
      (by decide +kernel : service.desired backends .l4 = .ok (desired.map Port.unwired))
      (by decide +kernel)⟩

end CloudBalancer
