import CloudBalancer.Proofs.PortLists
import CloudBalancer.Reconcile.L4

/-!
Reconciliation of an L4 balancer reaches the desired state from every state that calls can bring
about, those that a failed reconciliation leaves included. Creation and synchronisation come to
the same: each port, as it was or as it was just added, is brought to what is desired of it.
-/

namespace CloudBalancer

namespace Reconcile.L4

open Inventory

variable {base : Inventory} {name : String} {d p first : L4Port}
  {before after desired current : List L4Port}

theorem effect_configureNewPort (named : d.name = name) (selects : Selects d before p)
    (settings : p.settings = d.settings) (backends : p.backends = []) (filters : p.filters = []) :
    (configureNewPort d).effect (base.withPorts .l4 name (before ++ p :: after)) =
      (.ok (), base.withPorts .l4 name (before ++ d.synced p :: after)) := by
  let checked : L4Port := { p with healthCheck := d.healthCheck }
  let joined : L4Port := { checked with backends := addBackends p.backends d.backends }
  have hchecked : Selects d before checked := selects.other p.same_refl
  have hjoined : Selects d before joined := selects.other p.same_refl
  have hsynced : d.synced p = { joined with
      filters := applyChanges p.filters (filterChanges d.filters []) } := by
    simp [Port.synced, joined, checked, settings, backends, filters, syncedBackends_nil,
      syncedFilters]
  rw [configureNewPort, Job.effect_bind_ok (effect_configureHealthCheck named selects), hsynced]
  refine (Job.effect_unless (fun none => ?_) fun _ =>
    effect_registerBackends named hchecked d.backends).trans (effect_setFilter named hjoined [])
  rw [List.isEmpty_iff.1 none]
  rfl

theorem effect_syncPort (named : d.name = name) (selects : Selects d before p) :
    (syncPort d p).effect (base.withPorts .l4 name (before ++ p :: after)) =
      (.ok (), base.withPorts .l4 name (before ++ d.synced p :: after)) := by
  let joining := backendDifferences d.backends p.backends
  let leaving := backendDifferences p.backends d.backends
  let settled : L4Port := { p with settings := d.settings }
  let checked : L4Port := { settled with healthCheck := d.healthCheck }
  let joined : L4Port := { checked with backends := addBackends p.backends joining }
  let left : L4Port := { checked with backends := syncedBackends d.backends p.backends }
  have hname : p.name = name := ((Port.same_iff.1 selects.same).1).trans named
  have hsettled : Selects d before settled := selects.other p.same_refl
  have hchecked : Selects p before checked := selects.self.other p.same_refl
  have hjoined : Selects p before joined := selects.self.other p.same_refl
  have hleft : Selects d before left := selects.other p.same_refl
  rw [syncPort, Job.effect_bind_ok (effect_updateSettings named selects)]
  refine (Job.effect_unless (fun same => ?_) fun _ =>
    effect_configureHealthCheck named hsettled).trans ?_
  · rw [same]
  refine (Job.effect_unless (fun none => ?_) fun _ =>
    effect_registerBackends hname hchecked joining).trans ?_
  · rw [show joining = [] from List.isEmpty_iff.1 none]
    rfl
  refine (Job.effect_unless (fun none => ?_) fun _ =>
    effect_deregisterBackends hname hjoined (removeBackends_leaving ..)).trans ?_
  · rw [← syncedBackends_of_none_leaves (List.isEmpty_iff.1 none)]
  exact effect_setFilter named hleft p.filters

/-- The further ports of a new balancer are registered and configured one by one. -/
theorem adds_configured (base : Inventory) (name : String) (first : L4Port) :
    Adds .l4 base name first (fun p => do registerPort (k := .l4) name p; configureNewPort p)
      fun p => p.synced (furtherPort (k := .l4) first p) := by
  refine ⟨fun _ _ => rfl, fun {p after} named new => ?_, fun named taken => ?_⟩
  · have selects : Selects p (first :: after) (furtherPort (k := .l4) first p) :=
      ⟨new, p.same_refl⟩
    rw [Job.effect_bind_ok (effect_registerPort (k := .l4) named new)]
    exact effect_configureNewPort named selects rfl rfl rfl
  · obtain ⟨e, refused⟩ := effect_registerPort_of_taken (k := .l4) base named taken
    exact ⟨e, Job.effect_bind_error refused⟩

/-- A new balancer has its ports one after the other, each configured before the next one. -/
theorem effect_create (base : Inventory) (hnew : desired ≠ [])
    (named : ∀ d ∈ desired, d.name = name) (apart : Apart desired) :
    ∃ base' : Inventory, base'.l4 = base.l4 ∧
      (create name desired).effect (base.withPorts .l4 name []) =
        (.ok (), base'.withPorts .l4 name
          ((newPorts (k := .l4) base desired).map (Port.syncedBy desired))) := by
  cases desired with
  | nil => exact absurd rfl hnew
  | cons p rest =>
      let base' := base.allocated .l4 p.attachment
      let top : L4Port := firstPort (k := .l4) base p
      let settled : L4Port := p.synced top
      have hp : p.name = name := named p List.mem_cons_self
      have hconfigured : (configureNewPort p).effect (base'.withPorts .l4 name [top]) =
          (.ok (), base'.withPorts .l4 name [settled]) :=
        have selects : Selects p [] top := ⟨by simp, p.same_refl⟩
        effect_configureNewPort hp selects rfl rfl rfl
      have apartSettled : Apart ([settled] ++ rest) :=
        List.pairwise_cons.2 (List.pairwise_cons.1 apart)
      have hloop := (adds_configured base' name settled).effect_all
        (fun q hq => named q (List.mem_cons_of_mem p hq)) apartSettled
      refine ⟨base', rfl, ?_⟩
      rw [create, Job.effect_bind_ok (effect_createPort hp), Job.effect_bind_ok hconfigured, hloop]
      have htop : top.syncedBy (p :: rest) = p.synced top :=
        Port.syncedBy_eq (unambiguous_of_apart apart) List.mem_cons_self p.same_refl
      have hrest : ∀ q ∈ rest, (furtherPort (k := .l4) top q).syncedBy (p :: rest) =
          q.synced (furtherPort (k := .l4) top q) := fun q hq =>
        Port.syncedBy_eq (unambiguous_of_apart apart) (List.mem_cons_of_mem p hq) q.same_refl
      have hsynced : [settled] ++
            rest.map (fun q => q.synced (furtherPort (k := .l4) settled q)) =
          (newPorts (k := .l4) base (p :: rest)).map (Port.syncedBy (p :: rest)) := by
        rw [newPorts, List.map_cons, List.map_map]
        exact congrArg₂ _ htop.symm (List.map_congr_left fun q hq => (hrest q hq).symm)
      rw [hsynced]

theorem effect_syncPorts (base : Inventory) (named : ∀ d ∈ desired, d.name = name)
    (apart : Apart desired) (hnew : desired ≠ [])
    (currentNamed : ∀ p ∈ first :: after, p.name = name) (currentApart : Apart (first :: after)) :
    (syncPorts name desired (first :: after)).effect (base.withPorts .l4 name (first :: after)) =
      (.ok (mergedPorts (k := .l4) first desired (first :: after)),
        base.withPorts .l4 name (mergedPorts (k := .l4) first desired (first :: after))) := by
  unfold syncPorts
  dsimp only
  split
  · next h =>
    simp only [Bool.and_eq_true, List.isEmpty_iff] at h
    rw [mergedPorts_of_covers (k := .l4) first h.1 h.2]
    rfl
  · have covers := covers_mergedPorts (k := .l4) first (apart_portDifferences apart _) named
      currentApart
      currentNamed
    have missingNamed : ∀ p ∈ portDifferences desired (first :: after), p.name = name :=
      fun p hp => named p (mem_portDifferences.1 hp).1
    have staleNamed : ∀ p ∈ portDifferences (first :: after) desired, p.name = name :=
      fun p hp => currentNamed p (mem_portDifferences.1 hp).1
    have missingApart := apart_append_missing currentApart apart
    have hregister :=
      (adds_freshPort (k := .l4) base name first).effect_all missingNamed missingApart
    have staleHeld : portDifferences (first :: after) desired ⊆ first :: after ++
        (portDifferences desired (first :: after)).map (freshPort (k := .l4) first) :=
      fun p hp => List.mem_append_left _ (mem_portDifferences.1 hp).1
    have hdelete := effect_deleteAll (k := .l4) base staleNamed
      (apart_portDifferences currentApart desired) staleHeld
    rw [filter_grown] at hdelete
    rw [Job.effect_bind_ok hregister, Job.effect_bind_ok hdelete]
    exact effect_describeExisting (covers.ne_nil hnew)

theorem effect_syncAll (base : Inventory) (apart : Apart desired)
    (named : ∀ d ∈ desired, d.name = name) (covers : Covers name desired current) :
    (Job.forEach current fun p => do
        syncPort (← Job.ofExcept (desiredFor desired p)) p).effect
        (base.withPorts .l4 name current) =
      (.ok (), base.withPorts .l4 name (current.map (Port.syncedBy desired))) := by
  let reached (done rest : List L4Port) :=
    base.withPorts .l4 name (done.map (Port.syncedBy desired) ++ rest)
  have hstep : ∀ done p rest inv, current = done ++ p :: rest ∧ inv = reached done (p :: rest) →
      ∃ inv', (do syncPort (← Job.ofExcept (desiredFor desired p)) p).effect inv =
          (.ok (), inv') ∧ current = (done ++ [p]) ++ rest ∧ inv' = reached (done ++ [p]) rest := by
    rintro done p rest _ ⟨rfl, rfl⟩
    obtain ⟨d, hd, hsame⟩ := covers.sound p (by simp)
    have hfor : (Job.ofExcept (desiredFor desired p)).effect (reached done (p :: rest)) =
        (.ok d, reached done (p :: rest)) := by
      rw [Job.effect_ofExcept, desiredFor_eq (unambiguous_of_apart apart) hd hsame]
    have selects := covers.selects hsame
    refine ⟨_, (Job.effect_bind_ok hfor).trans (effect_syncPort (named d hd) selects), by simp, ?_⟩
    simp [reached, Port.syncedBy_eq (unambiguous_of_apart apart) hd hsame]
  obtain ⟨_, heffect, -, rfl⟩ := Job.effect_forEach
    (fun done rest inv => current = done ++ rest ∧ inv = reached done rest) hstep ⟨rfl, rfl⟩
  simpa [reached] using heffect

theorem statusOf_map_syncedBy (name : String) (desired ports : List (Port α)) :
    statusOf name (ports.map (Port.syncedBy desired)) = statusOf name ports := by
  cases ports with
  | nil => rfl
  | cons p rest =>
      simp only [List.map_cons, statusOf]
      rw [Port.syncedBy_vip]

theorem effect_converge (base : Inventory) (hnew : desired ≠ [])
    (named : ∀ d ∈ desired, d.name = name) (apart : Apart desired)
    (currentNamed : ∀ p ∈ current, p.name = name) (currentApart : Apart current) :
    ∃ (base' : Inventory) (ports : List L4Port),
      ports = (arrangedPorts (k := .l4) base desired current).map (Port.syncedBy desired) ∧
      base'.l4 = base.l4 ∧
      (converge name desired).effect (base.withPorts .l4 name current) =
        (statusOf name ports, base'.withPorts .l4 name ports) := by
  have covers :=
    covers_arrangedPorts (k := .l4) base apart named currentApart currentNamed
  cases current with
  | nil =>
      obtain ⟨base', others, hcreate⟩ := effect_create base hnew named apart
      refine ⟨base', _, rfl, others, ?_⟩
      have some_port : (newPorts (k := .l4) base desired).map (Port.syncedBy desired) ≠ [] :=
        fun h => covers.ne_nil hnew (List.map_eq_nil_iff.1 h)
      rw [converge, Job.effect_bind_ok effect_describe_nil]
      show (create name desired >>= fun _ => _).effect _ = _
      rw [Job.effect_bind_ok hcreate, Job.effect_bind_ok (effect_describeExisting some_port),
        Job.effect_ofExcept]
      rfl
  | cons first after =>
      refine ⟨base, _, rfl, rfl, ?_⟩
      have hsync := effect_syncPorts base named apart hnew currentNamed currentApart
      rw [converge, Job.effect_bind_ok (effect_describe (by simp))]
      show (syncPorts name desired (first :: after) >>= fun _ => _).effect _ = _
      have hall := effect_syncAll base apart named covers
      rw [Job.effect_bind_ok hsync]
      refine (Job.effect_bind_ok hall).trans ?_
      rw [Job.effect_ofExcept, statusOf_map_syncedBy]
      rfl

theorem effect_reconcile_eq (hnew : desired ≠ []) (name : String) (inv : Inventory) :
    (reconcile name desired).effect inv = (converge name desired).effect inv := by
  rw [reconcile, if_neg (by simpa using hnew), effect_reporting, Program.effect_ofJob]

theorem effect_delete (base : Inventory) (named : ∀ p ∈ current, p.name = name)
    (apart : Apart current) :
    (delete name).effect (base.withPorts .l4 name current) =
      (.ok (), base.withPorts .l4 name []) := by
  by_cases none : current = []
  · rw [none, delete, Job.effect_bind_ok effect_describe_nil]
    rfl
  · rw [delete, Job.effect_bind_ok (effect_describe none)]
    refine (effect_deleteAll (k := .l4) base named apart (List.Subset.refl _)).trans ?_
    rw [filter_none (k := .l4)]

/-- What a reconciliation without failures comes to. -/
theorem effect_reconcile {inv : Inventory} (valid : inv.Valid) (hnew : desired ≠ [])
    (named : ∀ d ∈ desired, d.name = name) (apart : Apart desired) :
    ∃ (base : Inventory) (ports : List L4Port),
      ports = (arrangedPorts (k := .l4) inv desired (inv.ports .l4 name)).map
        (Port.syncedBy desired) ∧
      (reconcile name desired).effect inv =
        (statusOf name ports, base.withPorts .l4 name ports) := by
  have former := (valid.stocked .l4).ports name
  obtain ⟨base, ports, hports, -, heffect⟩ := effect_converge inv hnew named apart
    (fun p hp => former.named hp) (apart_of_pairs former.pairs)
  rw [valid.withPorts_ports] at heffect
  refine ⟨base, ports, hports, ?_⟩
  rw [effect_reconcile_eq hnew, heffect]

end Reconcile.L4

/-- The port `p` of a balancer that had `former` is as `d` says. -/
structure Settled (former : List L4Port) (d p : L4Port) : Prop where
  settings : p.settings = d.settings
  healthCheck : p.healthCheck = d.healthCheck
  registered : ∀ b ∈ d.backends, ∃ r ∈ p.backends, b.same r = true
  wanted : ∀ r ∈ p.backends, ∃ b ∈ d.backends, r.same b = true
  filters : ∀ f, f ∈ p.filters ↔ (f ∈ d.filters ∧ f ≠ anySource) ∨
    (f = anySource ∧ ∃ q ∈ former, q.pair = d.pair ∧ anySource ∈ q.filters)

/-- The ports of a balancer that had `former` are as `desired` says. -/
structure Converged (former desired ports : List L4Port) : Prop where
  pairs : (ports.map Port.pair).Perm (desired.map Port.pair)
  settled : ∀ p ∈ ports, ∀ d ∈ desired, p.pair = d.pair → Settled former d p

theorem settled_synced {name : String} {former : List L4Port} {d p : L4Port}
    (valid : ValidPorts .l4 name former) (named : d.name = name) (hsame : d.same p = true)
    (origin : p ∈ former ∨ p.backends = [] ∧ p.filters = [] ∧ ∀ q ∈ former, p.same q = false) :
    Settled former d (d.synced p) := by
  have hpair : d.pair = p.pair := (Port.same_iff.1 hsame).2
  have distinct : Distinct p.backends := by
    rcases origin with hp | ⟨hbackends, -, -⟩
    · exact valid.backends hp
    · rw [hbackends]
      exact .nil
  have hany : anySource ∈ p.filters ↔ ∃ q ∈ former, q.pair = d.pair ∧ anySource ∈ q.filters := by
    rcases origin with hp | ⟨-, hfilters, hnew⟩
    · refine ⟨fun h => ⟨p, hp, hpair.symm, h⟩, ?_⟩
      rintro ⟨q, hq, hq_pair, h⟩
      have heq : q = p := List.inj_on_of_nodup_map valid.pairs hq hp (hq_pair.trans hpair)
      exact heq ▸ h
    · refine ⟨fun h => by simp [hfilters] at h, ?_⟩
      rintro ⟨q, hq, hq_pair, -⟩
      have hq_same : d.same q = true :=
        Port.same_iff.2 ⟨named.trans (valid.named hq).symm, hq_pair.symm⟩
      rw [Port.same_congr hsame, hnew q hq] at hq_same
      cases hq_same
  refine ⟨rfl, rfl, fun b hb => exists_same_syncedBackends distinct hb,
    fun r hr => exists_same_desired hr, fun f => ?_⟩
  rw [← hany]
  exact mem_syncedFilters

theorem converged_of_covers {name : String} {former desired arranged : List L4Port}
    (valid : ValidPorts .l4 name former) (named : ∀ d ∈ desired, d.name = name)
    (apart : Apart desired) (covers : Covers name desired arranged)
    (origin : ∀ p ∈ arranged,
      p ∈ former ∨ p.backends = [] ∧ p.filters = [] ∧ ∀ q ∈ former, p.same q = false) :
    Converged former desired (arranged.map (Port.syncedBy desired)) := by
  refine ⟨covers.synced.perm apart named, ?_⟩
  intro p' hp' d hd hpair
  obtain ⟨p, hp, rfl⟩ := List.mem_map.1 hp'
  rw [Port.syncedBy_pair] at hpair
  have hsame : d.same p = true :=
    Port.same_iff.2 ⟨(named d hd).trans (covers.named p hp).symm, hpair.symm⟩
  rw [Port.syncedBy_eq (unambiguous_of_apart apart) hd hsame]
  exact settled_synced valid (named d hd) hsame (origin p hp)

namespace Reconcile.L4

open Inventory

/-- From every cloud that calls can bring about, a reconciliation without failures succeeds and
leaves the balancer as it is desired. -/
theorem reconcile_converges {s : Session} (reachable : s.cloud.Reachable)
    (prompt : s.cloud.failures = []) {name : String} {desired : List L4Port}
    (hnew : desired ≠ []) (named : ∀ d ∈ desired, d.name = name)
    (pairs : (desired.map Port.pair).Nodup) :
    ∃ status ports,
      ((reconcile name desired).run s).1 = .ok status ∧
      ((reconcile name desired).run s).2.cloud.inventory.l4.get? name = some ports ∧
      statusOf name ports = .ok status ∧
      Converged (s.cloud.inventory.ports .l4 name) desired ports := by
  have valid := reachable.valid
  have former := (valid.stocked .l4).ports name
  have apart := apart_of_pairs pairs
  have covers := covers_arrangedPorts (k := .l4) s.cloud.inventory apart named
    (apart_of_pairs former.pairs) fun p hp => former.named hp
  have outcome := Program.run_hasEffect (reconcile name desired) prompt
  obtain ⟨base, ports, hports, heffect⟩ := effect_reconcile valid hnew named apart
  rw [heffect] at outcome
  have hnonempty : ports ≠ [] := by
    rw [hports]
    exact fun h => covers.ne_nil hnew (List.map_eq_nil_iff.1 h)
  have hheld : (base.withPorts .l4 name ports).l4.get? name = some ports :=
    (get?_withPorts base .l4 name ports).trans (if_neg hnonempty)
  obtain ⟨p, rest, hcons⟩ := List.exists_cons_of_ne_nil hnonempty
  refine ⟨⟨p.vip⟩, ports, ?_, ?_, ?_, ?_⟩
  · rw [outcome.result, hcons]
    rfl
  · rw [outcome.inventory, hheld]
  · rw [hcons]
    rfl
  · rw [hports]
    exact converged_of_covers former named apart covers fun p hp => mem_arrangedPorts hp

/-- A port that a sample balancer is to have. -/
def samplePort (balancerPort : UInt16) : L4Port where
  name := "web"
  settings := { accountingType := 1, policyType := "standard", balancingType := 1,
                networkVolume := 10 }
  pair := ⟨balancerPort, 30080⟩
  healthCheck := { target := "TCP:30080" }
  backends := [{ instanceId := "i-1" }]
  filters := ["10.0.0.1"]
  vip := ""
  attachment := ()

/-- The sample balancer as a reconciliation leaves it that fails to add the second port. -/
def halfCreated : World :=
  ((reconcile "web" [samplePort 80, samplePort 443]).simulate {}
    { script := [(.registerPort .l4, { hang := true })] }).2

theorem reachable_halfCreated : halfCreated.cloud.Reachable :=
  .simulate (w := { script := [(.registerPort .l4, { hang := true })] }) _ {} .empty

theorem reconcile_completes_sample :
    ∃ status ports,
      ((reconcile "web" [samplePort 80, samplePort 443]).run
        { cloud := halfCreated.cloud }).1 = .ok status ∧
      ((reconcile "web" [samplePort 80, samplePort 443]).run
        { cloud := halfCreated.cloud }).2.cloud.inventory.l4.get? "web" = some ports ∧
      statusOf "web" ports = .ok status ∧
      Converged (halfCreated.cloud.inventory.ports .l4 "web")
        [samplePort 80, samplePort 443] ports :=
  reconcile_converges (s := { cloud := halfCreated.cloud }) reachable_halfCreated
    (by decide +kernel) (by simp) (by simp [samplePort]) (by decide)

end Reconcile.L4

end CloudBalancer
