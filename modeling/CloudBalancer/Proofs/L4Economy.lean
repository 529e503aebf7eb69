import CloudBalancer.Proofs.PortEconomy

/-!
Reconciling an L4 balancer wastes no call, whether the balancer is created or brought up to date.
-/

namespace CloudBalancer

namespace Reconcile.L4

open Inventory

variable {base : Inventory} {name : String} {d p first : L4Port}
  {before after desired current : List L4Port}

theorem thrifty_configureNewPort (named : d.name = name) (selects : Selects d before p)
    (differ : d.healthCheck ≠ p.healthCheck) (backends : p.backends = [])
    (filters : p.filters = []) :
    (configureNewPort d).Thrifty (base.withPorts .l4 name (before ++ p :: after)) := by
  let checked : L4Port := { p with healthCheck := d.healthCheck }
  let joined : L4Port := { checked with backends := addBackends p.backends d.backends }
  have hchecked : Selects d before checked := selects.other p.same_refl
  have hjoined : Selects d before joined := selects.other p.same_refl
  rw [configureNewPort]
  refine (thrifty_configureHealthCheck (k := .l4) named selects differ).bind_ok
    (effect_configureHealthCheck (k := .l4) named selects) ?_
  refine .optional (fun none => ?_) (fun some_join => ?_)
    (fun _ => effect_registerBackends (k := .l4) named hchecked d.backends)
    (thrifty_setFilter (k := .l4) named hjoined filters)
  · rw [List.isEmpty_iff.1 none]
    rfl
  · refine thrifty_registerBackends (k := .l4) named hchecked ?_
    have joins : backendDifferences d.backends [] ≠ [] := by
      simpa [backendDifferences] using some_join
    have grown := addBackends_ne joins
    rw [backendDifferences, differences_nil] at grown
    rw [backends]
    exact grown

theorem thrifty_syncPort (named : d.name = name) (selects : Selects d before p) :
    (syncPort d p).Thrifty (base.withPorts .l4 name (before ++ p :: after)) := by
  let joining := backendDifferences d.backends p.backends
  let leaving := backendDifferences p.backends d.backends
  let settled : L4Port := { p with settings := d.settings }
  let checked : L4Port := { settled with healthCheck := d.healthCheck }
  let joined : L4Port := { checked with backends := addBackends p.backends joining }
  let left : L4Port := { checked with backends := syncedBackends d.backends p.backends }
  have hname : p.name = name := ((Port.same_iff.1 selects.same).1).trans named
  have hsettled : Selects d before settled := selects.other p.same_refl
  have hchecked : Selects p before checked := selects.self.other p.same_refl
  have hjoined : Selects p before joined := selects.self.other p.same_refl
  have hleft : Selects d before left := selects.other p.same_refl
  rw [syncPort]
  refine (thrifty_updateSettings (k := .l4) named selects).bind_ok
    (effect_updateSettings (k := .l4) named selects) ?_
  refine .optional (fun same => ?_)
    (fun differ => thrifty_configureHealthCheck (k := .l4) named hsettled differ)
    (fun _ => effect_configureHealthCheck (k := .l4) named hsettled) ?_
  · rw [same]
  refine .optional (fun none => ?_)
    (fun some_join => thrifty_registerBackends (k := .l4) hname hchecked (addBackends_ne
      fun none => some_join (List.isEmpty_iff.2 none)))
    (fun _ => effect_registerBackends (k := .l4) hname hchecked joining) ?_
  · rw [show joining = [] from List.isEmpty_iff.1 none]
    rfl
  refine .optional (fun none => ?_) (fun some_leave => ?_)
    (fun _ => effect_deregisterBackends (k := .l4) hname hjoined (removeBackends_leaving ..))
    (thrifty_setFilter (k := .l4) named hleft rfl)
  · rw [← syncedBackends_of_none_leaves (List.isEmpty_iff.1 none)]
  · have removed := removeBackends_leaving d.backends p.backends
    have some_leave : leaving ≠ [] := fun none => some_leave (List.isEmpty_iff.2 none)
    have held : leaving ⊆ joined.backends := fun r hr =>
      subset_addBackends _ _ (mem_backendDifferences.1 hr).1
    have gains := gains_deregisterBackends (k := .l4) base after hname hjoined removed
      (removeBackends_ne removed some_leave held)
    exact (Job.Thrifty.remote _ gains).logged

theorem thrifty_create (base : Inventory) (named : ∀ d ∈ desired, d.name = name)
    (apart : Apart desired) (checked : ∀ d ∈ desired, d.healthCheck ≠ {}) :
    (create name desired).Thrifty (base.withPorts .l4 name []) := by
  cases desired with
  | nil => trivial
  | cons p rest =>
      obtain ⟨hp, namedRest⟩ := List.forall_mem_cons.1 named
      obtain ⟨checkedFirst, checkedRest⟩ := List.forall_mem_cons.1 checked
      let base' := base.allocated .l4 p.attachment
      let top : L4Port := firstPort (k := .l4) base p
      have selects : Selects p [] top := ⟨by simp, p.same_refl⟩
      have apartSettled : Apart (p.synced top :: [] ++ rest) :=
        List.pairwise_cons.2 (List.pairwise_cons.1 apart)
      refine (thrifty_createPort (k := .l4) hp).bind_ok (effect_createPort hp) ?_
      refine (thrifty_configureNewPort hp selects checkedFirst rfl rfl).bind_ok
        (effect_configureNewPort hp selects rfl rfl rfl) ?_
      refine (adds_configured base' name (p.synced top)).thrifty_forEach namedRest
        (fun q hq after new => ?_) apartSettled
      have named : q.name = name := namedRest q hq
      have selects : Selects q (p.synced top :: after) (furtherPort (k := .l4) (p.synced top) q) :=
        ⟨new, q.same_refl⟩
      exact (thrifty_registerPort (k := .l4) named new).bind_ok
        (effect_registerPort (k := .l4) named new)
        (thrifty_configureNewPort named selects (checkedRest q hq) rfl rfl)

theorem thrifty_syncPorts (base : Inventory) (named : ∀ d ∈ desired, d.name = name)
    (apart : Apart desired) (checked : ∀ d ∈ desired, d.healthCheck ≠ {})
    (currentNamed : ∀ p ∈ first :: after, p.name = name) (currentApart : Apart (first :: after)) :
    (syncPorts name desired (first :: after)).Thrifty
      (base.withPorts .l4 name (first :: after)) := by
  unfold syncPorts
  dsimp only
  split
  · trivial
  refine Reconcile.thrifty_syncPorts (k := .l4) base named apart checked currentApart
    fun s hs base ports _ held => ?_
  have stale : ∃ q ∈ ports, q.same s = true := ⟨s, held, s.same_refl⟩
  have named : s.name = name := currentNamed s hs
  exact ⟨thrifty_deletePort (k := .l4) named stale, base, effect_deletePort (k := .l4) named stale⟩

theorem thrifty_converge (base : Inventory) (hnew : desired ≠ [])
    (named : ∀ d ∈ desired, d.name = name) (apart : Apart desired)
    (checked : ∀ d ∈ desired, d.healthCheck ≠ {}) (currentNamed : ∀ p ∈ current, p.name = name)
    (currentApart : Apart current) :
    (converge name desired).Thrifty (base.withPorts .l4 name current) := by
  rw [converge]
  cases current with
  | nil =>
      refine (thrifty_describe .l4 name _).bind_ok effect_describe_nil ?_
      refine (thrifty_create base named apart checked).bind fun _ inv _ => ?_
      exact (thrifty_describeExisting .l4 name inv).bind fun ports inv _ => .ofExcept _ inv
  | cons first after =>
      have covers := covers_mergedPorts (k := .l4) first (apart_portDifferences apart _) named
        currentApart currentNamed
      refine (thrifty_describe .l4 name _).bind_ok (effect_describe (by simp)) ?_
      refine (thrifty_syncPorts base named apart checked currentNamed currentApart).bind_ok
        (effect_syncPorts base named apart hnew currentNamed currentApart) ?_
      refine (thrifty_syncAll (k := .l4) base (unambiguous_of_apart apart) covers
        fun base before after d p hd _ selects => ?_).bind fun _ inv _ => .ofExcept _ inv
      exact ⟨thrifty_syncPort (named d hd) selects, base, effect_syncPort (named d hd) selects⟩

/-- Each call of a reconciliation that is to change the balancer does so. -/
theorem thrifty_reconcile {inv : Inventory} (stocked : inv.Stocked .l4)
    (named : ∀ d ∈ desired, d.name = name) (apart : Apart desired)
    (checked : ∀ d ∈ desired, d.healthCheck ≠ {}) : (reconcile name desired).Thrifty inv := by
  unfold reconcile
  split
  · trivial
  · next some_port =>
    have former := stocked.ports name
    have converges := thrifty_converge inv (by simpa using some_port) named apart checked
      (fun p hp => former.named hp) (apart_of_pairs former.pairs)
    rw [stocked.withPorts_ports] at converges
    exact .reporting name (.ofJob converges)

end Reconcile.L4

end CloudBalancer
