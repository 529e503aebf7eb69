import CloudBalancer.Proofs.ElasticConvergence
import CloudBalancer.Proofs.L4Convergence

/-!
A second reconciliation has nothing to do. Whatever the first one found, it left every port such
that no difference to what is desired remains: not in the pairs, not in backends in either
direction, though identity of backends is not transitive, and not in the filter, though the entry
for any source may be there. So the second one looks, and that is all.
-/

namespace CloudBalancer

variable {k : Kind} {α : Type}

/-- Nothing tells the port `p` from what `d` says of it. -/
structure Steady (d p : Port α) : Prop where
  settings : d.settings = p.settings
  healthCheck : d.healthCheck = p.healthCheck
  none_joins : backendDifferences d.backends p.backends = []
  none_leaves : backendDifferences p.backends d.backends = []
  filters : filterChanges d.filters p.filters = []

theorem steady_synced {d p : Port α} (distinct : Distinct p.backends) : Steady d (d.synced p) := by
  refine ⟨rfl, rfl, differences_eq_nil_iff.2 fun b hb => ?_,
    differences_eq_nil_iff.2 fun r hr => exists_same_desired hr, filterChanges_synced ..⟩
  exact exists_same_syncedBackends distinct hb

theorem Covers.none_missing {name : String} {desired ports : List (Port α)}
    (covers : Covers name desired ports) : portDifferences desired ports = [] :=
  differences_eq_nil_iff.2 covers.complete

theorem Covers.none_stale {name : String} {desired ports : List (Port α)}
    (covers : Covers name desired ports) : portDifferences ports desired = [] := by
  refine differences_eq_nil_iff.2 fun p hp => ?_
  obtain ⟨d, hd, hsame⟩ := covers.sound p hp
  exact ⟨d, hd, by rwa [Port.same_comm]⟩

theorem Job.forEach_eq_pure {ι : Type} {items : List ι} {step : ι → Job Unit}
    (h : ∀ item ∈ items, step item = pure ()) : Job.forEach items step = pure () := by
  induction items with
  | nil => rfl
  | cons item rest ih =>
      rw [Job.forEach_cons, h item List.mem_cons_self, pure_bind]
      exact ih fun i hi => h i (.tail item hi)

namespace Reconcile

open Inventory

section Steps

variable {d p : k.Port}

theorem updateSettings_of_steady (steady : Steady d p) : updateSettings d p = pure () :=
  if_pos steady.settings

theorem setFilter_of_steady (steady : Steady d p) : setFilter d p.filters = pure () := by
  rw [setFilter, steady.filters]
  rfl

theorem L4.syncPort_of_steady {d p : L4Port} (steady : Steady d p) :
    L4.syncPort d p = pure () := by
  rw [L4.syncPort, updateSettings_of_steady (k := .l4) steady, if_pos steady.healthCheck,
    steady.none_joins, steady.none_leaves]
  exact setFilter_of_steady (k := .l4) steady

theorem Elastic.syncPort_of_steady (all : List ElasticPort) {d p : ElasticPort}
    (steady : Steady d p) : Elastic.syncPort all d p = pure () := by
  rw [Elastic.syncPort_eq, updateSettings_of_steady (k := .elastic) steady,
    setFilter_of_steady (k := .elastic) steady]
  simp [Elastic.retention, Elastic.changeCheck, Elastic.join, Elastic.leave, steady.healthCheck,
    steady.none_joins, steady.none_leaves]

end Steps

variable {name : String} {desired ports : List k.Port}

/-- A balancer that is as desired is left alone. -/
theorem adjust_of_steady {status : Status} (covers : Covers name desired ports)
    (unambiguous : Unambiguous desired)
    (steady : ∀ p ∈ ports, ∀ d ∈ desired, d.same p = true → Steady d p)
    (hstatus : statusOf name ports = .ok status) :
    adjust name k desired ports = .done status := by
  have missing := covers.none_missing
  have stale := covers.none_stale
  have synced (step : k.Port → k.Port → Job Unit)
      (hstep : ∀ d p, Steady d p → step d p = pure ()) :
      (Job.forEach ports fun p => do step (← Job.ofExcept (desiredFor desired p)) p) = pure () := by
    refine Job.forEach_eq_pure fun p hp => ?_
    obtain ⟨d, hd, hsame⟩ := covers.sound p hp
    rw [desiredFor_eq unambiguous hd hsame]
    exact hstep d p (steady p hp d hd hsame)
  cases k with
  | l4 =>
      have paired : L4.syncPorts name desired ports = pure ports := by
        rw [L4.syncPorts, missing, stale]
        rfl
      rw [adjust, paired, pure_bind, synced L4.syncPort fun _ _ => L4.syncPort_of_steady, pure_bind,
        hstatus]
      rfl
  | elastic =>
      have paired : Elastic.syncPorts name desired ports = pure ports := by
        rw [Elastic.syncPorts, missing, stale]
        rfl
      rw [adjust, paired]
      show ((liftM (Job.forEach ports _) : Program Unit) >>= fun _ => _) = _
      rw [synced (Elastic.syncPort desired) fun _ _ => Elastic.syncPort_of_steady desired, hstatus]
      rfl

/-- What a reconciliation that went through made of the ports `arranged`. -/
structure Brought (name : String) (desired arranged : List k.Port)
    (outcome : Except EngineError Status × Inventory) : Prop where
  status : outcome.1 = statusOf name arranged
  ports : ∃ base : Inventory,
    outcome.2 = base.withPorts k name (arranged.map (Port.syncedBy desired))
  covers : Covers name desired arranged
  distinct : ∀ p ∈ arranged, Distinct p.backends

/-- Where the balancer is as the last reconciliation left it, one call tells as much. -/
theorem run_of_brought {arranged : List k.Port} {s : Session} (prompt : s.cloud.failures = [])
    (hnew : desired ≠ []) (unambiguous : Unambiguous desired) {status : Status}
    (brought : Brought name desired arranged (.ok status, s.cloud.inventory)) :
    (reconcile name k desired).run s =
      (.ok status, { s with cloud := { s.cloud with
        calls := s.cloud.calls ++ [.describe k name] } }) := by
  obtain ⟨hstatus, ⟨base, hinventory⟩, covers, distinct⟩ := brought
  dsimp only at hstatus hinventory
  have steady : ∀ p ∈ arranged.map (Port.syncedBy desired), ∀ d ∈ desired,
      d.same p = true → Steady d p := by
    simp only [List.forall_mem_map]
    intro p hp d hd hsame
    rw [Port.same_comm, Port.syncedBy_same, Port.same_comm] at hsame
    rw [Port.syncedBy_eq unambiguous hd hsame]
    exact steady_synced (distinct p hp)
  have adjusted := adjust_of_steady covers.synced unambiguous steady
    ((L4.statusOf_map_syncedBy name desired arranged).trans hstatus.symm)
  obtain ⟨first, after, hports⟩ := List.exists_cons_of_ne_nil (covers.synced.ne_nil hnew)
  have described : s.cloud.inventory.apply (.describe k name) =
      .ok (arranged.map (Port.syncedBy desired), s.cloud.inventory) := by
    rw [hinventory]
    exact apply_describe (covers.synced.ne_nil hnew)
  rw [reconcile_eq hnew]
  show ((resume name k desired (s.perform (.describe k name)).1).handle _).run _ = _
  rw [s.perform_ok prompt described]
  dsimp only
  rw [hports] at adjusted ⊢
  rw [resume, adjusted]
  rfl

end Reconcile

/-- The states and desired ports of which reconciliations are spoken of here: for an L4 balancer all
that calls can bring about, for an elastic one what operations on services do. -/
inductive Reconcilable (cloud : Cloud) (name : String) : (k : Kind) → List k.Port → Prop
  | l4 {desired : List L4Port} (reachable : cloud.Reachable)
    (named : ∀ d ∈ desired, d.name = name) : Reconcilable cloud name .l4 desired
  | elastic {service : Service} {backends : List Backend} {desired : List ElasticPort}
    (administered : Administered cloud.inventory)
    (wanted : desiredElastic name backends service = .ok desired) :
    Reconcilable cloud name .elastic desired

open Reconcile Inventory

theorem Reconcilable.brought {cloud : Cloud} {name : String} {desired : List k.Port}
    (h : Reconcilable cloud name k desired) (hnew : desired ≠ [])
    (pairs : (desired.map Port.pair).Nodup) :
    Brought name desired
      (cloud.inventory.arrangedPorts desired (cloud.inventory.ports k name))
      ((reconcile name k desired).effect cloud.inventory) := by
  cases h with
  | l4 reachable named =>
      have valid := reachable.valid
      have former := (valid.stocked .l4).ports name
      have apart := apart_of_pairs pairs
      have covers := covers_arrangedPorts (k := .l4) cloud.inventory apart named
        (apart_of_pairs former.pairs) fun p hp => former.named hp
      obtain ⟨base, ports, rfl, heffect⟩ := L4.effect_reconcile valid hnew named apart
      refine ⟨?_, ⟨base, congrArg Prod.snd heffect⟩, covers,
        fun p hp => distinct_arrangedPorts former hp⟩
      exact (congrArg Prod.fst heffect).trans (L4.statusOf_map_syncedBy ..)
  | elastic administered wanted =>
      have provisioned := administered.provisioned
      obtain ⟨status, covers, base, hports, -, -⟩ :=
        provisioned.completed (ofService_desiredElastic wanted) hnew pairs
      exact ⟨status, ⟨base, hports⟩, covers,
        fun p hp => distinct_arrangedPorts (provisioned.stocked.ports name) hp⟩

/-- A reconciliation that follows one without failures makes one call, which looks at the balancer,
and comes to the same status. Nothing else happens. -/
theorem reconcile_idempotent {s : Session} {name : String} {desired : List k.Port}
    (reconcilable : Reconcilable s.cloud name k desired) (prompt : s.cloud.failures = [])
    (hnew : desired ≠ []) (pairs : (desired.map Port.pair).Nodup) :
    ∃ status first,
      (reconcile name k desired).run s = (.ok status, first) ∧
      (reconcile name k desired).run first =
        (.ok status, { first with cloud := { first.cloud with
          calls := first.cloud.calls ++ [.describe k name] } }) := by
  have outcome := (reconcile name k desired).run_hasEffect prompt
  obtain ⟨hstatus, hports, covers, distinct⟩ := reconcilable.brought hnew pairs
  rw [← outcome.result] at hstatus
  rw [← outcome.inventory] at hports
  obtain ⟨p, rest, harranged⟩ := List.exists_cons_of_ne_nil (covers.ne_nil hnew)
  have succeeds : ((reconcile name k desired).run s).1 = .ok ⟨p.vip⟩ := by
    rw [hstatus, harranged, statusOf]
  refine ⟨⟨p.vip⟩, ((reconcile name k desired).run s).2, Prod.ext succeeds rfl, ?_⟩
  exact run_of_brought outcome.prompt hnew (unambiguous_of_apart (apart_of_pairs pairs))
    ⟨succeeds ▸ hstatus, hports, covers, distinct⟩

/-- Both kinds of balancers, as a failure left them before the first reconciliation. -/
theorem reconcile_idempotent_samples :
    (∃ status first,
      (reconcile "web" .l4 [L4.samplePort 80, L4.samplePort 443]).run
        { cloud := L4.halfCreated.cloud } = (.ok status, first) ∧
      (reconcile "web" .l4 [L4.samplePort 80, L4.samplePort 443]).run first =
        (.ok status, { first with cloud := { first.cloud with
          calls := first.cloud.calls ++ [.describe .l4 "web"] } })) ∧
    ∃ status first,
      (reconcile Sample.service.balancerName .elastic Sample.desired).run
        { cloud := { inventory := Sample.misled } } = (.ok status, first) ∧
      (reconcile Sample.service.balancerName .elastic Sample.desired).run first =
        (.ok status, { first with cloud := { first.cloud with
          calls := first.cloud.calls ++ [.describe .elastic Sample.service.balancerName] } }) :=
  ⟨reconcile_idempotent (k := .l4) (s := { cloud := L4.halfCreated.cloud })
      (.l4 L4.reachable_halfCreated (by simp [L4.samplePort])) (by decide +kernel) (by simp)
      (by decide),
    reconcile_idempotent (k := .elastic) (s := { cloud := { inventory := Sample.misled } })
      (.elastic Sample.administered_misled Sample.desiredElastic_service) rfl
      (by simp [Sample.desired]) (by decide +kernel)⟩

end CloudBalancer
