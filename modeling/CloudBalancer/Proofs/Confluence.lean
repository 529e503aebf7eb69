import CloudBalancer.Proofs.Administration
import CloudBalancer.Proofs.Deployment
import CloudBalancer.Proofs.Interleaving

/-!
A new elastic balancer is configured by several jobs side by side for each port. They keep apart:
the health check, the backends and the filter of a port are different things, and groups are touched
by one of the jobs only. The rules that this one grants derive from what is desired and from the
addresses, which none of the jobs changes. So a creation comes to the same, by the same calls, in
whichever order these get through.
-/

namespace CloudBalancer

namespace Reconcile.Elastic

open Inventory

variable {name : String} {desired current : List ElasticPort} {d p : ElasticPort}

/-- What a job may ask that registers the backends of a port. -/
def Fills (view : ElasticPort) (c : Call) : Prop :=
  (∃ backends, c = .registerBackends .elastic view backends) ∨ c.OnGroups

theorem makes_configureHealthCheck (d : ElasticPort) :
    (configureHealthCheck (k := .elastic) d).Makes (· = .configureHealthCheck .elastic d) :=
  within_configureHealthCheck (k := .elastic) rfl

theorem makes_setFilter (d : ElasticPort) (current : List String) :
    (setFilter (k := .elastic) d current).Makes
      fun c => ∃ changes, c = .setFilter .elastic d changes := by
  refine within_setFilter (k := .elastic) ?_ current
  exact fun changes => ⟨changes, rfl⟩

theorem makes_registerTargets (view : ElasticPort) (backends : List Backend) :
    (registerTargets view backends).Makes (Fills view) := by
  refine within_registerTargets ⟨fun ids => ?_, fun group => ?_⟩ (.inl ⟨backends, rfl⟩)
    fun x _ _ => .inr (Call.onGroups_authorize x.1 x.2)
  · exact .inr (Call.onGroups_groupsOf ids)
  · exact .inr (Call.onGroups_awaitApplied group)

/-- Registering the backends of a port leaves alone what else there is to set of it. -/
theorem Fills.commutes {view : ElasticPort} {c c' : Call} {f : ElasticPort → ElasticPort}
    (fills : Fills view c') (sets : c.Sets (k := .elastic) d f) (same : d.same view = true)
    (hf : ∀ p q, (f p).same q = p.same q)
    (apart : ∀ p backends, f { p with backends } = { f p with backends })
    (held : ∀ p, (f p).backends = p.backends) : c.Commutes c' := by
  rcases fills with ⟨backends, rfl⟩ | groups
  · refine sets.commutes (Call.sets_registerBackends (k := .elastic) view backends) same hf
      (fun _ _ => rfl) fun p => ?_
    rw [apart, held]
  · exact Call.commutes_of_onPorts sets.onPorts groups

theorem makes_targets (d p : ElasticPort) :
    (if d.backends.isEmpty then return else registerTargets (ruleView d p) d.backends).Makes
      (Fills (ruleView d p)) := by
  split
  · trivial
  · exact makes_registerTargets _ _

/-- The jobs that configure a new port keep apart. -/
theorem orderly_configureNewPort (name : String) (same : d.same p = true) :
    (configureNewPort name d p).Orderly := by
  have view : d.same (ruleView d p) = true := same
  have checked := makes_configureHealthCheck d
  have filled := makes_targets d p
  have filtered := makes_setFilter d []
  refine Program.Orderly.group _ (List.pairwise_cons.2 ⟨fun job hjob => ?_,
    List.pairwise_cons.2 ⟨fun job hjob => ?filled, List.pairwise_singleton ..⟩⟩)
  · rcases List.mem_cons.1 hjob with rfl | hjob
    case inl =>
      refine Job.separate_of_makes checked filled fun c c' checks fills => ?_
      subst checks
      exact fills.commutes (Call.sets_configureHealthCheck (k := .elastic) d) view
        (fun _ _ => rfl) (fun _ _ => rfl) fun _ => rfl
    case inr =>
      rw [List.mem_singleton.1 hjob]
      refine Job.separate_of_makes checked filtered fun c c' checks filters => ?_
      subst checks
      obtain ⟨changes, rfl⟩ := filters
      exact (Call.sets_configureHealthCheck (k := .elastic) d).commutes
        (Call.sets_setFilter (k := .elastic) d changes) d.same_refl (fun _ _ => rfl)
        (fun _ _ => rfl) fun _ => rfl
  case filled =>
    rw [List.mem_singleton.1 hjob]
    refine Job.separate_of_makes filled filtered fun c c' fills filters => ?_
    obtain ⟨changes, rfl⟩ := filters
    exact (fills.commutes (Call.sets_setFilter (k := .elastic) d changes) view (fun _ _ => rfl)
      (fun _ _ => rfl) fun _ => rfl).symm

theorem orderly_create (name : String) (desired : List ElasticPort) :
    (create name desired).Orderly := by
  refine (Program.Orderly.ofJob _).bind fun _ => (Program.Orderly.ofJob _).bind fun current => ?_
  refine Program.Orderly.bind (.forEach fun p _ => ?_) fun _ => trivial
  cases chosen : desiredFor desired p with
  | ok d => exact orderly_configureNewPort name (desiredFor_eq_ok chosen).2
  | error e => trivial

theorem orderly_reconcile (name : String) (desired : List ElasticPort) :
    (reconcile name desired).Orderly := by
  unfold reconcile
  split
  · trivial
  refine .reporting name (Program.Orderly.bind (.ofJob _) fun found => ?_)
  cases found with
  | none => exact (orderly_create name desired).bind fun _ => .ofExcept _
  | some current =>
      exact (Program.Orderly.ofJob _).bind fun _ => (Program.Orderly.ofJob _).bind fun _ =>
        .ofExcept _

/-- Where there is no balancer, a reconciliation goes through. -/
theorem completed_of_absent {inv : Inventory} (deployable : Deployable name desired)
    (hnew : desired ≠ []) (absent : inv.elastic.get? name = none) :
    ∃ status final, (reconcile name desired).effect inv = (.ok status, final) := by
  have vacant : inv.ports .elastic name = [] := by simp [Inventory.ports, Inventory.table, absent]
  have hinv : inv.withPorts .elastic name [] = inv := by
    rw [← vacant]
    exact withPorts_ports (k := .elastic) (by simp [Inventory.table, absent])
  have completed := effect_create_deployable inv deployable hnew
  obtain ⟨first, rest, harranged⟩ := List.exists_cons_of_ne_nil (completed.covers.ne_nil hnew)
  have status := completed.status
  rw [harranged, hinv] at status
  rw [effect_reconcile_eq hnew]
  exact ⟨⟨first.vip⟩, _, Prod.ext status rfl⟩

end Reconcile.Elastic

open Reconcile Reconcile.Elastic

/-- A world in which no call has to wait. -/
def World.unhurried (w : World) : World := { w with script := [] }

theorem World.Patient.unhurried {config : Config} {asked : Call → Prop} {w : World}
    (patient : w.Patient config asked) : w.unhurried.Patient config asked :=
  patient.left rfl (List.nil_subset _)

/-- Creating a balancer, the calls may wait in whatever way, each not too long: this comes to the
same, by the same calls, as if none of them had to. -/
theorem creation_confluent {config : Config} {w : World} {name : String}
    {desired : List ElasticPort} (named : ∀ d ∈ desired, d.name = name)
    (pairs : (desired.map Port.pair).Nodup) (probed : ∀ d ∈ desired, Probed d)
    (wired : ∀ d ∈ desired, Wired d.attachment.interfaces)
    (absent : w.cloud.inventory.elastic.get? name = none)
    (patient : w.Patient config
      (· ∈ (reconcile name .elastic desired).asked w.cloud.inventory)) :
    let hurried := (reconcile name .elastic desired).simulate config w
    let unhurried := (reconcile name .elastic desired).simulate config w.unhurried
    (desired ≠ [] → ∃ status, hurried.1 = .ok status) ∧ hurried.1 = unhurried.1 ∧
      hurried.2.calls.Perm unhurried.2.calls ∧
      hurried.2.cloud.inventory = unhurried.2.cloud.inventory := by
  by_cases hnew : desired = []
  · subst hnew
    exact ⟨fun some_port => absurd rfl some_port, rfl, .refl _, rfl⟩
  obtain ⟨status, final, effect⟩ := completed_of_absent
    ⟨named, apart_of_pairs pairs, probed, wired⟩ hnew absent
  have orderly := orderly_reconcile name desired
  have due : (reconcile name .elastic desired).Sited Site.Due :=
    due_reconcile (k := .elastic) desired
  obtain ⟨result, inventory, calls⟩ :=
    Program.simulate_of_patient orderly due patient (fun _ => id) effect
  obtain ⟨result', inventory', calls'⟩ :=
    Program.simulate_of_patient orderly due patient.unhurried (fun _ => id) effect
  exact ⟨fun _ => ⟨status, result⟩, result.trans result'.symm, calls.trans calls'.symm,
    inventory.trans inventory'.symm⟩

namespace Sample

/-- What the sample service wants, with a filter. -/
def filtered : List ElasticPort :=
  desired.map ({ · with filters := ["10.0.0.0/8"] })

/-- The health check of a new port is there last, and its backends are there after its filter. -/
def delayed : World where
  cloud := { inventory }
  script := [(.configureHealthCheck .elastic, { beforeSecs := 9 }),
    (.registerBackends .elastic, { beforeSecs := 2, afterSecs := 3 }),
    (.setFilter .elastic, { afterSecs := 1 }), (.authorize, { beforeSecs := 1 })]

theorem patient_delayed (asked : Call → Prop) : delayed.Patient {} asked := by
  have waits : ∀ entry ∈ delayed.script, (entry.2.hang = false ∧ entry.2.error = none) ∧
      (entry.2.l4Ports = none ∧ entry.2.elasticPorts = none ∧ entry.2.groups = none ∧
        entry.2.vip = none) ∧
      clockSeconds entry.2.beforeSecs + clockSeconds entry.2.afterSecs ≤ 60 := by
    decide
  have minute (limit : Limit) : 60 ≤ Config.timeout {} limit := by
    cases limit <;> decide
  refine ⟨fun _ _ => rfl, fun entry hentry c _ _ => ?_⟩
  obtain ⟨⟨answered, unfailing⟩, ⟨l4, elastic, groups, vip⟩, inTime⟩ := waits entry hentry
  exact ⟨answered, unfailing, Reply.madeUp?_eq_none l4 elastic groups vip c,
    Nat.le_trans inTime (minute c.limit)⟩

end Sample

/-- With these delays, the calls are not issued in the order in which they are without. -/
theorem creation_confluent_delayed :
    let hurried := (reconcile Sample.service.balancerName .elastic Sample.filtered).simulate {}
      Sample.delayed
    let unhurried := (reconcile Sample.service.balancerName .elastic Sample.filtered).simulate {}
      Sample.delayed.unhurried
    hurried.2.calls.map Call.operation ≠ unhurried.2.calls.map Call.operation ∧
      (Sample.filtered ≠ [] → ∃ status, hurried.1 = .ok status) ∧ hurried.1 = unhurried.1 ∧
      hurried.2.calls.Perm unhurried.2.calls ∧
      hurried.2.cloud.inventory = unhurried.2.cloud.inventory := by
  have ofService := ofService_desiredElastic Sample.desiredElastic_service
  refine ⟨by decide +kernel, creation_confluent ?named ?pairs ?probed ?wired ?absent ?patient⟩
  case named => exact List.forall_mem_map.2 ofService.named
  case pairs => decide +kernel
  case probed => exact List.forall_mem_map.2 ofService.probed
  case wired => exact List.forall_mem_map.2 ofService.wired
  case absent => rfl
  case patient => exact Sample.patient_delayed _

end CloudBalancer
