import CloudBalancer.Proofs.Exactness
import CloudBalancer.Proofs.Repetition

/-!
What a repeated request makes up for once it goes through. Rules are granted where a port gets its
health check or its backends, so a port that has both already gets none, whether it was granted
its rules before or not. It has them in the end if they were there, or if another port of the
balancer that was not finished yet brings the same rules.
-/

namespace CloudBalancer

namespace Reconcile.Elastic

open Inventory

/-- A port with health check and backends. -/
def LooksDone (p : ElasticPort) : Prop :=
  p.healthCheck.target ≠ "" ∧ p.backends ≠ []

variable {desired current ports arranged : List ElasticPort} {backends : List Backend}
  {name : String} {inv : Inventory} {topology d p : ElasticPort} {x : Grant} {held : Prop}

/-- Synchronised ports have all backends. -/
theorem Begun.synced_backends (begun : Begun desired backends p) :
    syncedBackends backends p.backends = addBackends [] backends := by
  rw [syncedBackends_of_none_leaves begun.none_leaves]
  by_cases idle : p.backends = []
  · rw [idle, backendDifferences, differences_nil]
  · rw [begun.none_joins idle]
    exact begun.registered.resolve_left idle

/-- What is wanted of a port that is being brought about has a health check. -/
theorem Begun.check_eq (begun : Begun desired backends p)
    (service : OfService name backends desired) (hd : d ∈ desired) (hsame : d.same p = true)
    (checked : p.healthCheck.target ≠ "") : d.healthCheck = p.healthCheck := by
  obtain ⟨e, he, hsame_ep, unchecked | check⟩ := begun.wanted
  · simp [unchecked] at checked
  · rw [← service.unambiguous.eq_of_same he hd hsame_ep hsame, check]

/-- A grant for registered backends comes where a port is not done. -/
theorem upheld_iff_of_begun (begun : Begun desired backends p)
    (service : OfService name backends desired) (hd : d ∈ desired) (hsame : d.same p = true)
    (wired : WiredLike topology p) (protects : inv.Protects (addBackends [] backends) x.1) :
    Upheld inv desired d p x held ↔
      held ∨ ¬ LooksDone p ∧ Derives (placed d topology) x.2 := by
  have hbackends := service.backends d hd
  have subset : addBackends [] backends ⊆ backends := fun b hb =>
    (mem_addBackends hb).resolve_left (by simp)
  have newRule := derives_ruleView_iff (d := d) wired hsame x.2
  have noneLeaves : ¬ Leaves inv desired d p x := by
    simp [Leaves, hbackends, begun.none_leaves]
  by_cases idle : p.backends = []
  -- The backends are registered now, and the rules come with them.
  · have joins : Joins inv d p x ↔ Derives (placed d topology) x.2 := by
      rw [Joins, idle, backendDifferences, differences_nil, hbackends, newRule]
      exact and_iff_right (protects.mono subset)
    simp [Upheld, Refreshes, Expires, noneLeaves, joins, LooksDone, idle]
  · have noneJoins : ¬ Joins inv d p x := by
      simp [Joins, hbackends, begun.none_joins idle]
    have protectsHeld : inv.Protects p.backends x.1 := by
      rwa [begun.registered.resolve_left idle]
    -- The backends are all there: rules come with a change of the health check or not at all.
    by_cases checked : p.healthCheck.target = ""
    · have undone : ¬ LooksDone p := fun done => done.1 checked
      have underivable : ¬ Derives p x.2 := fun derives =>
        not_probed_of_blank checked (probed_of_derives derives)
      have changed : d.healthCheck ≠ p.healthCheck := fun heq => by
        refine not_probed_of_blank ?_ (service.probed d hd)
        rw [heq, checked]
      simp [Upheld, Refreshes, Expires, noneLeaves, noneJoins, underivable, changed, undone,
        protectsHeld, newRule]
    · have check := begun.check_eq service hd hsame checked
      have done : LooksDone p := ⟨checked, idle⟩
      simp [Upheld, Refreshes, Expires, noneLeaves, noneJoins, check, done]

theorem upheldAll_iff_of_begun (service : OfService name backends desired)
    (begun : ∀ p ∈ ports, Begun desired backends p) (wired : ∀ p ∈ ports, WiredLike topology p)
    (protects : inv.Protects (addBackends [] backends) x.1) :
    UpheldAll inv desired ports x held ↔
      held ∨ ∃ p ∈ ports, ¬ LooksDone p ∧ Derives (p.syncedBy desired) x.2 := by
  induction ports generalizing held with
  | nil => simp [UpheldAll]
  | cons p rest ih =>
      have hp := begun p List.mem_cons_self
      have hwired := wired p List.mem_cons_self
      obtain ⟨d, hd, hsame, -⟩ := hp.wanted
      have derives : Derives (p.syncedBy desired) x.2 ↔ Derives (placed d topology) x.2 := by
        rw [Port.syncedBy_eq service.unambiguous hd hsame]
        exact derives_synced_iff hwired hsame (service.protocol d hd) x.2
      rw [upheldAll_cons, counterpart_eq service.unambiguous hd hsame,
        ih (fun q hq => begun q (.tail p hq)) fun q hq => wired q (.tail p hq),
        upheld_iff_of_begun hp service hd hsame hwired protects, ← derives, or_assoc]
      simp

theorem begun_arrangedPorts (base : Inventory) (service : OfService name backends desired)
    (begun : ∀ p ∈ current, Begun desired backends p) :
    ∀ p ∈ arrangedPorts (k := .elastic) base desired current, Begun desired backends p := by
  intro p hp
  cases current with
  | nil =>
      cases desired with
      | nil => simp [arrangedPorts, newPorts] at hp
      | cons d rest =>
          have top := begun_firstPort base service List.mem_cons_self
          rcases List.mem_cons.1 hp with rfl | hp
          · exact top
          · obtain ⟨e, he, rfl⟩ := List.mem_map.1 hp
            exact begun_furtherPort service (List.mem_cons_of_mem d he) top
  | cons first after =>
      rcases List.mem_append.1 hp with hp | hp
      · exact begun p (mem_keptPorts.1 hp).1
      · obtain ⟨d, hd, rfl⟩ := List.mem_map.1 hp
        have hd := (mem_portDifferences.1 hd).1
        exact (begun_furtherPort service hd (begun first List.mem_cons_self)).checked hd
          (Port.same_refl _)

theorem syncedBy_of_begun (begun : Begun desired backends p)
    (service : OfService name backends desired) :
    (p.syncedBy desired).backends = addBackends [] backends := by
  obtain ⟨d, hd, hsame, -⟩ := begun.wanted
  rw [Port.syncedBy_eq service.unambiguous hd hsame]
  show syncedBackends d.backends p.backends = _
  rw [service.backends d hd, begun.synced_backends]

/-- A port that looks done keeps its rules. -/
theorem derives_syncedBy_iff (begun : Begun desired backends p)
    (service : OfService name backends desired) (done : LooksDone p) (rule : Rule) :
    Derives (p.syncedBy desired) rule ↔ Derives p rule := by
  obtain ⟨d, hd, hsame, -⟩ := begun.wanted
  have check := begun.check_eq service hd hsame done.1
  have wired : WiredLike p p := ⟨rfl, rfl, begun.protocol⟩
  rw [Port.syncedBy_eq service.unambiguous hd hsame,
    derives_synced_iff wired hsame (service.protocol d hd),
    derives_iff_of_check wired hsame (service.protocol d hd) check]

section Arranged

variable (service : OfService name backends desired)
  (begun : ∀ p ∈ current, Begun desired backends p)
  (covers : Covers name desired (inv.arrangedPorts (k := .elastic) desired current))

include begun covers

/-- Whether a port was done before can be told from its pair. -/
theorem undone_iff (hp : p ∈ inv.arrangedPorts (k := .elastic) desired current) :
    (∀ q ∈ current, q.pair = p.pair → ¬ LooksDone q) ↔ ¬ LooksDone p := by
  constructor
  · intro undone done
    exact undone p (mem_of_arrangedPorts_of_busy hp done.2) rfl done
  · intro undone q hq hpair done
    obtain ⟨d, hd, hsame, -⟩ := (begun q hq).wanted
    have kept := arrangedPorts_of_desired (k := .elastic) inv hq ⟨d, hd, hsame⟩
    have same : q.same p = true :=
      Port.same_iff.2 ⟨(covers.named q kept).trans (covers.named p hp).symm, hpair⟩
    exact undone (unambiguous_of_apart covers.apart q kept p hp same ▸ done)

include service

/-- The rules that come while the ports are synchronised are those of ports that were not done. -/
theorem granted_iff {Granted : Grant → Prop}
    (granted : ∀ x, inv.Protects (addBackends [] backends) x.1 → (Granted x ↔ inv.Holds x ∨
      ∃ p ∈ inv.arrangedPorts (k := .elastic) desired current,
        ¬ LooksDone p ∧ Derives (p.syncedBy desired) x.2)) :
    (∀ p ∈ (inv.arrangedPorts (k := .elastic) desired current).map (Port.syncedBy desired),
        ∀ x, Needs inv p x → Granted x) ↔
      ∀ p ∈ current, LooksDone p → ∀ x, Needs inv p x →
        inv.Holds x ∨
          ∃ q ∈ (inv.arrangedPorts (k := .elastic) desired current).map (Port.syncedBy desired),
            (∀ p ∈ current, p.pair = q.pair → ¬ LooksDone p) ∧ Derives q x.2 := by
  have arranged := begun_arrangedPorts inv service begun
  have brought (x : Grant) :
      (∃ q ∈ (inv.arrangedPorts (k := .elastic) desired current).map (Port.syncedBy desired),
          (∀ p ∈ current, p.pair = q.pair → ¬ LooksDone p) ∧ Derives q x.2) ↔
        ∃ p ∈ inv.arrangedPorts (k := .elastic) desired current,
          ¬ LooksDone p ∧ Derives (p.syncedBy desired) x.2 := by
    simp only [List.mem_map, exists_exists_and_eq_and]
    refine exists_congr fun p => and_congr_right fun hp => and_congr_left fun _ => ?_
    rw [Port.syncedBy_pair, undone_iff begun covers hp]
  simp only [brought]
  constructor
  · intro complete p hp done x needs
    obtain ⟨d, hd, hsame, -⟩ := (begun p hp).wanted
    have kept := arrangedPorts_of_desired (k := .elastic) inv hp ⟨d, hd, hsame⟩
    have all : p.backends = addBackends [] backends := (begun p hp).registered.resolve_left done.2
    refine (granted x (all ▸ needs.1)).1 (complete _ (List.mem_map_of_mem kept) x ⟨?_, ?_⟩)
    · rw [syncedBy_of_begun (begun p hp) service, ← all]
      exact needs.1
    · exact (derives_syncedBy_iff (begun p hp) service done x.2).2 needs.2
  · intro before p' hp' x needs
    obtain ⟨p, hp, rfl⟩ := List.mem_map.1 hp'
    rw [Needs, syncedBy_of_begun (arranged p hp) service] at needs
    rw [granted x needs.1]
    by_cases done : LooksDone p
    · have held : p ∈ current := mem_of_arrangedPorts_of_busy hp done.2
      have derives := (derives_syncedBy_iff (begun p held) service done x.2).1 needs.2
      refine before p held done x ⟨?_, derives⟩
      rw [(begun p held).registered.resolve_left done.2]
      exact needs.1
    · exact .inr ⟨p, hp, done, needs.2⟩

end Arranged

/-- Where a reconciliation of pending ports goes through. -/
theorem granted_reconcile (pending : Pending desired backends inv)
    (service : OfService name backends desired) (hnew : desired ≠ []) {status : Status}
    {after : Inventory} (h : (reconcile name desired).effect inv = (.ok status, after)) :
    (∀ p ∈ after.ports .elastic name, ∀ x, Needs after p x → after.Holds x) ↔
      ∀ p ∈ inv.ports .elastic name, LooksDone p → ∀ x, Needs inv p x →
        inv.Holds x ∨ ∃ q ∈ after.ports .elastic name,
          (∀ p ∈ inv.ports .elastic name, p.pair = q.pair → ¬ LooksDone p) ∧ Derives q x.2 := by
  have begun := pending.begun name
  have deployed := fun p hp => (begun p hp).deployed service
  rcases effect_reconcile pending.stocked service hnew deployed with completed | ⟨-, aborted⟩
  · rw [h] at completed
    obtain ⟨-, covers, base', hafter, same, holds⟩ := completed
    dsimp only at hafter
    obtain ⟨topology, -, wired⟩ :=
      wired_arrangedPorts inv service hnew (pending.stocked.ports name) deployed
    have granted (x : Grant) (protects : inv.Protects (addBackends [] backends) x.1) :
        after.Holds x ↔ inv.Holds x ∨
          ∃ p ∈ inv.arrangedPorts (k := .elastic) desired (inv.ports .elastic name),
            ¬ LooksDone p ∧ Derives (p.syncedBy desired) x.2 := by
      rw [hafter, holds_withPorts, holds,
        upheldAll_iff_of_begun service (begun_arrangedPorts inv service begun) wired protects,
        none_stale begun]
      simp [Survives]
    have complete := granted_iff service begun covers granted
    have held : after.ports .elastic name = (inv.arrangedPorts (k := .elastic) desired
        (inv.ports .elastic name)).map (Port.syncedBy desired) := by
      rw [hafter, ports_withPorts]
    have needs (p : ElasticPort) (x : Grant) : Needs after p x ↔ Needs inv p x := by
      rw [Needs, hafter, protects_withPorts, same.protects, ← Needs]
    simpa only [held, needs] using complete
  · obtain ⟨e, herror⟩ := aborted.error
    rw [h] at herror
    cases herror

end Reconcile.Elastic

open Reconcile.Elastic Inventory

/-- A request for an elastic service that goes through after any number of attempts that did not.
All rules that the ports derive are on the groups of their backends if and only if every port that
looked done before had all of its rules, but for those that another port brings now. -/
theorem repeated_ensure_grants_iff {service : Service} {backends : List Backend}
    (elastic : service.kind = .ok .elastic) {start : Inventory} (empty : start.elastic = ∅)
    {s : Session} (prompt : s.cloud.failures = [])
    (history : Attempted (· = .ensure service backends) start s.cloud.inventory) {status : Status}
    {last : Session} (ok : (service.ensure backends).run s = (.ok status, last)) :
    (∀ p ∈ last.cloud.inventory.ports .elastic service.balancerName, ∀ x,
        Needs last.cloud.inventory p x → last.cloud.inventory.Holds x) ↔
      ∀ p ∈ s.cloud.inventory.ports .elastic service.balancerName, LooksDone p → ∀ x,
        Needs s.cloud.inventory p x → s.cloud.inventory.Holds x ∨
          ∃ q ∈ last.cloud.inventory.ports .elastic service.balancerName,
            (∀ p ∈ s.cloud.inventory.ports .elastic service.balancerName,
              p.pair = q.pair → ¬ LooksDone p) ∧ Derives q x.2 := by
  have outcome := (service.ensure backends).run_hasEffect prompt
  rw [ok] at outcome
  have heffect : (service.ensure backends).effect s.cloud.inventory =
      (.ok status, last.cloud.inventory) :=
    Prod.ext outcome.result.symm outcome.inventory.symm
  cases wanted : desiredElastic service.balancerName backends service with
  | error e =>
      rw [Service.ensure_eq_fail elastic wanted] at heffect
      cases heffect
  | ok desired =>
      have pending := history.pending elastic wanted empty
      rw [Service.ensure_eq elastic wanted] at heffect
      have hnew : desired ≠ [] := by
        rintro rfl
        cases heffect
      exact granted_reconcile pending (ofService_desiredElastic wanted) hnew heffect

namespace Sample

/-- The sample balancer as a request leaves it that fails to configure the health check. -/
def unchecked : Inventory :=
  ((Request.ensure service backends).program.simulate {}
    (refusing (.configureHealthCheck .elastic) inventory)).2.cloud.inventory

/-- The sample balancer as a request leaves it that fails to grant the rule. -/
def ungranted : Inventory :=
  ((Request.ensure service backends).program.simulate {}
    (refusing .authorize inventory)).2.cloud.inventory

theorem attempted_unchecked : Attempted (· = .ensure service backends) inventory unchecked :=
  .attempt {} (truthful_refusing (.configureHealthCheck .elastic) inventory) rfl .start

theorem attempted_ungranted : Attempted (· = .ensure service backends) inventory ungranted :=
  .attempt {} (truthful_refusing .authorize inventory) rfl .start

/-- The port of the sample balancer in the end. -/
def port : ElasticPort where
  name := service.balancerName
  settings := { accountingType := 1, policyType := "standard", balancingType := 1,
                networkVolume := 10 }
  pair := ⟨80, 30080⟩
  healthCheck := { target := "TCP:30080", interval := 10, unhealthyThreshold := 1 }
  backends := backends
  filters := []
  vip := "203.0.113.1"
  attachment := { protocol := tcp, availabilityZone := "",
                  interfaces := [{ networkId := commonGlobalNetwork,
                                   ipAddress := some "203.0.113.1", isVipNetwork := true }] }

def rule : Rule := .inbound tcp (some 30080) "203.0.113.1"

end Sample

/-- Where the health check is not configured at first, the next request makes up for it. -/
theorem unchecked_port_granted :
    (Sample.ensured Sample.unchecked).1 = .ok ⟨"203.0.113.1"⟩ ∧
      ∀ p ∈ (Sample.ensured Sample.unchecked).2.cloud.inventory.ports .elastic
          Sample.service.balancerName, ∀ x,
        Needs (Sample.ensured Sample.unchecked).2.cloud.inventory p x →
          (Sample.ensured Sample.unchecked).2.cloud.inventory.Holds x := by
  have ok : (Sample.ensured Sample.unchecked).1 = .ok ⟨"203.0.113.1"⟩ := by decide +kernel
  have blank : ∀ p ∈ Sample.unchecked.ports .elastic Sample.service.balancerName,
      p.healthCheck.target = "" := by decide +kernel
  refine ⟨ok, (repeated_ensure_grants_iff (s := { cloud := { inventory := Sample.unchecked } })
    (by decide +kernel) rfl rfl Sample.attempted_unchecked (Prod.ext ok rfl)).2 ?_⟩
  exact fun p hp done => absurd (blank p hp) done.1

/-- Where the rule is not granted at first, the next request goes through without granting it, for
the port looks done by then. -/
theorem ungranted_rule_missing :
    Sample.service.kind = .ok .elastic ∧ Sample.inventory.elastic = ∅ ∧
      (∀ group, Sample.inventory.rulesOf group = []) ∧
      Attempted (· = .ensure Sample.service Sample.backends) Sample.inventory Sample.ungranted ∧
      (Sample.ensured Sample.ungranted).1 = .ok ⟨"203.0.113.1"⟩ ∧
      ∃ p ∈ (Sample.ensured Sample.ungranted).2.cloud.inventory.ports .elastic
          Sample.service.balancerName,
        (∃ b ∈ p.backends, b.instanceId ∈ Sample.ungranted.members "g") ∧
          ∃ rules, deriveRules p = .ok rules ∧ ∃ rule ∈ rules,
            rule ∉ (Sample.ensured Sample.ungranted).2.cloud.inventory.rulesOf "g" := by
  refine ⟨by decide +kernel, rfl, Sample.unruled, Sample.attempted_ungranted, by decide +kernel,
    Sample.port, by decide +kernel, ?_, [Sample.rule], by decide +kernel, Sample.rule,
    List.mem_cons_self, by decide +kernel⟩
  exact ⟨{ instanceId := "i-1" }, by decide +kernel, by decide +kernel⟩

end CloudBalancer
