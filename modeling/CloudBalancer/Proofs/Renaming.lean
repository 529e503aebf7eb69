import CloudBalancer.Proofs.ElasticConvergence

/-!
What a request opens of the groups of its backends. Backends are told apart by their unique ids
where they have one, and are members of groups by their instance ids. So a backend that comes back
with another instance id is taken for the one that is registered: it does not join, and the groups
of its new id are not opened. They are opened if a port is new, if another backend of theirs joins,
or if the health check changes and they were groups of a registered backend before.
-/

namespace CloudBalancer

namespace Reconcile.Elastic

open Inventory

variable {name : String} {backends known : List Backend} {inv : Inventory}
  {desired current ports : List ElasticPort} {topology d p q : ElasticPort} {x : Grant}

/-- A request for `backends` brings a grant to the port `q` that it leaves, of a balancer that had
the ports `former`: the port is new or a backend that it lacked is in the group, or the rule comes
with another health check and the group has a backend that was registered before. -/
def Brings (inv : Inventory) (former : List ElasticPort) (backends : List Backend)
    (q : ElasticPort) (x : Grant) : Prop :=
  Derives q x.2 ∧
    ((∀ p ∈ former, p.pair = q.pair →
        inv.Protects (backendDifferences backends p.backends) x.1) ∨
      ∃ p ∈ former, p.pair = q.pair ∧ p.healthCheck ≠ q.healthCheck ∧
        inv.Protects p.backends x.1 ∧ ¬ Derives p x.2)

/-- What is wanted outlives the ports that are not. -/
theorem survives_of_wanted {e : ElasticPort} (wired : ∀ p ∈ current, WiredLike topology p)
    (he : e ∈ desired) (wanted : Wants inv topology e x) :
    Survives inv desired (portDifferences current desired) x := by
  rintro p hp ⟨-, -, unretained⟩
  obtain ⟨hp, undesired⟩ := mem_portDifferences.1 hp
  refine unretained ((retains_iff (wired p hp) p).2 ⟨e, he, ?_, wanted⟩)
  rw [Port.same_comm, undesired e he]

/-- What comes with a port while it is synchronised, told from the port that was there before. -/
theorem brings_iff (service : OfService name backends desired)
    (valid : ValidPorts .elastic name current)
    (hp : p ∈ inv.arrangedPorts (k := .elastic) desired current) (wired : WiredLike topology p)
    (hd : d ∈ desired) (hsame : d.same p = true) (protects : inv.Protects backends x.1) :
    Refreshes inv d p x ∨ Joins inv d p x ↔ Brings inv current backends (d.synced p) x := by
  have derives : Derives (ruleView d p) x.2 ↔ Derives (d.synced p) x.2 := by
    rw [derives_ruleView_iff wired hsame, derives_synced_iff wired hsame (service.protocol d hd)]
  have named : p.name = name := (Port.same_iff.1 hsame).1.symm.trans (service.named d hd)
  have hcheck : (d.synced p).healthCheck = d.healthCheck := rfl
  have hpair : (d.synced p).pair = p.pair := rfl
  rw [Refreshes, Joins, Brings, derives, service.backends d hd, hcheck, hpair]
  rcases mem_arrangedPorts hp with held | ⟨idle, -, fresh⟩
  · have unique {q : ElasticPort} (hq : q ∈ current) (hpair : q.pair = p.pair) : q = p :=
      List.inj_on_of_nodup_map valid.pairs hq held hpair
    have all (P : ElasticPort → Prop) : (∀ q ∈ current, q.pair = p.pair → P q) ↔ P p :=
      ⟨fun h => h p held rfl, fun h q hq hpair => unique hq hpair ▸ h⟩
    have some (P : ElasticPort → Prop) : (∃ q ∈ current, q.pair = p.pair ∧ P q) ↔ P p := by
      refine ⟨?_, fun h => ⟨p, held, rfl, h⟩⟩
      rintro ⟨q, hq, hpair, h⟩
      exact unique hq hpair ▸ h
    rw [all fun q => inv.Protects (backendDifferences backends q.backends) x.1,
      some fun q => q.healthCheck ≠ d.healthCheck ∧ inv.Protects q.backends x.1 ∧ ¬ Derives q x.2,
      ne_comm]
    tauto
  · have new : ∀ q ∈ current, q.pair ≠ p.pair := fun q hq hpair => by
      have same : p.same q = true :=
        Port.same_iff.2 ⟨named.trans (valid.named hq).symm, hpair.symm⟩
      simp [fresh q hq] at same
    have all : ∀ q ∈ current, q.pair = p.pair →
        inv.Protects (backendDifferences backends q.backends) x.1 :=
      fun q hq hpair => absurd hpair (new q hq)
    have joins : inv.Protects (backendDifferences backends p.backends) x.1 := by
      rwa [idle, backendDifferences, differences_nil]
    have unheld : ¬ inv.Protects p.backends x.1 := idle ▸ inv.not_protects_nil x.1
    constructor
    · rintro (⟨-, held, -⟩ | ⟨-, derives⟩)
      · exact absurd held unheld
      · exact ⟨derives, .inl all⟩
    · exact fun brings => .inr ⟨joins, brings.1⟩

section Reconciliation

variable {status : Status} {after : Inventory}

/-- What becomes of a rule that a port derives in the end, on a group of the backends. -/
theorem holds_reconcile_iff (provisioned : Provisioned inv)
    (service : OfService name backends desired) (hnew : desired ≠ [])
    (h : (reconcile name desired).effect inv = (.ok status, after))
    (protects : inv.Protects backends x.1)
    (derives : ∃ q ∈ after.ports .elastic name, Derives q x.2) :
    after.Holds x ↔ inv.Holds x ∨ ∃ q ∈ after.ports .elastic name,
      Brings inv (inv.ports .elastic name) backends q x := by
  have valid := provisioned.stocked.ports name
  have deployed := provisioned.deployed_ports name
  rcases effect_reconcile provisioned.stocked service hnew deployed with completed | ⟨-, aborted⟩
  case inr =>
    obtain ⟨e, herror⟩ := aborted.error
    rw [h] at herror
    cases herror
  case inl =>
    rw [h] at completed
    obtain ⟨-, covers, base', hafter, same, holds⟩ := completed
    dsimp only at hafter
    obtain ⟨topology, former, wired⟩ := wired_arrangedPorts inv service hnew valid deployed
    have held : after.ports .elastic name = (inv.arrangedPorts (k := .elastic) desired
        (inv.ports .elastic name)).map (Port.syncedBy desired) := by
      rw [hafter, ports_withPorts]
    rw [held] at derives ⊢
    obtain ⟨_, hq, derives⟩ := derives
    obtain ⟨p, hp, rfl⟩ := List.mem_map.1 hq
    obtain ⟨d, hd, hsame⟩ := covers.sound p hp
    rw [Port.syncedBy_eq service.unambiguous hd hsame,
      derives_synced_iff (wired p hp) hsame (service.protocol d hd)] at derives
    have wanted : Wants inv topology d x := ⟨service.backends d hd ▸ protects, derives⟩
    have survives := survives_of_wanted former hd wanted
    have common : ∀ d ∈ desired, ∀ e ∈ desired, e.backends = d.backends := fun d hd e he =>
      (service.backends e he).trans (service.backends d hd).symm
    rw [hafter, holds_withPorts, holds, upheldAll_iff_of_wanted service.unambiguous common wired
      covers.sound hd wanted, and_iff_left survives]
    simp only [List.mem_map, exists_exists_and_eq_and]
    refine or_congr_right (exists_congr fun p => and_congr_right fun hp => ?_)
    obtain ⟨d, hd, hsame⟩ := covers.sound p hp
    rw [counterpart_eq service.unambiguous hd hsame, Port.syncedBy_eq service.unambiguous hd hsame]
    exact brings_iff service valid hp (wired p hp) hd hsame protects

end Reconciliation

end Reconcile.Elastic

open Reconcile.Elastic Inventory

/-- A request for an elastic service that goes through, after any operations on services. Every
group of a backend that the request is for holds all rules of all ports in the end, if and only if
it held each of them before or some port brings it. -/
theorem ensure_opens_iff {service : Service} (elastic : service.kind = .ok .elastic) {s : Session}
    (administered : Administered s.cloud.inventory) (prompt : s.cloud.failures = [])
    {backends : List Backend} {status : Status} {last : Session}
    (ok : (service.ensure backends).run s = (.ok status, last)) :
    (∀ group, last.cloud.inventory.Protects backends group →
        ∀ p ∈ last.cloud.inventory.ports .elastic service.balancerName, ∀ rule, Derives p rule →
          rule ∈ last.cloud.inventory.rulesOf group) ↔
      ∀ group, s.cloud.inventory.Protects backends group →
        ∀ p ∈ last.cloud.inventory.ports .elastic service.balancerName, ∀ rule, Derives p rule →
          rule ∈ s.cloud.inventory.rulesOf group ∨
            ∃ q ∈ last.cloud.inventory.ports .elastic service.balancerName,
              Brings s.cloud.inventory (s.cloud.inventory.ports .elastic service.balancerName)
                backends q (group, rule) := by
  have outcome := (service.ensure backends).run_hasEffect prompt
  rw [ok] at outcome
  have heffect : (service.ensure backends).effect s.cloud.inventory =
      (.ok status, last.cloud.inventory) :=
    Prod.ext outcome.result.symm outcome.inventory.symm
  have members (group : String) :
      last.cloud.inventory.members group = s.cloud.inventory.members group := by
    have kept := members_request (.ensure service backends) s.cloud.inventory group
    rwa [Request.program, Program.effect_discard, heffect] at kept
  cases wanted : desiredElastic service.balancerName backends service with
  | error e =>
      rw [Service.ensure_eq_fail elastic wanted] at heffect
      cases heffect
  | ok desired =>
      rw [Service.ensure_eq elastic wanted] at heffect
      have hnew : desired ≠ [] := by
        rintro rfl
        cases heffect
      simp only [Protects, members]
      refine forall_congr' fun group => forall_congr' fun protects => forall₂_congr fun p hp =>
        forall₂_congr fun rule derives => ?_
      have opened : last.cloud.inventory.Holds (group, rule) ↔ _ :=
        holds_reconcile_iff administered.provisioned (ofService_desiredElastic wanted) hnew heffect
          protects ⟨p, hp, derives⟩
      exact opened

namespace Sample

def original : List Backend := [{ instanceId := "i-1", uniqueId := "u-1" }]

/-- The same backend with another instance id. -/
def renamed : List Backend := [{ instanceId := "i-2", uniqueId := "u-1" }]

/-- Both ids are members of one group. -/
def shared : Inventory := ({} : Inventory).addToGroup "g" ["i-1", "i-2"]

/-- The sample balancer for the backend as it was, in that group. -/
def settled : Inventory :=
  ((Request.ensure service original).program.simulate {}
    { cloud := { inventory := shared } }).2.cloud.inventory

theorem administered_settled : Administered settled :=
  .serve (w := { cloud := { inventory := shared } }) (.ensure service original) {}
    (.regroup _ .empty)

/-- Each of the ids is a member of a group of its own. -/
def divided : Inventory := inventory.addToGroup "h" ["i-2"]

end Sample

/-- A backend that stays in its groups under a new id finds them open. -/
theorem renamed_backend_opened :
    let outcome := (Sample.service.ensure Sample.renamed).run
      { cloud := { inventory := Sample.settled } }
    outcome.1 = .ok ⟨"203.0.113.1"⟩ ∧
      ∀ group, outcome.2.cloud.inventory.Protects Sample.renamed group →
        ∀ p ∈ outcome.2.cloud.inventory.ports .elastic Sample.service.balancerName, ∀ rule,
          Derives p rule → rule ∈ outcome.2.cloud.inventory.rulesOf group := by
  intro outcome
  have ok : outcome.1 = .ok ⟨"203.0.113.1"⟩ := by decide +kernel
  have rules : ∀ p ∈ outcome.2.cloud.inventory.ports .elastic Sample.service.balancerName,
      deriveRules p = .ok [.inbound tcp (some 30080) "203.0.113.1"] := by decide +kernel
  have groups : ∀ group ∈ Sample.settled.groupsOf ["i-2"],
      .inbound tcp (some 30080) "203.0.113.1" ∈ Sample.settled.rulesOf group := by decide +kernel
  refine ⟨ok, (ensure_opens_iff (s := { cloud := { inventory := Sample.settled } })
    (by decide +kernel) Sample.administered_settled rfl (Prod.ext ok rfl)).2 ?_⟩
  intro group protects p hp rule derives
  have only : rule = .inbound tcp (some 30080) "203.0.113.1" := by
    simpa using (derives_iff (rules p hp) rule).1 derives
  rw [only]
  exact .inl (groups group (mem_groupsOf.2 (by simpa [Protects, Sample.renamed] using protects)))

/-- A backend that has got another instance id, which is a member of another group, is taken for
the one that is registered, and the group stays closed. -/
theorem renamed_backend_closed :
    let outcome := (Sample.service.ensure Sample.renamed).run
      (({ cloud := { inventory := Sample.divided } } : Session).serve
        (.ensure Sample.service Sample.original))
    Sample.service.kind = .ok .elastic ∧ Sample.divided.elastic = ∅ ∧
      (∀ group, Sample.divided.rulesOf group = []) ∧
      ((Sample.service.ensure Sample.original).run
        { cloud := { inventory := Sample.divided } }).1 = .ok ⟨"203.0.113.1"⟩ ∧
      outcome.1 = .ok ⟨"203.0.113.1"⟩ ∧
      "i-2" ∈ outcome.2.cloud.inventory.members "h" ∧
      (outcome.2.cloud.inventory.ports .elastic Sample.service.balancerName).map deriveRules =
        [.ok [.inbound tcp (some 30080) "203.0.113.1"]] ∧
      outcome.2.cloud.inventory.rulesOf "h" = [] := by
  refine ⟨by decide +kernel, rfl, fun group => ?_, by decide +kernel⟩
  rw [Sample.divided, rulesOf_addToGroup]
  exact Sample.unruled group

end CloudBalancer
