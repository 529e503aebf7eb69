import CloudBalancer.Proofs.Deployment
import CloudBalancer.Proofs.ElasticConduct
import CloudBalancer.Proofs.PortChanges
import CloudBalancer.Proofs.Requests

/-!
Repeating a request for an elastic balancer of which calls get lost, fail or are given up. However
often that happens, every port of the balancer is desired, its health check is the desired one or
none, and its backends are all or none. So a repeated request never takes anything away.
-/

namespace CloudBalancer

namespace Reconcile.Elastic

open Inventory

/-- A port of a balancer while one request for it is repeated. -/
structure Begun (desired : List ElasticPort) (backends : List Backend) (p : ElasticPort) :
    Prop where
  wanted : ∃ d ∈ desired, d.same p = true ∧ (p.healthCheck = {} ∨ p.healthCheck = d.healthCheck)
  registered : p.backends = [] ∨ p.backends = addBackends [] backends
  protocol : p.attachment.protocol = tcp
  wired : Wired p.attachment.interfaces

/-- The ports of all elastic balancers while one request is repeated. -/
structure Pending (desired : List ElasticPort) (backends : List Backend) (inv : Inventory) :
    Prop where
  stocked : inv.Stocked .elastic
  begun : ∀ name, ∀ p ∈ inv.ports .elastic name, Begun desired backends p

/-- What the calls of a repeated request are like, and what it is told. -/
def repetition (desired : List ElasticPort) (backends : List Backend) : Contract where
  allowed
    | .describe .elastic _ => True
    | .create .elastic p | .registerPort .elastic p | .update .elastic p
    | .configureHealthCheck .elastic p => p ∈ desired
    | .registerBackends .elastic _ joining => joining = backends
    | .setFilter .elastic _ _ => True
    | .groupsOf _ | .authorize _ _ | .revoke _ _ | .awaitApplied _ => True
    | _ => False
  told
    | .describe .elastic _, ports => ∀ p ∈ ports, Begun desired backends p
    | _, _ => True

variable {desired : List ElasticPort} {backends : List Backend} {name : String}
  {inv after : Inventory} {d p first : ElasticPort} {ports : List ElasticPort}

theorem Begun.subset (begun : Begun desired backends p) : p.backends ⊆ backends := by
  intro b hb
  rcases begun.registered with none | all
  · simp [none] at hb
  · rw [all] at hb
    exact (mem_addBackends hb).resolve_left (by simp)

/-- No backend has to go. -/
theorem Begun.none_leaves (begun : Begun desired backends p) :
    backendDifferences p.backends backends = [] :=
  differences_eq_nil_iff.2 fun b hb => ⟨b, begun.subset hb, b.same_refl⟩

theorem Begun.none_joins (begun : Begun desired backends p) (busy : p.backends ≠ []) :
    backendDifferences backends p.backends = [] := by
  refine differences_eq_nil_iff.2 fun b hb => ?_
  obtain ⟨r, hr, hsame⟩ := exists_same_addBackends [] hb
  exact ⟨r, begun.registered.resolve_left busy ▸ hr, by rwa [Backend.same_comm]⟩

/-- No port has to go. -/
theorem none_stale (begun : ∀ p ∈ ports, Begun desired backends p) :
    portDifferences ports desired = [] := by
  refine differences_eq_nil_iff.2 fun p hp => ?_
  obtain ⟨d, hd, hsame, -⟩ := (begun p hp).wanted
  exact ⟨d, hd, by rwa [Port.same_comm]⟩

theorem Begun.deployed (begun : Begun desired backends p)
    (service : OfService name backends desired) : Deployed backends p := by
  obtain ⟨d, hd, hsame, unchecked | checked⟩ := begun.wanted
  · exact ⟨begun.protocol, begun.wired, .inl (by rw [unchecked]), begun.subset⟩
  · refine ⟨begun.protocol, begun.wired, .inr ?_, begun.subset⟩
    rw [Probed, checked]
    exact service.probed d hd

theorem begun_firstPort (base : Inventory) (service : OfService name backends desired)
    (hd : d ∈ desired) : Begun desired backends (firstPort (k := .elastic) base d) := by
  have deployed : Deployed [] (firstPort (k := .elastic) base d) := deployed_firstPort service hd
  exact ⟨⟨d, hd, d.same_refl, .inl rfl⟩, .inl rfl, deployed.protocol, deployed.wired⟩

theorem begun_furtherPort (service : OfService name backends desired) (hd : d ∈ desired)
    (begun : Begun desired backends first) :
    Begun desired backends (furtherPort (k := .elastic) first d) :=
  ⟨⟨d, hd, d.same_refl, .inl rfl⟩, .inl rfl, service.protocol d hd, begun.wired⟩

theorem Begun.checked (begun : Begun desired backends p) (hd : d ∈ desired)
    (hsame : p.same d = true) : Begun desired backends { p with healthCheck := d.healthCheck } := by
  obtain ⟨wanted, registered, protocol, wired⟩ := begun
  exact ⟨⟨d, hd, by rwa [Port.same_comm] at hsame, .inr rfl⟩, registered, protocol, wired⟩

/-- Registering all backends again makes no difference. -/
theorem Begun.joined (begun : Begun desired backends p) :
    Begun desired backends { p with backends := addBackends p.backends backends } := by
  obtain ⟨wanted, registered, protocol, wired⟩ := begun
  refine ⟨wanted, .inr ?_, protocol, wired⟩
  rcases registered with none | all
  · exact congrArg (addBackends · backends) none
  · refine (congrArg (addBackends · backends) all).trans ?_
    exact addBackends_of_same fun b hb => exists_same_addBackends [] hb

theorem begun_apply (service : OfService name backends desired) {c : Call} {answer : c.Answer}
    (allowed : (repetition desired backends).allowed c)
    (h : inv.apply c = .ok (answer, after)) (pending : Pending desired backends inv) :
    ∀ name, ∀ p ∈ after.ports .elastic name, Begun desired backends p := by
  refine fun name => forall_ports_apply (pending.stocked.solid _) h (pending.begun name) ?_ ?_ ?_
  · rintro p rfl -
    exact begun_firstPort inv service allowed
  · rintro p first rfl begun
    exact begun_furtherPort service allowed begun
  · intro d p new revises hsame begun
    cases revises with
    | check => exact begun.checked allowed hsame
    | join =>
        subst allowed
        exact begun.joined
    | leave => exact allowed.elim
    | update | filter =>
        obtain ⟨wanted, registered, protocol, wired⟩ := begun
        exact ⟨wanted, registered, protocol, wired⟩

theorem told_apply {c : Call} {answer : c.Answer} (h : inv.apply c = .ok (answer, after))
    (pending : Pending desired backends inv) : (repetition desired backends).told c answer := by
  cases c with
  | describe k name =>
      cases k with
      | l4 => trivial
      | elastic =>
          have begun := pending.begun name
          rwa [(describe_eq_ok (k := .elastic) h).1] at begun
  | _ => trivial

/-- Calls like these keep the ports as they are meant to be in the meantime. -/
theorem repetition_keeps (service : OfService name backends desired) :
    (repetition desired backends).Keeps fun cloud => Pending desired backends cloud.inventory :=
  Contract.keeps_of_apply _
    (fun allowed happly pending => ⟨pending.stocked.changes (changes_apply happly),
      begun_apply service allowed happly pending⟩)
    fun _ happly pending => told_apply happly pending

theorem repetition_grants (desired : List ElasticPort) (backends : List Backend) :
    (repetition desired backends).LetsGrant :=
  ⟨fun _ => trivial, fun _ _ => trivial, fun _ => trivial⟩

theorem repetition_builds (desired : List ElasticPort) (backends : List Backend) (name : String) :
    (repetition desired backends).LetsBuild (k := .elastic) name desired :=
  ⟨trivial, fun _ wanted => wanted, fun _ wanted => wanted, fun _ _ _ => trivial⟩

theorem Begun.of_shown (shown : (repetition desired backends).Shows .elastic name p) :
    Begun desired backends p := by
  obtain ⟨ports, begun, hp⟩ := shown
  exact begun p hp

theorem repetition_keeps_ports
    (discards : (repetition desired backends).Discards (k := .elastic) name desired p) : False := by
  obtain ⟨d, hd, hsame, -⟩ := (Begun.of_shown discards.shown).wanted
  rw [Port.same_comm, discards.unwanted d hd] at hsame
  cases hsame

theorem repetition_founds (service : OfService name backends desired) :
    (repetition desired backends).LetsFound (k := .elastic) name desired :=
  ⟨repetition_builds desired backends name, fun _ wanted => wanted,
    fun d wanted _ _ => service.backends d wanted⟩

/-- Backends are registered all at once, and none is ever deregistered. -/
theorem repetition_adjusts (service : OfService name backends desired) :
    (repetition desired backends).LetsAdjust (k := .elastic) name desired := by
  refine ⟨repetition_builds desired backends name, fun _ wanted => wanted,
    fun d p pairs some_joins view _ => ?_, fun d p pairs some_leaves view _ => ?_,
    fun p discards _ => (repetition_keeps_ports discards).elim,
    fun p discards => (repetition_keeps_ports discards).elim⟩
  · show backendDifferences d.backends p.backends = backends
    rw [service.backends d pairs.wanted] at some_joins ⊢
    have idle : p.backends = [] := by
      by_contra busy
      exact some_joins ((Begun.of_shown pairs.shown).none_joins busy)
    rw [idle, backendDifferences, differences_nil]
  · rw [service.backends d pairs.wanted] at some_leaves
    exact (some_leaves (Begun.of_shown pairs.shown).none_leaves).elim

theorem within_reconcile (service : OfService name backends desired) :
    (reconcile name desired).Within (repetition desired backends) fun _ => True :=
  Reconcile.within_reconcile (k := .elastic) (repetition_grants desired backends)
    (repetition_founds service) (repetition_adjusts service) fun _ _ => trivial

end Reconcile.Elastic

/-- Repeating a request for an elastic service leaves the ports of its balancer pending. -/
theorem Attempted.pending {service : Service} {backends : List Backend}
    {desired : List ElasticPort} {start inv : Inventory} (elastic : service.kind = .ok .elastic)
    (wanted : desiredElastic service.balancerName backends service = .ok desired)
    (empty : start.elastic = ∅) (h : Attempted (· = .ensure service backends) start inv) :
    Reconcile.Elastic.Pending desired backends inv := by
  have ofService := ofService_desiredElastic wanted
  have within : (Request.ensure service backends).program.Within
      (Reconcile.Elastic.repetition desired backends) fun _ => True := by
    show (discard (service.ensure backends)).Within _ _
    rw [Service.ensure_eq elastic wanted]
    exact (Reconcile.Elastic.within_reconcile ofService).bind fun _ _ => trivial
  induction h with
  | start =>
      refine ⟨Inventory.stocked_of_empty empty, fun name p hp => ?_⟩
      simp [Inventory.ports, Inventory.table, empty] at hp
  | attempt config truthful allowed _ ih =>
      subst allowed
      have agrees := truthful.agrees (Reconcile.Elastic.repetition desired backends)
      have keeps := Reconcile.Elastic.repetition_keeps ofService
      exact (within.simulate (.start ih agrees) keeps config).good

end CloudBalancer
