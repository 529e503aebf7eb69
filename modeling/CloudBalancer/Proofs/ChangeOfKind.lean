import CloudBalancer.Proofs.Continuity
import CloudBalancer.Proofs.Deletion
import CloudBalancer.Proofs.Provisioning

/-!
A service that changes the kind of its balancer. The kind is read off the service anew with every
request, and a request is about the balancer of that kind only. So the service gets a second
balancer besides the first one, and a deletion takes away the one of the kind that it asks for by
then. Of the other kind there is a balancer if any of the requests was for one with some port, even
if that request failed.
-/

namespace CloudBalancer

open Inventory

variable {k : Kind} {name : String} {inv : Inventory} {desired : List k.Port}

namespace Reconcile

section Kinds

/-- Balancers of the kind `k` are changed and no others. -/
def changing (k : Kind) : Contract where
  allowed c := ∀ subject, c.subject = some subject → subject.1 = k
  told _ _ := True

/-- The balancer `name` is in `inv` what it is in `start`. -/
def SameAt (start : Inventory) (k : Kind) (name : String) (inv : Inventory) : Prop :=
  (inv.table k).get? name = (start.table k).get? name

theorem changing_keeps {other : Kind} (hother : other ≠ k) (start : Inventory) (name : String) :
    (changing k).Keeps fun cloud => SameAt start other name cloud.inventory :=
  Contract.keeps_of_apply (SameAt start other name)
    (fun allowed happly same =>
      (table_apply happly fun subject => hother (allowed _ subject)).trans same)
    fun _ _ _ => trivial

theorem changing_grants : (changing k).LetsGrant :=
  ⟨fun _ => nofun, fun _ _ => nofun, fun _ => nofun⟩

theorem changing_subject {c : Call} {name : String} (h : c.subject = some (k, name)) :
    (changing k).allowed c := by
  intro subject hsubject
  rw [h] at hsubject
  cases hsubject
  rfl

theorem changing_builds : (changing k).LetsBuild name desired :=
  ⟨nofun, fun _ _ => changing_subject rfl, fun _ _ => changing_subject rfl,
    fun _ _ _ => changing_subject rfl⟩

theorem changing_founds : (changing k).LetsFound name desired :=
  ⟨changing_builds, fun _ _ => changing_subject rfl, fun _ _ _ _ => changing_subject rfl⟩

theorem changing_adjusts : (changing k).LetsAdjust name desired :=
  ⟨changing_builds, fun _ _ => changing_subject rfl, fun _ _ _ _ _ _ => changing_subject rfl,
    fun _ _ _ _ _ _ => changing_subject rfl, fun _ _ _ => changing_subject rfl,
    fun _ _ => changing_subject rfl⟩

/-- A reconciliation leaves all balancers of the other kind alone. -/
theorem sameAt_reconcile {other : Kind} (hother : other ≠ k) (name : String)
    (desired : List k.Port) (inv : Inventory) (key : String) :
    SameAt inv other key ((reconcile name k desired).effect inv).2 :=
  (within_reconcile changing_grants changing_founds changing_adjusts fun _ _ => nofun).effect
    (changing_keeps hother inv key) rfl

end Kinds

section Provision

/-- Desired ports are not deleted. -/
def sparing (desired : List k.Port) : Contract where
  allowed c := ∀ p : k.Port, c = .deletePort k p → ∀ d ∈ desired, d.same p = false
  told _ _ := True

/-- The balancer `name` has one of the desired ports. -/
def Provided (name : String) (desired : List k.Port) (inv : Inventory) : Prop :=
  ∃ p ∈ inv.ports k name, ∃ d ∈ desired, d.same p = true

theorem sparing_keeps (name : String) (desired : List k.Port) :
    (sparing desired).Keeps fun cloud => Provided name desired cloud.inventory := by
  refine Contract.keeps_of_apply (Provided name desired) (fun allowed happly provided => ?_)
    fun _ _ _ => trivial
  refine exists_ports_apply happly provided ?_ ?_
  · rintro p gone rfl ⟨d, hd, hsame⟩
    rw [← Port.same_congr hsame]
    exact allowed gone rfl d hd
  · rintro d' p new revises - ⟨d, hd, hsame⟩
    exact ⟨d, hd, by rwa [Port.same_comm, revises.same, Port.same_comm]⟩

theorem sparing_grants : (sparing desired).LetsGrant :=
  ⟨fun _ => nofun, fun _ _ => nofun, fun _ => nofun⟩

theorem sparing_builds : (sparing desired).LetsBuild name desired :=
  ⟨nofun, fun _ _ => nofun, fun _ _ => nofun, fun _ _ _ => nofun⟩

theorem sparing_founds : (sparing desired).LetsFound name desired :=
  ⟨sparing_builds, fun _ _ => nofun, fun _ _ _ _ => nofun⟩

theorem sparing_adjusts : (sparing desired).LetsAdjust name desired where
  toLetsBuild := sparing_builds
  update _ _ := nofun
  join _ _ _ _ _ _ := nofun
  leave _ _ _ _ _ _ := nofun
  clear _ _ _ := nofun
  drop p discards := by
    rintro _ ⟨⟩ d hd
    rw [Port.same_comm]
    exact discards.unwanted d hd

/-- A reconciliation that finds no balancer begins by creating it with one of its ports. -/
theorem found_eq_create (name : String) (hnew : desired ≠ []) :
    ∃ d ∈ desired, ∃ site next, found name k desired = .call site (.create k d) next := by
  obtain ⟨d, rest, rfl⟩ := List.exists_cons_of_ne_nil hnew
  refine ⟨d, List.mem_cons_self, ?_⟩
  cases k <;> exact ⟨_, _, rfl⟩

/-- The balancer is there with its first port before anything can go wrong. -/
theorem provided_found (absent : (inv.table k).get? name = none) (hnew : desired ≠ [])
    (named : ∀ d ∈ desired, d.name = name) :
    Provided name desired ((found name k desired).effect inv).2 := by
  obtain ⟨d, hd, site, next, hfound⟩ := found_eq_create name hnew
  have within : (found name k desired).Within (sparing desired) fun _ => True :=
    within_found sparing_grants sparing_founds
  have unported : inv.withPorts k name [] = inv := by
    have held := (StockedAt.absent absent).withPorts_ports
    rwa [Inventory.ports, absent] at held
  have created : (inv.withPorts k name []).create k d = _ := create_withPorts (named d hd)
  rw [unported] at created
  rw [hfound] at within ⊢
  rw [Program.effect, show inv.apply (.create k d) = _ from created]
  refine (within.2 (.answered _) trivial).effect (sparing_keeps name desired) ?_
  exact ⟨inv.firstPort d, by simp, d, hd, Port.same_iff.2 ⟨rfl, rfl⟩⟩

/-- What is there already is kept if it is desired; else nothing goes before a desired port is
registered. -/
theorem provided_adjust (stocked : inv.StockedAt k name) (existing : inv.ports k name ≠ [])
    (hnew : desired ≠ []) (named : ∀ d ∈ desired, d.name = name) :
    Provided name desired ((adjust name k desired (inv.ports k name)).effect inv).2 := by
  have within : (adjust name k desired (inv.ports k name)).Within (sparing desired) fun _ => True :=
    within_adjust sparing_grants sparing_adjusts (fun _ _ => nofun) trivial
  by_cases kept : ∃ d ∈ desired, ∃ p ∈ inv.ports k name, d.same p = true
  case pos =>
    obtain ⟨d, hd, p, hp, hsame⟩ := kept
    exact within.effect (sparing_keeps name desired) ⟨p, hp, d, hd, hsame⟩
  case neg =>
    have replaced : ∀ d ∈ desired, ∀ p ∈ inv.ports k name, d.same p = false := by
      simpa using kept
    obtain ⟨d, hd, site, next, hadjust, -⟩ := adjust_of_replaced name hnew replaced
    obtain ⟨first, after, hports⟩ := List.exists_cons_of_ne_nil existing
    have new : ∀ q ∈ first :: after, q.same d = false := fun q hq => by
      rw [Port.same_comm]
      exact replaced d hd q (hports ▸ hq)
    have registered : (inv.withPorts k name (first :: after)).registerPort k d = _ :=
      registerPort_withPorts (named d hd) new
    rw [← hports, stocked.withPorts_ports, hports] at registered
    rw [hadjust] at within ⊢
    have happly : inv.apply (.registerPort k d) =
        .ok ((), inv.withPorts k name (first :: after ++ [furtherPort first d])) := by
      rw [apply, registered]
      rfl
    rw [Program.effect, happly]
    obtain ⟨p, hp, hsame⟩ := exists_same_of_registered (named d hd) happly
    exact (within.2 (.answered ()) trivial).effect (sparing_keeps name desired)
      ⟨p, hp, d, hd, hsame⟩

/-- After a reconciliation without failures there is a balancer, though the reconciliation may be
an error. -/
theorem provided_reconcile (stocked : inv.StockedAt k name) (hnew : desired ≠ [])
    (named : ∀ d ∈ desired, d.name = name) :
    Provided name desired ((reconcile name k desired).effect inv).2 := by
  rw [reconcile_eq hnew, effect_reporting, Program.effect]
  cases held : (inv.table k).get? name with
  | none =>
      have refused : inv.apply (.describe k name) =
          .error (.notFound k.notFound s!"{k.label} {name}") := by
        rw [apply, held]
      rw [refused]
      show Provided name desired ((resume name k desired (.refused _)).effect inv).2
      simp only [resume, ApiError.notFound, if_true]
      exact provided_found held hnew named
  | some ports =>
      have described : inv.apply (.describe k name) = .ok (ports, inv) := by
        rw [apply, held]
      rw [described]
      have hports : inv.ports k name = ports := by rw [Inventory.ports, held, Option.getD_some]
      obtain ⟨first, after, rfl⟩ := List.exists_cons_of_ne_nil fun none =>
        stocked.solid (none ▸ held)
      show Provided name desired ((adjust name k desired (first :: after)).effect inv).2
      rw [← hports]
      exact provided_adjust stocked (by simp [hports]) hnew named

end Provision

end Reconcile

open Reconcile

/-- A request for a balancer is an error of its own, or a reconciliation. -/
theorem Service.ensure_cases (service : Service) (backends : List Backend) :
    (∃ e, service.ensure backends = .fail e) ∨
      ∃ k desired, service.kind = .ok k ∧ service.desired backends k = .ok desired ∧
        service.ensure backends = reconcile service.balancerName k desired := by
  cases ofKind : service.kind with
  | error e =>
      refine .inl ⟨.build e, ?_⟩
      rw [ensure, kindOrFail, ofKind]
      rfl
  | ok k =>
      cases wanted : service.desired backends k with
      | ok desired =>
          exact .inr ⟨k, desired, rfl, wanted, service.ensure_eq_reconcile ofKind wanted⟩
      | error e =>
          refine .inl ⟨.build e, ?_⟩
          rw [ensure, kindOrFail, ofKind]
          show Program.ofExcept ((service.desired backends k).mapError _) >>= _ = _
          rw [wanted]
          rfl

namespace Request

def isDeletion : Request → Bool
  | .delete _ => true
  | .ensure .. | .update .. => false

/-- The request is for a balancer of the kind `k` that has some port. -/
def Seeks (r : Request) (k : Kind) : Prop :=
  r.service.kind = .ok k ∧
    ∃ desired, r.service.desired r.backends k = .ok desired ∧ desired ≠ []

variable {r : Request}

theorem effect_ensure (providing : r.isDeletion = false) (inv : Inventory) :
    (r.program.effect inv).2 = ((r.service.ensure r.backends).effect inv).2 := by
  cases r with
  | delete => cases providing
  | ensure service backends | update service backends =>
      exact congrArg Prod.snd (Program.effect_discard ..)

theorem sameAt_of_unsought (providing : r.isDeletion = false) (unsought : ¬ r.Seeks k)
    (inv : Inventory) (name : String) : SameAt inv k name (r.program.effect inv).2 := by
  rw [effect_ensure providing]
  rcases r.service.ensure_cases r.backends with ⟨e, failed⟩ | ⟨k', desired, ofKind, wanted, heq⟩
  · rw [failed]
    rfl
  · rw [heq]
    by_cases hk : k = k'
    · subst hk
      have nothing : desired = [] := by
        by_contra hnew
        exact unsought ⟨ofKind, desired, wanted, hnew⟩
      subst nothing
      cases k <;> rfl
    · exact sameAt_reconcile hk ..

theorem ports_of_sought (providing : r.isDeletion = false) (sought : r.Seeks k)
    (stocked : inv.StockedAt k r.service.balancerName) :
    (r.program.effect inv).2.ports k r.service.balancerName ≠ [] := by
  obtain ⟨ofKind, desired, wanted, hnew⟩ := sought
  rw [effect_ensure providing, r.service.ensure_eq_reconcile ofKind wanted]
  obtain ⟨p, hp, -⟩ := provided_reconcile stocked hnew (Service.named_desired wanted)
  exact List.ne_nil_of_mem hp

end Request

/-- What is there of `name` after `requests`: a balancer of each kind that was sought. -/
structure Furnished (name : String) (requests : List Request) (inv : Inventory) : Prop where
  stocked : ∀ k, inv.StockedAt k name
  absent_iff : ∀ k, (inv.table k).get? name = none ↔ ∀ r ∈ requests, ¬ r.Seeks k

theorem Furnished.request {done : List Request} (furnished : Furnished name done inv) {r : Request}
    (providing : r.isDeletion = false) (named : r.service.balancerName = name) :
    Furnished name (done ++ [r]) (r.program.effect inv).2 := by
  subst named
  refine ⟨fun k => ?_, fun k => ?_⟩
  · have keeps {before after : Inventory} {c : Call} {answer : c.Answer}
        (happly : before.apply c = .ok (answer, after))
        (stocked : before.StockedAt k r.service.balancerName) :
        after.StockedAt k r.service.balancerName := stocked.changes (changes_apply happly)
    exact r.program.effect_keeps keeps (furnished.stocked k)
  · by_cases sought : r.Seeks k
    · have some_port := r.ports_of_sought providing sought (furnished.stocked k)
      have there : ((r.program.effect inv).2.table k).get? r.service.balancerName ≠ none :=
        fun none => some_port (by rw [Inventory.ports, none, Option.getD_none])
      simp [there, sought]
    · have same := r.sameAt_of_unsought providing sought inv r.service.balancerName
      rw [SameAt] at same
      simp [same, furnished.absent_iff, or_imp, forall_and, sought]

theorem furnished_serveAll {s : Session} (prompt : s.cloud.failures = []) {done : List Request}
    (furnished : Furnished name done s.cloud.inventory) {requests : List Request}
    (providing : ∀ r ∈ requests, r.isDeletion = false)
    (named : ∀ r ∈ requests, r.service.balancerName = name) :
    (s.serveAll requests).cloud.failures = [] ∧
      Furnished name (done ++ requests) (s.serveAll requests).cloud.inventory := by
  induction requests generalizing s done with
  | nil => exact ⟨prompt, by rwa [List.append_nil]⟩
  | cons r rest ih =>
      obtain ⟨inventory, served⟩ := s.serve_inventory prompt r
      have next := furnished.request (providing r List.mem_cons_self) (named r List.mem_cons_self)
      rw [← inventory] at next
      rw [List.append_cons]
      exact ih served next (fun q hq => providing q (.tail r hq)) fun q hq => named q (.tail r hq)

/-- A deletion after requests for balancers, where nothing goes wrong. The balancer of the kind that
the service asks for in the end is gone; there is one of the other kind if and only if one of the
requests was for such a balancer with some port. -/
theorem delete_leaves_other_iff {s : Session} (prompt : s.cloud.failures = [])
    (absent : ∀ k, (s.cloud.inventory.table k).get? name = none) {requests : List Request}
    (providing : ∀ r ∈ requests, r.isDeletion = false)
    (named : ∀ r ∈ requests, r.service.balancerName = name) {service : Service}
    (same : service.balancerName = name) {last : Session}
    (ok : service.delete.run (s.serveAll requests) = (.ok (), last)) :
    ∃ k, service.kind = .ok k ∧ (last.cloud.inventory.table k).get? name = none ∧
      ∀ other, other ≠ k →
        ((last.cloud.inventory.table other).get? name = none ↔
          ∀ r ∈ requests, ¬ r.Seeks other) := by
  have start : Furnished name [] s.cloud.inventory :=
    ⟨fun k => .absent (absent k), fun k => by simp [absent]⟩
  obtain ⟨served, furnished⟩ := furnished_serveAll prompt start providing named
  rw [List.nil_append] at furnished
  obtain ⟨result, inventory, -⟩ := service.delete.run_hasEffect served
  rw [ok] at result inventory
  cases ofKind : service.kind with
  | error e =>
      rw [Service.delete, Service.kindOrFail, ofKind] at result
      cases result
  | ok k =>
      rw [Service.delete_eq_delete ofKind, same, Program.effect_ofJob] at result inventory
      obtain ⟨gone, others⟩ := removes_of_delete_ok (furnished.stocked k)
        (Prod.ext result.symm inventory.symm)
      refine ⟨k, rfl, gone, fun other hother => ?_⟩
      rw [others other name (.inl hother), furnished.absent_iff]

namespace Sample

/-- The sample service when it did not ask for an elastic balancer yet. -/
def unannotated : Service := { service with annotations := ∅ }

/-- Requests that give the service a balancer of either kind. -/
def requestsOfBoth : List Request := [.ensure unannotated [], .ensure service []]

end Sample

theorem delete_leaves_other_sample :
    ∃ last,
      Sample.service.delete.run (({} : Session).serveAll Sample.requestsOfBoth) =
        (.ok (), last) ∧
      ∃ k, Sample.service.kind = .ok k ∧ (last.cloud.inventory.table k).get? "web" = none ∧
        ∀ other, other ≠ k →
          ((last.cloud.inventory.table other).get? "web" = none ↔
            ∀ r ∈ Sample.requestsOfBoth, ¬ r.Seeks other) := by
  have ok : (Sample.service.delete.run (({} : Session).serveAll Sample.requestsOfBoth)).1 =
      .ok () := by decide +kernel
  exact ⟨_, Prod.ext ok rfl, delete_leaves_other_iff (s := {}) rfl (fun k => by cases k <;> rfl)
    (by decide) (by decide +kernel) (by decide +kernel) (Prod.ext ok rfl)⟩

/-- A deletion that succeeds leaves a balancer with the name of the service behind, where the
service has changed its kind. -/
theorem former_balancer_outlives_deletion :
    Sample.unannotated.uid = Sample.service.uid ∧
      (Sample.service.delete.run (({} : Session).serveAll Sample.requestsOfBoth)).1 = .ok () ∧
      ((Sample.service.delete.run (({} : Session).serveAll
        Sample.requestsOfBoth)).2.cloud.inventory.ports .l4 Sample.service.balancerName).map
          Port.pair = [⟨80, 30080⟩] := by
  decide +kernel

end CloudBalancer
