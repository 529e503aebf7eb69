import CloudBalancer.Proofs.Deployment
import CloudBalancer.Proofs.ElasticConduct
import CloudBalancer.Proofs.PortChanges
import CloudBalancer.Proofs.Requests

/-!
The clouds that the operations on services bring about, one after the other, while groups have any
members and any rules. Calls may get lost, fail, be late or be answered by something made up: even
so, no elastic port is ever stored whose rules could not be derived. That is all it takes for a
later reconciliation to go through.
-/

namespace CloudBalancer

/-- What is in the cloud after any operations on services, whatever becomes of their calls, between
which the groups may change in any way. -/
inductive Administered : Inventory → Prop
  | empty : Administered {}
  | serve {w : World} (request : Request) (config : Config) :
    Administered w.cloud.inventory →
      Administered (request.program.simulate config w).2.cloud.inventory
  | lookUp {w : World} (service : Service) (config : Config) :
    Administered w.cloud.inventory →
      Administered (service.status.simulate config w).2.cloud.inventory
  | regroup {inv : Inventory} (groups : NameMap SecurityGroup) :
    Administered inv → Administered { inv with groups }

namespace Reconcile.Elastic

open Inventory

/-- The calls that keep ports derivable. -/
def provision : Contract where
  allowed
    | .create .elastic p => p.attachment.protocol = tcp ∧ Wired p.attachment.interfaces
    | .registerPort .elastic p => p.attachment.protocol = tcp
    | .configureHealthCheck .elastic p => Probed p
    | _ => True
  told _ _ := True

/-- All elastic balancers are in order, with ports whose rules can be derived. -/
structure Provisioned (inv : Inventory) : Prop where
  stocked : inv.Stocked .elastic
  deployed : ∀ name, ∀ p ∈ inv.ports .elastic name, Deployed p.backends p

variable {inv after : Inventory} {name : String} {backends : List Backend}
  {desired : List ElasticPort}

/-- Where the desired ports can be deployed, reconciling goes through. -/
theorem Provisioned.completed_deployable (provisioned : Provisioned inv)
    (deployable : Deployable name desired) (hnew : desired ≠ []) :
    Completed name desired inv (inv.ports .elastic name) ((reconcile name desired).effect inv) := by
  have valid := provisioned.stocked.ports name
  have completed := effect_converge_deployable inv deployable hnew (fun p hp => valid.named hp)
    (apart_of_pairs valid.pairs) fun p hp => (provisioned.deployed name p hp).routable
  rwa [provisioned.stocked.withPorts_ports, ← effect_reconcile_eq hnew] at completed

theorem deployed_apply {c : Call} {answer : c.Answer} (allowed : provision.allowed c)
    (h : inv.apply c = .ok (answer, after)) (provisioned : Provisioned inv) (name : String) :
    ∀ p ∈ after.ports .elastic name, Deployed p.backends p := by
  refine forall_ports_apply (provisioned.stocked.solid _) h (provisioned.deployed name) ?_ ?_ ?_
  · rintro p rfl -
    obtain ⟨protocol, wired⟩ := allowed
    exact ⟨protocol, wired_fillInterfaces wired _ _, .inl rfl, List.Subset.refl _⟩
  · rintro p first rfl deployed
    exact ⟨allowed, deployed.wired, .inl rfl, List.Subset.refl _⟩
  · intro d p new revises _ deployed
    obtain ⟨protocol, wired, checked, -⟩ := deployed
    cases revises with
    | check => exact ⟨protocol, wired, .inr allowed, List.Subset.refl _⟩
    | update | join | leave | filter => exact ⟨protocol, wired, checked, List.Subset.refl _⟩

theorem provision_keeps : provision.Keeps fun cloud => Provisioned cloud.inventory :=
  Contract.keeps_of_apply _
    (fun allowed happly provisioned => ⟨provisioned.stocked.changes (changes_apply happly),
      deployed_apply allowed happly provisioned⟩)
    fun _ _ _ => trivial

theorem provision_grants : provision.LetsGrant :=
  ⟨fun _ => trivial, fun _ _ => trivial, fun _ => trivial⟩

theorem provision_founds (service : OfService name backends desired) :
    provision.LetsFound (k := .elastic) name desired :=
  ⟨⟨trivial, service.protocol, service.probed, fun _ _ _ => trivial⟩,
    fun d wanted => ⟨service.protocol d wanted, service.wired d wanted⟩, fun _ _ _ _ => trivial⟩

theorem provision_adjusts (service : OfService name backends desired) :
    provision.LetsAdjust (k := .elastic) name desired :=
  ⟨(provision_founds service).toLetsBuild, fun _ _ => trivial, fun _ _ _ _ _ _ => trivial,
    fun _ _ _ _ _ _ => trivial, fun _ _ _ => trivial, fun _ _ => trivial⟩

/-- L4 balancers are of no concern. -/
theorem provision_founds_l4 (name : String) (desired : List L4Port) :
    provision.LetsFound (k := .l4) name desired :=
  ⟨⟨trivial, fun _ _ => trivial, fun _ _ => trivial, fun _ _ _ => trivial⟩, fun _ _ => trivial,
    fun _ _ _ _ => trivial⟩

theorem provision_adjusts_l4 (name : String) (desired : List L4Port) :
    provision.LetsAdjust (k := .l4) name desired :=
  ⟨(provision_founds_l4 name desired).toLetsBuild, fun _ _ => trivial,
    fun _ _ _ _ _ _ => trivial, fun _ _ _ _ _ _ => trivial, fun _ _ _ => trivial,
    fun _ _ => trivial⟩

theorem within_ensure (service : Service) (backends : List Backend) :
    (service.ensure backends).Within provision fun _ => True := by
  refine Program.Within.bind (.ofExcept fun _ _ => trivial) fun kind _ => ?_
  refine Program.Within.bind (.ofExcept fun desired hdesired => hdesired) fun desired hdesired => ?_
  cases kind with
  | l4 =>
      exact within_reconcile (k := .l4) provision_grants (provision_founds_l4 ..)
        (provision_adjusts_l4 ..) fun _ _ => trivial
  | elastic =>
      have wanted : desiredElastic service.balancerName backends service = .ok desired := by
        cases h : desiredElastic service.balancerName backends service with
        | error e => simp [Service.desired, h, Except.mapError] at hdesired
        | ok ports =>
            simp only [Service.desired, h, Except.mapError] at hdesired
            cases hdesired
            rfl
      have ofService := ofService_desiredElastic wanted
      exact within_reconcile (k := .elastic) provision_grants (provision_founds ofService)
        (provision_adjusts ofService) fun _ _ => trivial

theorem within_serviceDelete (service : Service) :
    service.delete.Within provision fun _ => True := by
  refine Program.Within.bind (.ofExcept fun _ _ => trivial) fun kind _ => .ofJob ?_
  refine within_delete provision_grants ⟨?_, fun _ _ => ?_, fun _ _ => ?_⟩ fun _ _ => trivial
  all_goals cases kind <;> trivial

theorem within_request (request : Request) :
    request.program.Within provision fun _ => True := by
  cases request with
  | ensure service backends => exact (within_ensure service backends).bind fun _ _ => trivial
  | update service backends => exact (within_ensure service backends).bind fun _ _ => trivial
  | delete service => exact within_serviceDelete service

theorem within_serviceStatus (service : Service) :
    service.status.Within provision fun _ => True := by
  refine Program.Within.bind (.ofExcept fun _ _ => trivial) fun kind _ => .ofJob ?_
  have described : (describe kind service.balancerName).Within provision fun _ => True :=
    (within_describe (by cases kind <;> trivial)).imp fun _ _ => trivial
  refine described.bind fun answer _ => ?_
  split
  · trivial
  · exact Job.Within.bind (.ofExcept fun _ _ => trivial) fun _ _ => trivial

end Reconcile.Elastic

open Reconcile.Elastic in
theorem Administered.provisioned {inv : Inventory} (h : Administered inv) : Provisioned inv := by
  induction h with
  | empty =>
      refine ⟨Inventory.stocked_of_empty rfl, fun name p hp => ?_⟩
      simp [Inventory.ports, Inventory.table] at hp
  | serve request config _ ih =>
      exact ((within_request request).simulate (.start ih fun _ _ _ _ _ => trivial)
        provision_keeps config).good
  | lookUp service config _ ih =>
      exact ((within_serviceStatus service).simulate (.start ih fun _ _ _ _ _ => trivial)
        provision_keeps config).good
  | regroup groups _ ih => exact ⟨ih.stocked.of_table rfl, ih.deployed⟩

namespace Sample

theorem administered_inventory : Administered inventory :=
  .regroup _ .empty

/-- What the sample service wants. -/
def desired : List ElasticPort :=
  [{ name := service.balancerName
     settings := { accountingType := 1, policyType := "standard", balancingType := 1,
                   networkVolume := 10 }
     pair := ⟨80, 30080⟩
     healthCheck := { target := "TCP:30080" }
     backends := backends
     filters := []
     vip := ""
     attachment := { protocol := tcp,
                     interfaces := [{ networkId := commonGlobalNetwork, isVipNetwork := true }] } }]

theorem desiredElastic_service :
    desiredElastic service.balancerName backends service = .ok desired := by
  decide +kernel

/-- The sample balancer with a second port. -/
def widened : Cloud :=
  ((Request.ensure { service with
      ports := service.ports ++ [{ protocol := tcp, port := 443, nodePort := some 30443 }] }
    backends).program.simulate {} { cloud := { inventory } }).2.cloud

theorem administered_widened : Administered widened.inventory :=
  .serve (w := { cloud := { inventory } }) (.ensure _ backends) {} administered_inventory

end Sample

end CloudBalancer
