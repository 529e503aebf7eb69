import CloudBalancer.Proofs.Probes
import CloudBalancer.Proofs.Undisturbed
import CloudBalancer.Proofs.Validity
import CloudBalancer.Reconcile.Service

/-!
Requests about the balancers of services: what they are for elastic services, a reconciliation
unless the service makes no sense, or a deletion; and what several of them leave, where all goes
well and where calls get lost, fail or are given up.
-/

namespace CloudBalancer

inductive Request
  | ensure (service : Service) (backends : List Backend)
  | update (service : Service) (backends : List Backend)
  | delete (service : Service)

namespace Request

def service : Request → Service
  | .ensure service _ | .update service _ | .delete service => service

/-- The backends that the request is about, none for a deletion. -/
def backends : Request → List Backend
  | .ensure _ backends | .update _ backends => backends
  | .delete _ => []

def program : Request → Program Unit
  | .ensure service backends => discard (service.ensure backends)
  | .update service backends => service.update backends
  | .delete service => service.delete

end Request

/-- What can be asked about the balancer of a service, or about a balancer of a kind. -/
inductive Undertaking
  | look (service : Service)
  | serve (request : Request)
  | lookUp (k : Kind) (name : String)
  | reconcile (k : Kind) (name : String) (desired : List k.Port)
  | delete (k : Kind) (name : String)

namespace Undertaking

/-- The balancer that it is about. -/
def balancer : Undertaking → String
  | .look service => service.balancerName
  | .serve request => request.service.balancerName
  | .lookUp _ name | .reconcile _ name _ | .delete _ name => name

def program : Undertaking → Program Unit
  | .look service => discard service.status
  | .serve request => request.program
  | .lookUp k name => discard (Program.ofJob (Reconcile.status k name))
  | .reconcile k name desired => discard (Reconcile.reconcile name k desired)
  | .delete k name => .ofJob (Reconcile.delete name k)

end Undertaking

/-- The session after a request, whatever the request came to. -/
def Session.serve (s : Session) (request : Request) : Session :=
  (request.program.run s).2

def Session.serveAll (s : Session) (requests : List Request) : Session :=
  requests.foldl serve s

theorem Session.serve_inventory {s : Session} (prompt : s.cloud.failures = []) (request : Request) :
    (s.serve request).cloud.inventory = (request.program.effect s.cloud.inventory).2 ∧
      (s.serve request).cloud.failures = [] :=
  have outcome := request.program.run_hasEffect prompt
  ⟨outcome.inventory, outcome.prompt⟩

/-- Requests leave the members of groups alone. -/
theorem members_request (request : Request) (inv : Inventory) (group : String) :
    (request.program.effect inv).2.members group = inv.members group := by
  have keeps {before after : Inventory} {c : Call} {answer : c.Answer}
      (happly : before.apply c = .ok (answer, after))
      (same : before.members group = inv.members group) :
      after.members group = inv.members group :=
    ((Inventory.changes_apply happly).members_eq group).trans same
  exact request.program.effect_keeps keeps rfl

/-- No reply makes up an answer. -/
def Script.Truthful (script : Script) : Prop :=
  ∀ entry ∈ script, ∀ c, entry.2.madeUp? c = none

theorem Script.Truthful.agrees {script : Script} (truthful : script.Truthful)
    (contract : Contract) : script.Agrees contract := by
  intro entry hentry c answer made
  rw [truthful entry hentry c] at made
  cases made

/-- What is left of an inventory by requests whose calls may all get lost, fail or be given up,
performed or not. -/
inductive Attempted (allowed : Request → Prop) (start : Inventory) : Inventory → Prop
  | start : Attempted allowed start start
  | attempt {w : World} {request : Request} (config : Config) (truthful : w.script.Truthful) :
    allowed request → Attempted allowed start w.cloud.inventory →
      Attempted allowed start (request.program.simulate config w).2.cloud.inventory

/-- Requests where nothing goes wrong are attempts, too. -/
theorem Attempted.serve {allowed : Request → Prop} {start : Inventory} {s : Session}
    {request : Request} (h : Attempted allowed start s.cloud.inventory)
    (hrequest : allowed request) : Attempted allowed start (s.serve request).cloud.inventory := by
  let w : World := { cloud := s.cloud, events := s.events }
  have truthful : w.script.Truthful := fun _ hentry => by cases hentry
  obtain ⟨w', hsimulate, hsession, -⟩ := request.program.simulate_of_quiet (w := w) rfl {}
  have attempted := Attempted.attempt (w := w) {} truthful hrequest h
  rw [hsimulate] at attempted
  have served : w'.session = s.serve request := hsession
  rwa [← served]

/-- The balancers are in order whatever was attempted. -/
theorem Attempted.stocked {allowed : Request → Prop} {start inv : Inventory}
    (empty : start.elastic = ∅) (h : Attempted allowed start inv) : inv.Stocked .elastic := by
  have keeps : (⟨fun _ => True, fun _ _ => True⟩ : Contract).Keeps (·.inventory.Stocked .elastic) :=
    Contract.keeps_of_apply (·.Stocked .elastic)
      (fun _ happly stocked => stocked.changes (Inventory.changes_apply happly))
      fun _ _ _ => trivial
  induction h with
  | start => exact Inventory.stocked_of_empty empty
  | @attempt w request config truthful _ _ ih =>
      exact ((Program.Within.unbound request.program).simulate
        (.start ih (truthful.agrees _)) keeps config).good

namespace Program

theorem effect_discard {α : Type} (program : Program α) (inv : Inventory) :
    (discard program).effect inv =
      ((program.effect inv).1.map fun _ => (), (program.effect inv).2) := by
  show (program >>= fun _ => pure ()).effect inv = _
  rw [effect_bind]
  rcases program.effect inv with ⟨value | e, after⟩ <;> rfl

end Program

namespace Service

variable {service : Service} {backends : List Backend} {desired : List ElasticPort}

theorem delete_eq_delete {k : Kind} (ofKind : service.kind = .ok k) :
    service.delete = .ofJob (Reconcile.delete service.balancerName k) := by
  rw [delete, kindOrFail, ofKind]
  rfl

theorem delete_eq (elastic : service.kind = .ok .elastic) :
    service.delete = .ofJob (Reconcile.Elastic.delete service.balancerName) :=
  delete_eq_delete elastic

/-- A service that makes no sense is an error before anything is called. -/
theorem ensure_eq_fail (elastic : service.kind = .ok .elastic) {e : BuildError}
    (refused : desiredElastic service.balancerName backends service = .error e) :
    service.ensure backends = .fail (.build e) := by
  rw [ensure, kindOrFail, elastic]
  show Program.ofExcept ((desiredElastic service.balancerName backends service).mapError _) >>=
    _ = _
  rw [refused]
  rfl

theorem ensure_eq (elastic : service.kind = .ok .elastic)
    (wanted : desiredElastic service.balancerName backends service = .ok desired) :
    service.ensure backends = Reconcile.Elastic.reconcile service.balancerName desired := by
  rw [ensure, kindOrFail, elastic]
  show Program.ofExcept ((desiredElastic service.balancerName backends service).mapError _) >>=
    _ = _
  rw [wanted]
  rfl

end Service

namespace Sample

/-- An elastic service with one port. -/
def service : Service where
  uid := "web"
  ports := [{ protocol := tcp, port := 80, nodePort := some 30080 }]
  annotations := NameMap.insert ∅ Annotations.loadBalancerType "elastic"

def backends : List Backend := [{ instanceId := "i-1" }]

/-- No balancer, and a group with the backend. -/
def inventory : Inventory := ({} : Inventory).addToGroup "g" ["i-1"]

theorem unruled (group : String) : inventory.rulesOf group = [] := by
  rw [inventory, Inventory.rulesOf_addToGroup]
  rfl

/-- The sample request where nothing fails. -/
def ensured (inventory : Inventory) : Except EngineError Status × Session :=
  (service.ensure backends).run { cloud := { inventory } }

def deleted (inventory : Inventory) : Except EngineError Unit × Session :=
  service.delete.run { cloud := { inventory } }

/-- A world in which the next call of one operation fails without being performed. -/
def refusing (op : Operation) (inventory : Inventory) : World where
  cloud := { inventory }
  script := [(op, { error := some ⟨.other "Server.InternalError", "try again"⟩ })]

theorem truthful_refusing (op : Operation) (inventory : Inventory) :
    (refusing op inventory).script.Truthful := by
  intro entry hentry c
  rw [List.mem_singleton.1 hentry]
  exact Reply.madeUp?_eq_none rfl rfl rfl rfl c

end Sample

end CloudBalancer
