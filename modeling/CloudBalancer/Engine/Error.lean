import CloudBalancer.Balancer.Basic
import CloudBalancer.Cloud.Call
import CloudBalancer.Service.Error

/-!
Why an operation on a balancer fails, and what it was acting on at the time.
-/

namespace CloudBalancer

/-- The balancer, or one port of it, that an operation acts on. -/
structure Target where
  name : String
  pair : Option PortPair
  deriving DecidableEq, Repr

namespace Target

def balancer (name : String) : Target := ⟨name, none⟩

def port (name : String) (pair : PortPair) : Target := ⟨name, some pair⟩

def ofPort {α : Type} (p : Port α) : Target := port p.name p.pair

def text : Target → String
  | ⟨name, some pair⟩ => s!"{name} ({pair.text})"
  | ⟨name, none⟩ => name

end Target

inductive EngineError
  /-- The cloud refused a call. -/
  | remote (operation : Operation) (target : Target) (cause : ApiError)
  /-- A call did not answer within its deadline. -/
  | timeout (operation : Operation) (target : Target)
  /-- A job of the group that configures a new port failed. -/
  | sideEffect (target : Target) (cause : EngineError)
  /-- A port is there that is not desired, although the ports were just synchronised. -/
  | desiredPortMissing (target : Target)
  | networkInterfaceCount (name : String) (count : Nat)
  | invalidHealthCheckTarget (text : String)
  /-- The balancer disappeared between a change and the look at its outcome. -/
  | vanished (name : String)
  | noPorts (name : String)
  | build (cause : BuildError)
  deriving DecidableEq, Repr

namespace EngineError

def message : EngineError → String
  | .remote op target cause =>
    s!"{op.name} failed for load balancer {target.text}: {cause.message}"
  | .timeout op target => s!"{op.name} timed out for load balancer {target.text}"
  | .sideEffect target cause =>
    s!"configuring new port of load balancer {target.text} failed: {cause.message}"
  | .desiredPortMissing target =>
    s!"load balancer {target.text} has a port that is not in the desired state"
  | .networkInterfaceCount name count =>
    s!"elastic load balancer {name} has {count} network interfaces, expected 1 or 2"
  | .invalidHealthCheckTarget text => s!"invalid health check target: {text}"
  | .vanished name => s!"load balancer {name} vanished after being modified"
  | .noPorts name => s!"load balancer {name} has no ports to reconcile"
  | .build cause => s!"invalid service: {cause.message}"

/-- The code of the cloud's error behind this one. -/
def apiCode : EngineError → Option ErrorCode
  | .remote _ _ cause => some cause.code
  | .sideEffect _ cause => cause.apiCode
  | _ => none

/-- The messages of the error, of its cause, of the cause of that, and so on. -/
def chain : EngineError → List String
  | e@(.remote _ _ cause) => [e.message, cause.message]
  | e@(.sideEffect _ cause) => e.message :: cause.chain
  | e@(.build cause) => [e.message, cause.message]
  | e => [e.message]

end EngineError

end CloudBalancer
