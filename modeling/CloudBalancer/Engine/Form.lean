import CloudBalancer.Engine.Error
import CloudBalancer.Json.Record
import CloudBalancer.SecurityGroup.Form

/-!
Configurations, which say how long a remote call may take before it is given up, and the audit
trail: the changes made to the cloud, and the failures of whole reconciliations. Both have JSON
forms.
-/

namespace CloudBalancer

structure Config where
  apiTimeoutSecs : UInt64 := 60
  /-- For waiting until a group has applied its rule changes. -/
  securityGroupApplyTimeoutSecs : UInt64 := 600
  deriving DecidableEq, Repr

/-- Seconds that a wait of `seconds` takes on the clock: one that it cannot count to is taken to
last thirty years. -/
def clockSeconds (seconds : UInt64) : Nat :=
  if seconds.toNat < 0x7FFFFFFFFFFFFFFF then seconds.toNat else 30 * 365 * 86400

/-- Which of the limits of a configuration a call is under. -/
inductive Limit
  | api
  | securityGroupApply
  deriving DecidableEq, Repr

def Config.timeout (config : Config) : Limit → Nat
  | .api => clockSeconds config.apiTimeoutSecs
  | .securityGroupApply => clockSeconds config.securityGroupApplyTimeoutSecs

inductive AuditLevel
  | info
  | audit
  | warn
  deriving DecidableEq, Repr

inductive AuditEvent
  | portCreated (name : String) (pair : PortPair) (vip : String)
  | portRegistered (name : String) (pair : PortPair)
  | portDeleted (name : String) (pair : PortPair)
  | healthCheckConfigured (name : String) (pair : PortPair) (target : String)
  | backendsRegistered (name : String) (pair : PortPair) (instanceIds : List String)
  | backendsDeregistered (name : String) (pair : PortPair) (instanceIds : List String)
  | filterSet (name : String) (pair : PortPair) (added removed : Nat)
  | ingressAuthorized (group : String) (rule : Rule)
  | ingressRevoked (group : String) (rule : Rule)
  | reconcileFailed (name : String) (error : EngineError)
  deriving DecidableEq, Repr

namespace AuditEvent

def level : AuditEvent → AuditLevel
  | .healthCheckConfigured .. => .info
  | .reconcileFailed .. => .warn
  | _ => .audit

def message : AuditEvent → String
  | .portCreated name pair vip =>
    s!"Load balancer '{name}' created with port {pair.text} (VIP {vip})"
  | .portRegistered name pair => s!"Port {pair.text} registered on load balancer '{name}'"
  | .portDeleted name pair => s!"Port {pair.text} deleted from load balancer '{name}'"
  | .healthCheckConfigured name pair target =>
    s!"Health check of load balancer '{name}' port {pair.text} set to {target}"
  | .backendsRegistered name pair ids =>
    s!"Registered {ids.length} instance(s) with load balancer '{name}' port {pair.text}"
  | .backendsDeregistered name pair ids =>
    s!"Deregistered {ids.length} instance(s) from load balancer '{name}' port {pair.text}"
  | .filterSet name pair added removed =>
    s!"Filter of load balancer '{name}' port {pair.text} updated (+{added} -{removed})"
  | .ingressAuthorized group rule => s!"Security group '{group}' now allows {rule.text}"
  | .ingressRevoked group rule => s!"Security group '{group}' no longer allows {rule.text}"
  | .reconcileFailed name error =>
    s!"Reconciling load balancer '{name}' failed: {error.message}"

/-- The balancer and port pair, the instances, or the security group concerned. -/
def objectIds : AuditEvent → List String
  | .portCreated name pair _ | .portRegistered name pair | .portDeleted name pair
  | .healthCheckConfigured name pair _ | .filterSet name pair _ _ => [name, pair.text]
  | .backendsRegistered name pair ids | .backendsDeregistered name pair ids =>
    name :: pair.text :: ids
  | .ingressAuthorized group _ | .ingressRevoked group _ => [group]
  | .reconcileFailed name _ => [name]

end AuditEvent

open Json

namespace Config

def toJson (config : Config) : Json :=
  .object [("apiTimeoutSecs", .ofNat config.apiTimeoutSecs.toNat),
    ("securityGroupApplyTimeoutSecs", .ofNat config.securityGroupApplyTimeoutSecs.toNat)]

def ofJson? : Decoder Config :=
  .lenientRecord ["apiTimeoutSecs", "securityGroupApplyTimeoutSecs"] do
    return {
      apiTimeoutSecs := ← .field 60 .seconds
      securityGroupApplyTimeoutSecs := ← .field 600 .seconds }

end Config

def AuditLevel.name : AuditLevel → String
  | .info => "Info"
  | .audit => "Audit"
  | .warn => "Warn"

def AuditEvent.toJson (event : AuditEvent) : Json :=
  .object [("level", .string event.level.name), ("message", .string event.message),
    ("objectIds", .strings event.objectIds)]

end CloudBalancer
