import CloudBalancer.Balancer.Basic
import CloudBalancer.Engine.Error
import CloudBalancer.SecurityGroup.Form
import CloudBalancer.Text

/-!
The rules that let a balancer reach its backends. With one interface, data comes from the VIP, and
health checks from the VIP and the system addresses; with two, only the health checks that the
interface without the VIP sends need rules.
-/

namespace CloudBalancer

/-- What a health check looks like on the wire; an echo check has no port. -/
structure Probe where
  protocol : String
  port : Option UInt16
  deriving DecidableEq, Repr

/-- Splits at the first colon. -/
def splitColon : List Char → Option (List Char × List Char)
  | [] => none
  | c :: cs =>
    if c = ':' then some ([], cs) else (splitColon cs).map fun (left, right) => (c :: left, right)

/-- The probe named by a health check target: `ICMP`, or a protocol, a colon and a port. -/
def Probe.ofTarget (target : String) : Except EngineError Probe :=
  if target = icmp then .ok ⟨icmp, none⟩
  else
    match splitColon target.toList with
    | none => .error (.invalidHealthCheckTarget target)
    | some (protocol, port) =>
      match Text.Numeral.readChars 0xFFFF port with
      | .error _ => .error (.invalidHealthCheckTarget target)
      | .ok n =>
        if protocol.isEmpty then .error (.invalidHealthCheckTarget target)
        else .ok ⟨String.ofList protocol, some (.ofNat n)⟩

/-- The rules for a port as the cloud describes it, with VIP and interfaces assigned. -/
def deriveRules (p : ElasticPort) : Except EngineError (List Rule) := do
  let probe ← Probe.ofTarget p.healthCheck.target
  let dataPort := some p.pair.instancePort
  match p.attachment.interfaces with
  | [interface] =>
    let probePort := if probe.protocol = icmp then none else probe.port.or dataPort
    let check := Rule.inbound probe.protocol probePort
    return .inbound p.attachment.protocol dataPort p.vip ::
      ((if probe.protocol ≠ p.attachment.protocol then [check p.vip] else []) ++
        interface.systemIpAddresses.map check)
  | [first, second] =>
    match [first, second].find? (!·.isVipNetwork) with
    | none => .error (.networkInterfaceCount p.name 2)
    | some interface =>
      -- Checks go to the data port here, whatever port the target names.
      let check := Rule.inbound probe.protocol (if probe.protocol = icmp then none else dataPort)
      let address := interface.ipAddress.getD ""
      return (if address ≠ "" then [check address] else []) ++
        interface.systemIpAddresses.map check
  | interfaces => .error (.networkInterfaceCount p.name interfaces.length)

/-- The rules that a described port has granted: none before its health check is configured. -/
def grantedRules (p : ElasticPort) : Except EngineError (List Rule) :=
  if p.healthCheck.target = "" then .ok [] else deriveRules p

end CloudBalancer
