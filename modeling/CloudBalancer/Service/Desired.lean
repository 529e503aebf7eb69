import CloudBalancer.Balancer.Basic
import CloudBalancer.Network.Grammar
import CloudBalancer.Service.Annotations
import CloudBalancer.Service.Form

/-!
The ports that a service wants: one for each of its own ports that has a node port, all with the
same settings, backends and filter or attachment.
-/

namespace CloudBalancer

/-- What the annotations settle for every port of a balancer. -/
structure Policy where
  settings : Settings
  interval : UInt32
  unhealthyThreshold : UInt32
  echoChecks : Bool
  deriving DecidableEq, Repr

namespace Policy

def echoChecks? (annotations : NameMap String) : Except BuildError Bool :=
  match Annotations.get? annotations Annotations.healthCheckProtocol with
  | none => .ok false
  | some protocol =>
    if protocol = tcp then .ok false
    else if protocol = icmp then .ok true
    else .error (.invalidHealthCheckProtocol protocol)

def ofAnnotations (annotations : NameMap String) : Except BuildError Policy := do
  let word := Annotations.readOr Annotations.word annotations
  let echoChecks ← echoChecks? annotations
  let balancingType ← word Annotations.balancingType 1
  let accountingType ← word Annotations.accountingType 1
  let networkVolume ← word Annotations.networkVolume 10
  let policyType := (Annotations.get? annotations Annotations.policyType).getD "standard"
  let interval ← word Annotations.healthCheckInterval 10
  let unhealthyThreshold ← word Annotations.healthCheckThreshold 1
  let settings := { accountingType, policyType, balancingType, networkVolume }
  return { settings, interval, unhealthyThreshold, echoChecks }

def healthCheck (policy : Policy) (nodePort : UInt16) : HealthCheck where
  target := if policy.echoChecks then icmp else s!"{tcp}:{nodePort}"
  interval := policy.interval
  unhealthyThreshold := policy.unhealthyThreshold

def port {α : Type} (policy : Policy) (name : String) (backends : List Backend)
    (filters : List String) (attachment : α) (pair : PortPair) : Port α where
  name := name
  settings := policy.settings
  pair := pair
  healthCheck := policy.healthCheck pair.instancePort
  backends := backends
  filters := filters
  vip := ""
  attachment := attachment

end Policy

/-- The port pairs of the ports with a node port. A port of another protocol than TCP is an error
even without one. -/
def nodePorts : List ServicePort → Except BuildError (List PortPair)
  | [] => .ok []
  | port :: rest =>
    if port.protocol ≠ tcp then .error (.unsupportedProtocol port.port port.protocol)
    else do
      let more ← nodePorts rest
      match port.nodePort with
      | some nodePort => return if nodePort = 0 then more else ⟨port.port, nodePort⟩ :: more
      | none => return more

def usablePorts (service : Service) : Except BuildError (List PortPair) := do
  let pairs ← nodePorts service.ports
  if maxPorts < pairs.length then .error (.tooManyPorts pairs.length) else return pairs

/-- The declared source ranges: those of the service itself win over the annotation. -/
def Service.ranges (service : Service) : List String :=
  if service.sourceRanges.isEmpty then
    Annotations.list service.annotations Annotations.sourceRanges
  else service.sourceRanges

/-- The filter entry for a block: a single IPv4 address is written bare. -/
def filterEntry (range : String) : Network.Block → String
  | .v4 address length => if length.val = 32 then address.text else range
  | .v6 _ _ => range

/-- The filter entries for `ranges`, repeated ones included, or nothing as soon as a block of
every address is among them. -/
def filterEntries : List String → Except BuildError (Option (List String))
  | [] => .ok (some [])
  | range :: rest =>
    let range := Text.trim range
    match Network.Block.parse? range with
    | none => .error (.invalidSourceRange range)
    | some block =>
      if block.length = 0 then .ok none
      else do return (← filterEntries rest).map (filterEntry range block :: ·)

/-- The filter that lets the declared source ranges through, empty if that is everything. -/
def sourceFilter (service : Service) : Except BuildError (List String) := do
  match ← filterEntries service.ranges with
  | none => return []
  | some entries => return entries.eraseDups

def readAddress (value : String) : Except AnnotationFault String :=
  match Network.Address.parse? value with
  | some address => .ok address.text
  | none => .error .notAddress

/-- The interface that the annotations of a slot declare. -/
def declaredInterface (annotations : NameMap String) (slot : Nat) :
    Except BuildError (Option NetworkInterface) := do
  let keys := Annotations.interfaceKeys slot
  match Annotations.get? annotations keys.networkId with
  | none => return none
  | some networkId =>
    let ipAddress ← Annotations.readOr (fun value => (readAddress value).map some) annotations
      keys.ipAddress none
    let systemIpAddresses ← (Annotations.list annotations keys.systemIpAddresses).mapM fun value =>
      (readAddress value).mapError (.invalidAnnotationText keys.systemIpAddresses value)
    let isVipNetwork ← Annotations.readOr Annotations.flag annotations keys.vipNetwork false
    let interface : NetworkInterface := { networkId, ipAddress, systemIpAddresses, isVipNetwork }
    if interface.isShared then return some interface
    else if ipAddress.isNone then .error (.ipAddressRequired slot networkId)
    else if systemIpAddresses.length ≠ 2 then
      .error (.systemIpAddressCount slot networkId systemIpAddresses.length)
    else return some interface

/-- The interfaces of an elastic balancer: the shared global network if none is declared; a single
one always carries the VIP, and of two exactly one has to. -/
def networkInterfaces (annotations : NameMap String) :
    Except BuildError (List NetworkInterface) := do
  let declared ← [1, 2].mapM (declaredInterface annotations)
  match declared.filterMap id with
  | [] => return [{ networkId := commonGlobalNetwork, isVipNetwork := true }]
  | [interface] => return [{ interface with isVipNetwork := true }]
  | interfaces =>
    let count := (interfaces.filter (·.isVipNetwork)).length
    if count = 1 then return interfaces else .error (.vipNetworkCount count)

def availabilityZone (backends : List Backend) (service : Service) : String :=
  match Annotations.get? service.annotations Annotations.availabilityZone with
  | some zone => zone
  | none => (backends.head?.map Backend.zone).getD ""

def desiredL4 (name : String) (backends : List Backend) (service : Service) :
    Except BuildError (List L4Port) := do
  let policy ← Policy.ofAnnotations service.annotations
  let filters ← sourceFilter service
  let pairs ← usablePorts service
  return pairs.map (policy.port name backends filters ())

def desiredElastic (name : String) (backends : List Backend) (service : Service) :
    Except BuildError (List ElasticPort) := do
  let policy ← Policy.ofAnnotations service.annotations
  let interfaces ← networkInterfaces service.annotations
  let attachment := { protocol := tcp, availabilityZone := availabilityZone backends service,
                      interfaces }
  let pairs ← usablePorts service
  return pairs.map (policy.port name backends [] attachment)

/-- The kind of balancer that a service asks for; L4 unless it says otherwise. -/
def Service.kind (service : Service) : Except BuildError Kind :=
  match Annotations.get? service.annotations Annotations.loadBalancerType with
  | none | some "l4" => .ok .l4
  | some "elastic" => .ok .elastic
  | some other => .error (.invalidLoadBalancerType other)

/-- The ports of the given kind that a service wants for `backends`. -/
def Service.desired (service : Service) (backends : List Backend) :
    (k : Kind) → Except BuildError (List k.Port)
  | .l4 => desiredL4 service.balancerName backends service
  | .elastic => desiredElastic service.balancerName backends service

end CloudBalancer
