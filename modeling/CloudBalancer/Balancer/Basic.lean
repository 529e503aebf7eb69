/-!
Load balancers. A balancer is the list of its ports: every port carries the name and the settings
of the balancer besides its own health check, backends and filter. L4 and elastic ports differ
only in their attachment, how they are wired into networks, of which an L4 port has none.

Desired and current lists differ, each under the equality of its items: ports by
name and port pair, backends by identity, filter entries by text.
-/

namespace CloudBalancer

inductive Kind
  | l4
  | elastic
  deriving DecidableEq, Repr

/-- Protocol of all data traffic. -/
def tcp : String := "TCP"

/-- Protocol, and health check target, of echo checks. -/
def icmp : String := "ICMP"

/-- The filter entry that the cloud uses for any source. -/
def anySource : String := "*.*.*.*"

def commonGlobalNetwork : String := "net-COMMON_GLOBAL"

def commonPrivateNetwork : String := "net-COMMON_PRIVATE"

/-- A compute instance that serves the traffic of a balancer. -/
structure Backend where
  instanceId : String := ""
  /-- Survives the replacement of the instance. -/
  uniqueId : String := ""
  instanceType : String := ""
  publicIp : String := ""
  privateIp : String := ""
  zone : String := ""
  state : String := ""
  deriving DecidableEq, Repr

/-- Whether two values mean one backend: by unique id where both have one, else by id. -/
def Backend.same (a b : Backend) : Bool :=
  if a.uniqueId ≠ "" ∧ b.uniqueId ≠ "" then a.uniqueId == b.uniqueId
  else a.instanceId == b.instanceId

def instanceIds (backends : List Backend) : List String :=
  backends.map Backend.instanceId

/-- The port that clients use and the port on the backends, which together tell the ports of a
balancer apart. -/
structure PortPair where
  balancerPort : UInt16
  instancePort : UInt16
  deriving DecidableEq, Repr

def PortPair.text (pair : PortPair) : String :=
  s!"{pair.balancerPort}->{pair.instancePort}"

structure HealthCheck where
  /-- `TCP:` and a port, or `ICMP`; empty on a port never configured. -/
  target : String := ""
  /-- Seconds between checks. -/
  interval : UInt32 := 10
  unhealthyThreshold : UInt32 := 1
  deriving DecidableEq, Repr

/-- The settings that hold for a balancer as a whole. -/
structure Settings where
  accountingType : UInt32 := 0
  policyType : String := ""
  balancingType : UInt32 := 0
  networkVolume : UInt32 := 0
  deriving DecidableEq, Repr

structure NetworkInterface where
  networkId : String := ""
  ipAddress : Option String := none
  /-- Further addresses that send health checks on private networks. -/
  systemIpAddresses : List String := []
  isVipNetwork : Bool := false
  deriving DecidableEq, Repr

/-- Whether the interface is on one of the networks that all customers share. -/
def NetworkInterface.isShared (interface : NetworkInterface) : Bool :=
  interface.networkId == commonGlobalNetwork || interface.networkId == commonPrivateNetwork

/-- Where an elastic port is wired in. -/
structure Attachment where
  protocol : String := ""
  availabilityZone : String := ""
  interfaces : List NetworkInterface := []
  deriving DecidableEq, Repr

/-- What ports of a kind carry besides the fields all ports have. -/
@[reducible] def Kind.Attachment : Kind → Type
  | .l4 => Unit
  | .elastic => CloudBalancer.Attachment

instance instDecidableEqKindAttachment : (k : Kind) → DecidableEq k.Attachment
  | .l4 => inferInstanceAs (DecidableEq Unit)
  | .elastic => inferInstanceAs (DecidableEq CloudBalancer.Attachment)

structure Port (α : Type) where
  name : String
  settings : Settings
  pair : PortPair
  healthCheck : HealthCheck
  backends : List Backend
  /-- Source addresses and address blocks let through; all of them if empty. -/
  filters : List String
  /-- Assigned by the cloud; empty on desired ports. -/
  vip : String
  attachment : α
  deriving DecidableEq, Repr

abbrev Kind.Port (k : Kind) : Type := CloudBalancer.Port k.Attachment

abbrev L4Port : Type := Port Unit

abbrev ElasticPort : Type := Port Attachment

/-- Whether two values mean one port, whatever else they say about it. -/
def Port.same {α : Type} (a b : Port α) : Bool :=
  a.name == b.name && a.pair == b.pair

def Kind.name : Kind → String
  | .l4 => "l4"
  | .elastic => "elastic"

/-- What a balancer shows to the outside. -/
structure Status where
  vip : String
  deriving DecidableEq, Repr

/-- The items of `target` with no equal item in `other`, in the order of `target`. -/
def differences {α : Type} (equals : α → α → Bool) (target other : List α) : List α :=
  target.filter fun item => !other.any (equals item)

def portDifferences {α : Type} (target other : List (Port α)) : List (Port α) :=
  differences Port.same target other

def backendDifferences (target other : List Backend) : List Backend :=
  differences Backend.same target other

structure FilterChange where
  /-- Whether the address joins the filter or leaves it. -/
  add : Bool
  address : String
  deriving DecidableEq, Repr

/-- The changes that turn the filter `current` into `desired`, additions first. The entry for any
source belongs to the cloud and is left alone. -/
def filterChanges (desired current : List String) : List FilterChange :=
  ((differences (· == ·) desired current).filter (· != anySource)).map (⟨true, ·⟩) ++
    ((differences (· == ·) current desired).filter (· != anySource)).map (⟨false, ·⟩)

end CloudBalancer
