import CloudBalancer.Text

/-!
What can be wrong with the declaration of a service.
-/

namespace CloudBalancer

/-- What keeps the text of an annotation from being a value of its type. -/
inductive AnnotationFault
  | invalidDigit
  | numberTooLarge
  | notFlag
  | notAddress
  deriving DecidableEq, Repr

def AnnotationFault.message : AnnotationFault → String
  | .invalidDigit => "invalid digit found in string"
  | .numberTooLarge => "number too large to fit in target type"
  | .notFlag => "provided string was not `true` or `false`"
  | .notAddress => "invalid IP address syntax"

/-- Most ports that one balancer takes. -/
def maxPorts : Nat := 3

inductive BuildError
  | unsupportedProtocol (port : UInt16) (protocol : String)
  | tooManyPorts (count : Nat)
  | invalidAnnotationText (key value : String) (fault : AnnotationFault)
  | invalidHealthCheckProtocol (protocol : String)
  | invalidLoadBalancerType (type : String)
  | invalidSourceRange (range : String)
  | ipAddressRequired (slot : Nat) (networkId : String)
  | systemIpAddressCount (slot : Nat) (networkId : String) (count : Nat)
  | vipNetworkCount (count : Nat)
  deriving DecidableEq, Repr

open Text in
def BuildError.message : BuildError → String
  | .unsupportedProtocol port protocol =>
    s!"port {port} uses protocol {protocol}, only TCP is supported"
  | .tooManyPorts count =>
    s!"{count} ports requested, a load balancer supports at most {maxPorts}"
  | .invalidAnnotationText key value fault =>
    s!"annotation {key}={quoted value} is invalid: {fault.message}"
  | .invalidHealthCheckProtocol protocol =>
    s!"health check protocol {quoted protocol} is not supported, use TCP or ICMP"
  | .invalidLoadBalancerType type =>
    s!"load balancer type {quoted type} is not supported, use l4 or elastic"
  | .invalidSourceRange range => s!"invalid source range {quoted range}"
  | .ipAddressRequired slot networkId =>
    s!"network interface {slot} on private network {networkId} requires an IP address"
  | .systemIpAddressCount slot networkId count =>
    s!"network interface {slot} on private network {networkId} requires exactly 2 system IP " ++
      s!"addresses, got {count}"
  | .vipNetworkCount count =>
    s!"exactly one of two network interfaces must be the VIP network, got {count}"

end CloudBalancer
