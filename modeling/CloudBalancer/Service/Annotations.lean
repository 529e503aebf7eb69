import CloudBalancer.NameMap
import CloudBalancer.Service.Error
import CloudBalancer.Text

/-!
Annotations of a service: their keys, and typed look-ups. A blank annotation counts as absent.
-/

namespace CloudBalancer.Annotations

def loadBalancerType : String := "service.beta.kubernetes.io/lbsync-load-balancer-type"

def balancingType : String := "service.beta.kubernetes.io/lbsync-load-balancer-balancing-type"

def accountingType : String := "service.beta.kubernetes.io/lbsync-load-balancer-accounting-type"

def networkVolume : String := "service.beta.kubernetes.io/lbsync-load-balancer-network-volume"

def policyType : String := "service.beta.kubernetes.io/lbsync-load-balancer-policy-type"

def sourceRanges : String := "service.beta.kubernetes.io/lbsync-load-balancer-source-ranges"

def healthCheckInterval : String :=
  "service.beta.kubernetes.io/lbsync-load-balancer-healthcheck-interval"

def healthCheckThreshold : String :=
  "service.beta.kubernetes.io/lbsync-load-balancer-healthcheck-unhealthy-threshold"

def healthCheckProtocol : String :=
  "service.beta.kubernetes.io/lbsync-load-balancer-healthcheck-protocol"

def availabilityZone : String := "service.beta.kubernetes.io/lbsync-elb-availability-zone"

/-- The keys that describe one network interface of an elastic balancer. -/
structure InterfaceKeys where
  networkId : String
  ipAddress : String
  systemIpAddresses : String
  vipNetwork : String

def interfaceKeys (slot : Nat) : InterfaceKeys :=
  let base := s!"service.beta.kubernetes.io/lbsync-elb-network-interface-{slot}"
  ⟨base, base ++ "-ip-address", base ++ "-system-ip-addresses", base ++ "-vip-network"⟩

/-- The trimmed value of an annotation. -/
def get? (annotations : NameMap String) (key : String) : Option String :=
  match (annotations.get? key).map Text.trim with
  | some "" => none
  | value => value

/-- An annotation read by `read`, or `absent` where there is none. -/
def readOr {α : Type} (read : String → Except AnnotationFault α) (annotations : NameMap String)
    (key : String) (absent : α) : Except BuildError α :=
  match get? annotations key with
  | none => .ok absent
  | some value => (read value).mapError (.invalidAnnotationText key value)

def word (s : String) : Except AnnotationFault UInt32 :=
  match Text.Numeral.read 0xFFFFFFFF s with
  | .ok n => .ok (.ofNat n)
  | .error .invalidDigit => .error .invalidDigit
  | .error .tooLarge => .error .numberTooLarge

def flag (s : String) : Except AnnotationFault Bool :=
  if s = "true" then .ok true else if s = "false" then .ok false else .error .notFlag

def list (annotations : NameMap String) (key : String) : List String :=
  match get? annotations key with
  | none => []
  | some value => Text.commaItems value

end CloudBalancer.Annotations
