import CloudBalancer.Balancer.Basic
import CloudBalancer.Json.Record

/-!
JSON forms of balancers and of what they are made of. Elastic ports are written with the fields of
their attachment among the others.
-/

namespace CloudBalancer

open Json

namespace Backend

def fields : List String :=
  ["instanceId", "instanceUniqueId", "instanceType", "publicIp", "privateIp", "zone", "state"]

def toJson (b : Backend) : Json :=
  .object [("instanceId", .string b.instanceId), ("instanceUniqueId", .string b.uniqueId),
    ("instanceType", .string b.instanceType), ("publicIp", .string b.publicIp),
    ("privateIp", .string b.privateIp), ("zone", .string b.zone), ("state", .string b.state)]

def ofJson? : Decoder Backend :=
  .lenientRecord fields do
    return {
      instanceId := ← .field "" .text
      uniqueId := ← .field "" .text
      instanceType := ← .field "" .text
      publicIp := ← .field "" .text
      privateIp := ← .field "" .text
      zone := ← .field "" .text
      state := ← .field "" .text }

end Backend

namespace HealthCheck

def toJson (check : HealthCheck) : Json :=
  .object [("target", .string check.target), ("interval", .ofNat check.interval.toNat),
    ("unhealthyThreshold", .ofNat check.unhealthyThreshold.toNat)]

def ofJson? : Decoder HealthCheck :=
  .lenientRecord ["target", "interval", "unhealthyThreshold"] do
    return {
      target := ← .field "" .text
      interval := ← .field 10 .word
      unhealthyThreshold := ← .field 1 .word }

end HealthCheck

namespace NetworkInterface

def toJson (interface : NetworkInterface) : Json :=
  .object [("networkId", .string interface.networkId),
    ("ipAddress", .ofOption .string interface.ipAddress),
    ("systemIpAddresses", .strings interface.systemIpAddresses),
    ("isVipNetwork", .bool interface.isVipNetwork)]

def ofJson? : Decoder NetworkInterface :=
  .lenientRecord ["networkId", "ipAddress", "systemIpAddresses", "isVipNetwork"] do
    return {
      networkId := ← .field "" .text
      ipAddress := ← .optional .text
      systemIpAddresses := ← .field [] (.list .text)
      isVipNetwork := ← .field false .flag }

end NetworkInterface

namespace L4Port

def fields : List String :=
  ["name", "accountingType", "policyType", "balancingType", "networkVolume", "loadBalancerPort",
    "instancePort", "healthCheck", "instances", "filters", "vip"]

def toJson (p : L4Port) : Json :=
  .object [("name", .string p.name), ("accountingType", .ofNat p.settings.accountingType.toNat),
    ("policyType", .string p.settings.policyType),
    ("balancingType", .ofNat p.settings.balancingType.toNat),
    ("networkVolume", .ofNat p.settings.networkVolume.toNat),
    ("loadBalancerPort", .ofNat p.pair.balancerPort.toNat),
    ("instancePort", .ofNat p.pair.instancePort.toNat), ("healthCheck", p.healthCheck.toJson),
    ("instances", .array (p.backends.map Backend.toJson)), ("filters", .strings p.filters),
    ("vip", .string p.vip)]

def ofJson? : Decoder L4Port :=
  .lenientRecord fields do
    let name ← .field "" .text
    let settings : Settings := {
      accountingType := ← .field 0 .word
      policyType := ← .field "" .text
      balancingType := ← .field 0 .word
      networkVolume := ← .field 0 .word }
    let pair : PortPair := {
      balancerPort := ← .field 0 .port
      instancePort := ← .field 0 .port }
    let healthCheck ← .field {} HealthCheck.ofJson?
    let backends ← .field [] (.list Backend.ofJson?)
    let filters ← .field [] (.list .text)
    let vip ← .field "" .text
    return { name, settings, pair, healthCheck, backends, filters, vip, attachment := () }

end L4Port

namespace ElasticPort

def fields : List String :=
  ["name", "accountingType", "policyType", "balancingType", "networkVolume", "protocol",
    "loadBalancerPort", "instancePort", "healthCheck", "instances", "filters",
    "availabilityZone", "vip", "networkInterfaces"]

def toJson (p : ElasticPort) : Json :=
  .object [("name", .string p.name), ("accountingType", .ofNat p.settings.accountingType.toNat),
    ("policyType", .string p.settings.policyType),
    ("balancingType", .ofNat p.settings.balancingType.toNat),
    ("networkVolume", .ofNat p.settings.networkVolume.toNat),
    ("protocol", .string p.attachment.protocol),
    ("loadBalancerPort", .ofNat p.pair.balancerPort.toNat),
    ("instancePort", .ofNat p.pair.instancePort.toNat), ("healthCheck", p.healthCheck.toJson),
    ("instances", .array (p.backends.map Backend.toJson)), ("filters", .strings p.filters),
    ("availabilityZone", .string p.attachment.availabilityZone), ("vip", .string p.vip),
    ("networkInterfaces", .array (p.attachment.interfaces.map NetworkInterface.toJson))]

def ofJson? : Decoder ElasticPort :=
  .lenientRecord fields do
    let name ← .field "" .text
    let settings : Settings := {
      accountingType := ← .field 0 .word
      policyType := ← .field "" .text
      balancingType := ← .field 0 .word
      networkVolume := ← .field 0 .word }
    let protocol ← .field "" .text
    let pair : PortPair := {
      balancerPort := ← .field 0 .port
      instancePort := ← .field 0 .port }
    let healthCheck ← .field {} HealthCheck.ofJson?
    let backends ← .field [] (.list Backend.ofJson?)
    let filters ← .field [] (.list .text)
    let availabilityZone ← .field "" .text
    let vip ← .field "" .text
    let interfaces ← .field [] (.list NetworkInterface.ofJson?)
    let attachment := { protocol, availabilityZone, interfaces }
    return { name, settings, pair, healthCheck, backends, filters, vip, attachment }

end ElasticPort

namespace Kind

def portToJson : (k : Kind) → k.Port → Json
  | .l4 => L4Port.toJson
  | .elastic => ElasticPort.toJson

def portOfJson? : (k : Kind) → Decoder k.Port
  | .l4 => L4Port.ofJson?
  | .elastic => ElasticPort.ofJson?

end Kind

namespace PortPair

def toJson (pair : PortPair) : Json :=
  .object [("loadBalancerPort", .ofNat pair.balancerPort.toNat),
    ("instancePort", .ofNat pair.instancePort.toNat)]

def ofJson? : Decoder PortPair :=
  .fullRecord ["loadBalancerPort", "instancePort"] do
    return { balancerPort := ← .required .port, instancePort := ← .required .port }

end PortPair

namespace FilterChange

def toJson (change : FilterChange) : Json :=
  .object [("addOnFilter", .bool change.add), ("ipAddress", .string change.address)]

def ofJson? : Decoder FilterChange :=
  .fullRecord ["addOnFilter", "ipAddress"] do
    return { add := ← .required .flag, address := ← .required .text }

end FilterChange

namespace Status

def toJson (status : Status) : Json :=
  .object [("vip", .string status.vip)]

def ofJson? : Decoder Status :=
  .fullRecord ["vip"] do
    return { vip := ← .required .text }

end Status

end CloudBalancer
