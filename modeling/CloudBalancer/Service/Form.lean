import CloudBalancer.Json.Record
import CloudBalancer.NameMap

/-!
Services as their orchestrator describes them, and their JSON forms.
-/

namespace CloudBalancer

structure ServicePort where
  name : String := ""
  protocol : String := ""
  port : UInt16 := 0
  /-- The port that every backend opens for it, once assigned. -/
  nodePort : Option UInt16 := none
  deriving DecidableEq, Repr

structure Service where
  uid : String := ""
  namespaceName : String := ""
  name : String := ""
  ports : List ServicePort := []
  annotations : NameMap String := ∅
  sourceRanges : List String := []
  deriving DecidableEq

/-- The balancer of the service with this id: its first fifteen characters that are no dash. -/
def balancerName (uid : String) : String :=
  String.ofList ((uid.toList.filter (· ≠ '-')).take 15)

def Service.balancerName (service : Service) : String :=
  CloudBalancer.balancerName service.uid

open Json

namespace ServicePort

def toJson (p : ServicePort) : Json :=
  .object [("name", .string p.name), ("protocol", .string p.protocol),
    ("port", .ofNat p.port.toNat), ("nodePort", .ofOption (.ofNat ·.toNat) p.nodePort)]

def ofJson? : Decoder ServicePort :=
  .lenientRecord ["name", "protocol", "port", "nodePort"] do
    return {
      name := ← .field "" .text
      protocol := ← .field "" .text
      port := ← .field 0 .port
      nodePort := ← .optional .port }

end ServicePort

namespace Service

def fields : List String :=
  ["uid", "namespace", "name", "ports", "annotations", "loadBalancerSourceRanges"]

def toJson (s : Service) : Json :=
  .object [("uid", .string s.uid), ("namespace", .string s.namespaceName),
    ("name", .string s.name), ("ports", .array (s.ports.map ServicePort.toJson)),
    ("annotations", .ofNameMap .string s.annotations),
    ("loadBalancerSourceRanges", .strings s.sourceRanges)]

def ofJson? : Decoder Service :=
  .lenientRecord fields do
    return {
      uid := ← .field "" .text
      namespaceName := ← .field "" .text
      name := ← .field "" .text
      ports := ← .field [] (.list ServicePort.ofJson?)
      annotations := ← .field ∅ (.nameMap .text)
      sourceRanges := ← .field [] (.list .text) }

end Service

end CloudBalancer
