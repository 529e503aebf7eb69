import CloudBalancer.Balancer.Form
import CloudBalancer.Cloud.Inventory
import CloudBalancer.SecurityGroup.Form

/-!
JSON forms of snapshots, and of calls as they are logged: the operation, and of the port sent with
it only what tells it apart and what the call is about.
-/

namespace CloudBalancer

open Json

namespace Snapshot

def toJson (s : Snapshot) : Json :=
  .object [("loadBalancers", .array (s.l4.map L4Port.toJson)),
    ("elasticLoadBalancers", .array (s.elastic.map ElasticPort.toJson)),
    ("securityGroups", .ofNameMap SecurityGroup.toJson s.groups)]

def ofJson? : Decoder Snapshot :=
  .lenientRecord ["loadBalancers", "elasticLoadBalancers", "securityGroups"] do
    return {
      l4 := ← .field [] (.list L4Port.ofJson?)
      elastic := ← .field [] (.list ElasticPort.ofJson?)
      groups := ← .field ∅ (.nameMap SecurityGroup.ofJson?) }

end Snapshot

namespace Call

/-- The members that name a port. -/
def portMembers {α : Type} (p : Port α) : List (String × Json) :=
  [("name", .string p.name), ("ports", p.pair.toJson)]

def members : Call → List (String × Json)
  | .describe _ name => [("name", .string name)]
  | .create _ p | .registerPort _ p | .update _ p | .deletePort _ p => portMembers p
  | .configureHealthCheck _ p => portMembers p ++ [("target", .string p.healthCheck.target)]
  | .registerBackends _ p backends | .deregisterBackends _ p backends =>
    portMembers p ++ [("instanceIds", .strings (instanceIds backends))]
  | .setFilter _ p changes =>
    portMembers p ++ [("filters", .array (changes.map FilterChange.toJson))]
  | .groupsOf ids => [("instanceIds", .strings ids)]
  | .authorize group rule | .revoke group rule =>
    [("group", .string group), ("rule", rule.toJson)]
  | .awaitApplied group => [("group", .string group)]

def toJson (c : Call) : Json :=
  .object (("operation", .string c.operation.name) :: c.members)

end Call

end CloudBalancer
