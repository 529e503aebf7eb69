import CloudBalancer.Balancer.Basic
import CloudBalancer.Engine.Program
import CloudBalancer.SecurityGroup.Derivation

/-!
Keeping security groups open to elastic balancers: looking up the groups of backends, and granting
and withdrawing rules on them. Every group whose rules were touched is waited for.
-/

namespace CloudBalancer.Reconcile

/-- The groups of the backends, each once; no call is made for no backends. -/
def groupsOf (target : Target) (backends : List Backend) : Job (List String) := do
  if backends.isEmpty then return []
  return (← Job.remote .api target (.groupsOf (instanceIds backends))).eraseDups

/-- As `groupsOf`, for backends that may be gone, in which case there is no answer. -/
def groupsOfLeaving (target : Target) (backends : List Backend) :
    Job (Option (List String)) := do
  if backends.isEmpty then return some []
  let groups ← Job.remoteUnless .instanceNotFound .api target (.groupsOf (instanceIds backends))
  return groups.map List.eraseDups

def awaitApplied (target : Target) (group : String) : Job Unit :=
  Job.remote .securityGroupApply target (.awaitApplied group)

/-- A rule that is already there is not granted again. -/
def grant (target : Target) (group : String) (rule : Rule) : Job Unit := do
  match ← Job.remoteUnless .duplicateRule .api target (.authorize group rule) with
  | some () => .log (.ingressAuthorized group rule)
  | none => return

/-- A rule that is not there need not be withdrawn. -/
def withdraw (target : Target) (group : String) (rule : Rule) : Job Unit := do
  match ← Job.remoteUnless .ingressNotFound .api target (.revoke group rule) with
  | some () => .log (.ingressRevoked group rule)
  | none => return

/-- Grants all rules on all groups. -/
def authorize (target : Target) (groups : List String) (rules : List Rule) : Job Unit :=
  if rules.isEmpty then return
  else Job.forEach groups fun group => do
    Job.forEach rules (grant target group)
    awaitApplied target group

/-- Withdraws all rules from all groups, the grants in `retained` excepted. -/
def revoke (target : Target) (groups : List String) (rules : List Rule)
    (retained : List Grant) : Job Unit :=
  Job.forEach groups fun group => do
    let rules := rules.filter fun rule => !retained.contains (group, rule)
    if rules.isEmpty then return
    Job.forEach rules (withdraw target group)
    awaitApplied target group

/-- What rules are derived from: topology as described, protocol and health check as desired. -/
def ruleView (desired current : ElasticPort) : ElasticPort :=
  { current with
    healthCheck := desired.healthCheck
    attachment := { current.attachment with protocol := desired.attachment.protocol } }

/-- The desired port `p` wired in like `topology`. -/
def placed (p topology : ElasticPort) : ElasticPort :=
  { topology with
    name := p.name
    pair := p.pair
    healthCheck := p.healthCheck
    attachment := { topology.attachment with protocol := p.attachment.protocol } }

/-- The grants that `ports` need, wired in like `topology`, on the groups of their backends. -/
def grantsOf (target : Target) (topology : ElasticPort) : List ElasticPort → Job (List Grant)
  | [] => return []
  | p :: rest => do
    let rules ← Job.ofExcept (deriveRules (placed p topology))
    let groups ← groupsOf target p.backends
    let more ← grantsOf target topology rest
    return groups.flatMap (fun group => rules.map (group, ·)) ++ more

/-- The grants that stay needed whatever becomes of the port `except`: those of the other desired
ports that have backends. Rules without a port are shared by all ports of a balancer. -/
def retainedGrants (desired : List ElasticPort) (topology except : ElasticPort) :
    Job (List Grant) :=
  grantsOf (.ofPort except) topology
    (desired.filter fun p => !p.same except && !p.backends.isEmpty)

end CloudBalancer.Reconcile
