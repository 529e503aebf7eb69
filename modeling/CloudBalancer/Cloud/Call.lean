import CloudBalancer.Balancer.Basic
import CloudBalancer.SecurityGroup.Form

/-!
Remote calls: what can be asked of the cloud, with all that a call sends, the type of its answer,
and the errors that the cloud answers instead, each a code, known or not, and a text. Balancer calls
exist for both kinds; security groups belong to elastic balancers.
-/

namespace CloudBalancer

inductive ErrorCode
  | loadBalancerNotFound
  | elasticLoadBalancerNotFound
  | instanceNotFound
  | ingressNotFound
  | duplicateRule
  | other (code : String)
  deriving DecidableEq, Repr

namespace ErrorCode

/-- The code on the wire. -/
def text : ErrorCode → String
  | .loadBalancerNotFound => "Client.InvalidParameterNotFound.LoadBalancer"
  | .elasticLoadBalancerNotFound => "Client.InvalidParameterNotFound.ElasticLoadBalancer"
  | .instanceNotFound => "Client.InvalidParameterNotFound.Instance"
  | .ingressNotFound => "Client.InvalidParameterNotFound.SecurityGroupIngress"
  | .duplicateRule => "Client.InvalidParameterDuplicate.SecurityGroupRule"
  | .other code => code

def known : List ErrorCode :=
  [.loadBalancerNotFound, .elasticLoadBalancerNotFound, .instanceNotFound, .ingressNotFound,
    .duplicateRule]

def ofText (code : String) : ErrorCode :=
  (known.find? fun c => c.text == code).getD (.other code)

def duplicateLoadBalancer : ErrorCode := .other "Client.InvalidParameterDuplicate.LoadBalancer"

def duplicatePort : ErrorCode := .other "Client.InvalidParameterDuplicate.Port"

end ErrorCode

structure ApiError where
  code : ErrorCode
  text : String
  deriving DecidableEq, Repr

namespace ApiError

def message (e : ApiError) : String :=
  s!"{e.code.text}: {e.text}"

def notFound (code : ErrorCode) (what : String) : ApiError :=
  ⟨code, what ++ " not found"⟩

end ApiError

inductive Call
  | describe (kind : Kind) (name : String)
  /-- Creates a balancer with its first port. -/
  | create (kind : Kind) (port : kind.Port)
  /-- Adds a port to a balancer. -/
  | registerPort (kind : Kind) (port : kind.Port)
  | update (kind : Kind) (port : kind.Port)
  /-- Deletes one port; the balancer goes with its last one. -/
  | deletePort (kind : Kind) (port : kind.Port)
  | configureHealthCheck (kind : Kind) (port : kind.Port)
  | registerBackends (kind : Kind) (port : kind.Port) (backends : List Backend)
  | deregisterBackends (kind : Kind) (port : kind.Port) (backends : List Backend)
  | setFilter (kind : Kind) (port : kind.Port) (changes : List FilterChange)
  | groupsOf (instanceIds : List String)
  | authorize (group : String) (rule : Rule)
  | revoke (group : String) (rule : Rule)
  /-- Waits until the cloud has applied the rule changes of a group. -/
  | awaitApplied (group : String)

/-- A remote operation, without its arguments. -/
inductive Operation
  | describe (kind : Kind)
  | create (kind : Kind)
  | registerPort (kind : Kind)
  | update (kind : Kind)
  | deletePort (kind : Kind)
  | configureHealthCheck (kind : Kind)
  | registerBackends (kind : Kind)
  | deregisterBackends (kind : Kind)
  | setFilter (kind : Kind)
  | groupsOf
  | authorize
  | revoke
  | awaitApplied
  deriving DecidableEq, Repr

namespace Operation

def name : Operation → String
  | .describe .l4 => "DescribeLoadBalancers"
  | .create .l4 => "CreateLoadBalancer"
  | .registerPort .l4 => "RegisterPortWithLoadBalancer"
  | .update .l4 => "UpdateLoadBalancer"
  | .deletePort .l4 => "DeleteLoadBalancer"
  | .configureHealthCheck .l4 => "ConfigureHealthCheck"
  | .registerBackends .l4 => "RegisterInstancesWithLoadBalancer"
  | .deregisterBackends .l4 => "DeregisterInstancesFromLoadBalancer"
  | .setFilter .l4 => "SetFilterForLoadBalancer"
  | .describe .elastic => "DescribeElasticLoadBalancers"
  | .create .elastic => "CreateElasticLoadBalancer"
  | .registerPort .elastic => "RegisterPortWithElasticLoadBalancer"
  | .update .elastic => "UpdateElasticLoadBalancer"
  | .deletePort .elastic => "DeleteElasticLoadBalancer"
  | .configureHealthCheck .elastic => "ConfigureElasticHealthCheck"
  | .registerBackends .elastic => "RegisterInstancesWithElasticLoadBalancer"
  | .deregisterBackends .elastic => "DeregisterInstancesFromElasticLoadBalancer"
  | .setFilter .elastic => "SetFilterForElasticLoadBalancer"
  | .groupsOf => "DescribeSecurityGroupsByInstanceIds"
  | .authorize => "AuthorizeSecurityGroupIngress"
  | .revoke => "RevokeSecurityGroupIngress"
  | .awaitApplied => "WaitSecurityGroupApplied"

def ofKind (k : Kind) : List Operation :=
  [.describe k, .create k, .registerPort k, .update k, .deletePort k, .configureHealthCheck k,
    .registerBackends k, .deregisterBackends k, .setFilter k]

def all : List Operation :=
  ofKind .l4 ++ ofKind .elastic ++ [.groupsOf, .authorize, .revoke, .awaitApplied]

def ofName? (name : String) : Option Operation :=
  all.find? fun op => op.name == name

end Operation

namespace Call

def operation : Call → Operation
  | .describe k _ => .describe k
  | .create k _ => .create k
  | .registerPort k _ => .registerPort k
  | .update k _ => .update k
  | .deletePort k _ => .deletePort k
  | .configureHealthCheck k _ => .configureHealthCheck k
  | .registerBackends k _ _ => .registerBackends k
  | .deregisterBackends k _ _ => .deregisterBackends k
  | .setFilter k _ _ => .setFilter k
  | .groupsOf _ => .groupsOf
  | .authorize _ _ => .authorize
  | .revoke _ _ => .revoke
  | .awaitApplied _ => .awaitApplied

/-- What the cloud answers to a call that succeeds. -/
@[reducible] def Answer : Call → Type
  | .describe k _ => List k.Port
  | .create _ _ => String
  | .groupsOf _ => List String
  | _ => Unit

def isMutating : Call → Bool
  | .describe _ _ | .groupsOf _ | .awaitApplied _ => false
  | _ => true

end Call

/-- The code for a balancer or port that does not exist. -/
def Kind.notFound : Kind → ErrorCode
  | .l4 => .loadBalancerNotFound
  | .elastic => .elasticLoadBalancerNotFound

/-- What became of a call. -/
inductive Outcome (α : Type)
  | answered (value : α)
  | refused (error : ApiError)
  | timedOut

def Outcome.ofExcept {α : Type} : Except ApiError α → Outcome α
  | .ok value => .answered value
  | .error e => .refused e

end CloudBalancer
