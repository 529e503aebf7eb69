import CloudBalancer.Cloud.Call
import CloudBalancer.Cloud.Table
import CloudBalancer.Network.Grammar

/-!
What a cloud holds, and what each call does to it. A call either succeeds, with an answer and a
new inventory, or is an error that changes nothing. New balancers get the next address of the VIP
pool, and interfaces without an address one of their own pool.

A cloud in memory: an inventory, the calls received so far, and failures that are to happen. A
failure waits for the next call of its operation, which then does nothing else.
-/

namespace CloudBalancer

structure Inventory where
  l4 : Table Unit := ∅
  elastic : Table Attachment := ∅
  groups : NameMap SecurityGroup := ∅
  /-- How far into its pool the last VIP is. -/
  lastVip : Nat := 0
  lastAddress : Nat := 0
  deriving DecidableEq

/-- What a cloud holds as it is written down: without the positions in the address pools. -/
structure Snapshot where
  l4 : List L4Port := []
  elastic : List ElasticPort := []
  groups : NameMap SecurityGroup := ∅
  deriving DecidableEq

def Kind.label : Kind → String
  | .l4 => "load balancer"
  | .elastic => "elastic load balancer"

namespace Inventory

def vipPool : Network.Ipv4 := .ofOctets 203 0 113 0

def addressPool : Network.Ipv4 := .ofOctets 10 1 0 0

/-- Offsets beyond this do not count when a pool is resumed. -/
def poolSpan : Nat := 0xFFFF

def vipAt (offset : Nat) : String := (vipPool.advance offset).text

def addressAt (offset : Nat) : String := (addressPool.advance offset).text

def offsetIn? (pool : Network.Ipv4) (text : String) : Option Nat := do
  let address ← Network.Ipv4.parse? text
  if address.value < pool.value then none
  else
    let offset := address.value.val - pool.value.val
    if offset ≤ poolSpan then some offset else none

/-- The highest position in the pool of any of the addresses. -/
def highestOffset (pool : Network.Ipv4) (texts : List String) : Nat :=
  (texts.filterMap (offsetIn? pool)).foldl max 0

def table (inv : Inventory) : (k : Kind) → Table k.Attachment
  | .l4 => inv.l4
  | .elastic => inv.elastic

def withTable (inv : Inventory) : (k : Kind) → Table k.Attachment → Inventory
  | .l4, t => { inv with l4 := t }
  | .elastic, t => { inv with elastic := t }

/-- Addresses for the interfaces that have none, and the last position used for them. -/
def fillInterfaces (vip : String) : Nat → List NetworkInterface → List NetworkInterface × Nat
  | last, [] => ([], last)
  | last, interface :: rest =>
    if interface.ipAddress.getD "" ≠ "" then
      let (filled, last) := fillInterfaces vip last rest
      (interface :: filled, last)
    else if interface.isVipNetwork then
      let (filled, last) := fillInterfaces vip last rest
      ({ interface with ipAddress := some vip } :: filled, last)
    else
      let (filled, used) := fillInterfaces vip (last + 1) rest
      ({ interface with ipAddress := some (addressAt (last + 1)) } :: filled, used)

/-- The attachment of the first port of a new balancer. -/
def attach (vip : String) (last : Nat) : (k : Kind) → k.Attachment → k.Attachment × Nat
  | .l4, () => ((), last)
  | .elastic, a =>
    let (interfaces, last) := fillInterfaces vip last a.interfaces
    ({ a with interfaces }, last)

/-- The attachment of a further port, which shares the interfaces of the first. -/
def attachLike : (k : Kind) → Option k.Port → k.Attachment → k.Attachment
  | .l4, _, () => ()
  | .elastic, first, a =>
    { a with interfaces := (first.map fun p => p.attachment.interfaces).getD [] }

def create (inv : Inventory) (k : Kind) (port : k.Port) : Except ApiError (String × Inventory) :=
  if (inv.table k).contains port.name then
    .error ⟨.duplicateLoadBalancer, s!"{k.label} {port.name} already exists"⟩
  else do
    let vip := vipAt (inv.lastVip + 1)
    let (attachment, lastAddress) := attach vip inv.lastAddress k port.attachment
    let t ← (inv.table k).add { port with attachment } vip
    return (vip, { inv.withTable k t with lastVip := inv.lastVip + 1, lastAddress })

def registerPort (inv : Inventory) (k : Kind) (port : k.Port) : Except ApiError Inventory := do
  let ports ← (inv.table k).ports k.notFound port.name
  let vip := (ports.head?.map Port.vip).getD ""
  let attachment := attachLike k ports.head? port.attachment
  return inv.withTable k (← (inv.table k).add { port with attachment } vip)

def modifyPort (inv : Inventory) (k : Kind) (port : k.Port)
    (f : k.Port → Except ApiError k.Port) : Except ApiError Inventory := do
  return inv.withTable k (← (inv.table k).modify k.notFound port f)

/-- The groups with one of the instances as a member, in the order of their names. -/
def groupsOf (inv : Inventory) (instanceIds : List String) : List String :=
  (inv.groups.entries.filter fun e => e.2.instanceIds.any instanceIds.contains).map Prod.fst

def authorize (inv : Inventory) (name : String) (rule : Rule) : Except ApiError Inventory :=
  let group := (inv.groups.get? name).getD {}
  if group.rules.contains rule then
    .error ⟨.duplicateRule, s!"security group {name} already has rule {rule.text}"⟩
  else
    .ok { inv with groups := inv.groups.insert name { group with rules := group.rules ++ [rule] } }

def revoke (inv : Inventory) (name : String) (rule : Rule) : Except ApiError Inventory :=
  let missing := .notFound .ingressNotFound s!"rule {rule.text} of security group {name}"
  match inv.groups.get? name with
  | none => .error missing
  | some group =>
    let left := group.rules.filter (· != rule)
    if left.length = group.rules.length then .error missing
    else .ok { inv with groups := inv.groups.insert name { group with rules := left } }

/-- What a call answers and does. -/
def apply (inv : Inventory) : (c : Call) → Except ApiError (c.Answer × Inventory)
  | .describe k name =>
    match (inv.table k).get? name with
    | some ports => .ok (ports, inv)
    | none => .error (.notFound k.notFound s!"{k.label} {name}")
  | .create k port => inv.create k port
  | .registerPort k port => (inv.registerPort k port).map ((), ·)
  | .update k port =>
    (inv.modifyPort k port fun p => .ok { p with settings := port.settings }).map ((), ·)
  | .deletePort k port =>
    ((inv.table k).remove k.notFound port).map fun t => ((), inv.withTable k t)
  | .configureHealthCheck k port =>
    (inv.modifyPort k port fun p => .ok { p with healthCheck := port.healthCheck }).map ((), ·)
  | .registerBackends k port backends =>
    (inv.modifyPort k port fun p =>
      .ok { p with backends := addBackends p.backends backends }).map ((), ·)
  | .deregisterBackends k port backends =>
    (inv.modifyPort k port fun p =>
      (removeBackends p.backends backends).map fun left => { p with backends := left }).map ((), ·)
  | .setFilter k port changes =>
    (inv.modifyPort k port fun p =>
      .ok { p with filters := applyChanges p.filters changes }).map ((), ·)
  | .groupsOf instanceIds => .ok (inv.groupsOf instanceIds, inv)
  | .authorize group rule => (inv.authorize group rule).map ((), ·)
  | .revoke group rule => (inv.revoke group rule).map ((), ·)
  | .awaitApplied _ => .ok ((), inv)

/-- Makes the instances members of a group, which is created if it is new. -/
def addToGroup (inv : Inventory) (name : String) (instanceIds : List String) : Inventory :=
  { inv with
    groups := inv.groups.alter name fun group =>
      let group := group.getD {}
      { group with
        instanceIds := instanceIds.foldl
          (fun ids id => if ids.contains id then ids else ids ++ [id]) group.instanceIds } }

def rulesOf (inv : Inventory) (group : String) : List Rule :=
  ((inv.groups.get? group).map SecurityGroup.rules).getD []

def snapshot (inv : Inventory) : Snapshot :=
  ⟨inv.l4.allPorts, inv.elastic.allPorts, inv.groups⟩

/-- The inventory written down as `s`; the pools go on after the highest addresses in use. -/
def ofSnapshot (s : Snapshot) : Inventory where
  l4 := .ofPorts s.l4
  elastic := .ofPorts s.elastic
  groups := s.groups
  lastVip := highestOffset vipPool (s.l4.map Port.vip ++ s.elastic.map Port.vip)
  lastAddress := highestOffset addressPool
    ((s.elastic.flatMap fun p => p.attachment.interfaces).filterMap NetworkInterface.ipAddress)

end Inventory

structure Cloud where
  inventory : Inventory := {}
  calls : List Call := []
  /-- At most one for each operation. -/
  failures : List (Operation × ApiError) := []

namespace Cloud

def ofSnapshot (s : Snapshot) : Cloud := { inventory := .ofSnapshot s }

def snapshot (cloud : Cloud) : Snapshot := cloud.inventory.snapshot

/-- Makes the next call of an operation fail, in place of a failure that still waits for it. -/
def failOn (cloud : Cloud) (op : Operation) (e : ApiError) : Cloud :=
  { cloud with failures := (op, e) :: cloud.failures.filter (·.1 ≠ op) }

def perform (cloud : Cloud) (c : Call) : Except ApiError c.Answer × Cloud :=
  let cloud := { cloud with calls := cloud.calls ++ [c] }
  match cloud.failures.lookup c.operation with
  | some e => (.error e, { cloud with failures := cloud.failures.filter (·.1 ≠ c.operation) })
  | none =>
    match cloud.inventory.apply c with
    | .ok (answer, inventory) => (.ok answer, { cloud with inventory })
    | .error e => (.error e, cloud)

end Cloud

end CloudBalancer
