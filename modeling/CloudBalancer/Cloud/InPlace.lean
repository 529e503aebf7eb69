import CloudBalancer.Cloud.Inventory

/-!
The calls of the cloud in single writes to the cloud itself. A balancer's entry is made, addresses
are taken and ports and rules are left out before it is certain that the call succeeds, and a call
that is refused leaves all that it has written by then. Writes between which nothing is decided
are one write.
-/

namespace CloudBalancer

/-- Steps on a cloud. What they have written stays when one of them fails. -/
abbrev InPlace : Type → Type :=
  EStateM ApiError Cloud

namespace InPlace

variable {k : Kind}

/-- Logs a call and uses up the failure that waits for it. -/
def enter (c : Call) : InPlace Unit := do
  modify fun cloud => { cloud with calls := cloud.calls ++ [c] }
  let waiting := (← get).failures.lookup c.operation
  modify fun cloud => { cloud with failures := cloud.failures.filter (·.1 ≠ c.operation) }
  match waiting with
  | some e => throw e
  | none => return ()

def inventory : InPlace Inventory :=
  return (← get).inventory

def write (f : Inventory → Inventory) : InPlace Unit :=
  modify fun cloud => { cloud with inventory := f cloud.inventory }

def takeVip : InPlace String := do
  write fun inv => { inv with lastVip := inv.lastVip + 1 }
  return Inventory.vipAt (← inventory).lastVip

def takeAddress : InPlace String := do
  write fun inv => { inv with lastAddress := inv.lastAddress + 1 }
  return Inventory.addressAt (← inventory).lastAddress

/-- Gives an interface an address if it has none. -/
def fillInterface (vip : String) (interface : NetworkInterface) : InPlace NetworkInterface := do
  if interface.ipAddress.getD "" ≠ "" then
    return interface
  else if interface.isVipNetwork then
    return { interface with ipAddress := some vip }
  else
    return { interface with ipAddress := some (← takeAddress) }

def attach (vip : String) : (k : Kind) → k.Attachment → InPlace k.Attachment
  | .l4, () => return ()
  | .elastic, a => return { a with interfaces := ← a.interfaces.mapM (fillInterface vip) }

def portsOf (k : Kind) (name : String) : InPlace (List k.Port) := do
  ofExcept (((← inventory).table k).ports k.notFound name)

def writePorts (k : Kind) (name : String) (ports : List k.Port) : InPlace Unit :=
  write fun inv => inv.withTable k ((inv.table k).insert name ports)

/-- Adds a port with nothing configured yet to the entry of its name, which is made if it is new
and before the port is looked for. -/
def insertPort (k : Kind) (port : k.Port) (vip : String) : InPlace Unit := do
  let ports := (((← inventory).table k).get? port.name).getD []
  writePorts k port.name ports
  if ports.any (·.same port) then
    throw ⟨.duplicatePort, s!"port {port.pair.text} already exists on {port.name}"⟩
  else
    let fresh := { port with vip, healthCheck := {}, backends := [], filters := [] }
    writePorts k port.name (ports ++ [fresh])

def create (k : Kind) (port : k.Port) : InPlace String := do
  if ((← inventory).table k).contains port.name then
    throw ⟨.duplicateLoadBalancer, s!"{k.label} {port.name} already exists"⟩
  else
    let vip ← takeVip
    let attachment ← attach vip k port.attachment
    insertPort k { port with attachment } vip
    return vip

def registerPort (k : Kind) (port : k.Port) : InPlace Unit := do
  let ports ← portsOf k port.name
  let vip := (ports.head?.map Port.vip).getD ""
  let attachment := Inventory.attachLike k ports.head? port.attachment
  insertPort k { port with attachment } vip

def portOf (k : Kind) (port : k.Port) : InPlace k.Port := do
  match (← portsOf k port.name).find? (·.same port) with
  | some current => return current
  | none => throw (Table.missingPort k.notFound port)

/-- Writes over the port that `port` means. -/
def writePort (k : Kind) (port new : k.Port) : InPlace Unit :=
  write fun inv => inv.withTable k
    ((inv.table k).alter port.name fun ports => replaceFirst (·.same port) new (ports.getD []))

/-- Leaves the port out before it is known whether there was one. -/
def deletePort (k : Kind) (port : k.Port) : InPlace Unit := do
  let ports ← portsOf k port.name
  let left := ports.filter (!·.same port)
  writePorts k port.name left
  if left.length = ports.length then
    throw (Table.missingPort k.notFound port)
  else if left.isEmpty then
    write fun inv => inv.withTable k ((inv.table k).erase port.name)

def deregisterBackends (k : Kind) (port : k.Port) (backends : List Backend) : InPlace Unit := do
  let current ← portOf k port
  match backends.find? fun b => !current.backends.any (·.same b) with
  | some unknown => throw (.notFound .instanceNotFound s!"instance {unknown.instanceId}")
  | none =>
    let left := current.backends.filter fun b => !backends.any (·.same b)
    writePort k port { current with backends := left }

def writeGroup (name : String) (group : SecurityGroup) : InPlace Unit :=
  write fun inv => { inv with groups := inv.groups.insert name group }

/-- Makes the group if it is new, before its rules are looked at. -/
def authorize (name : String) (rule : Rule) : InPlace Unit := do
  let group := ((← inventory).groups.get? name).getD {}
  writeGroup name group
  if group.rules.contains rule then
    throw ⟨.duplicateRule, s!"security group {name} already has rule {rule.text}"⟩
  else
    writeGroup name { group with rules := group.rules ++ [rule] }

/-- Leaves the rule out before it is known whether there was one. -/
def revoke (name : String) (rule : Rule) : InPlace Unit := do
  let missing := .notFound .ingressNotFound s!"rule {rule.text} of security group {name}"
  match (← inventory).groups.get? name with
  | none => throw missing
  | some group =>
    let left := group.rules.filter (· != rule)
    writeGroup name { group with rules := left }
    if left.length = group.rules.length then
      throw missing

/-- What a call does once it has been let in. -/
def carryOut : (c : Call) → InPlace c.Answer
  | .describe k name => do
    match ((← inventory).table k).get? name with
    | some ports => return ports
    | none => throw (.notFound k.notFound s!"{k.label} {name}")
  | .create k port => create k port
  | .registerPort k port => registerPort k port
  | .update k port => do
    let current ← portOf k port
    writePort k port { current with settings := port.settings }
  | .deletePort k port => deletePort k port
  | .configureHealthCheck k port => do
    let current ← portOf k port
    writePort k port { current with healthCheck := port.healthCheck }
  | .registerBackends k port backends => do
    let current ← portOf k port
    writePort k port { current with backends := addBackends current.backends backends }
  | .deregisterBackends k port backends => deregisterBackends k port backends
  | .setFilter k port changes => do
    let current ← portOf k port
    writePort k port { current with filters := applyChanges current.filters changes }
  | .groupsOf instanceIds => return (← inventory).groupsOf instanceIds
  | .authorize group rule => authorize group rule
  | .revoke group rule => revoke group rule
  | .awaitApplied _ => return ()

/-- A call, from its entry in the log to its answer. -/
def call (c : Call) : InPlace c.Answer := do
  enter c
  carryOut c

end InPlace

end CloudBalancer
