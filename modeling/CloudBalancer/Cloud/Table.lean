import CloudBalancer.Cloud.Call
import CloudBalancer.NameMap

/-!
The balancers of one kind in the cloud: for each name the ports, in the order of their creation.
Nothing here depends on the kind but `missing`, the code for what does not exist.
-/

namespace CloudBalancer

/-- The list with its first item that satisfies `p` replaced. -/
def replaceFirst {α : Type} (p : α → Bool) (new : α) : List α → List α
  | [] => []
  | item :: rest => if p item then new :: rest else item :: replaceFirst p new rest

/-- Registers what is new of `backends` after what is there. -/
def addBackends (current backends : List Backend) : List Backend :=
  backends.foldl (fun bs b => if bs.any (·.same b) then bs else bs ++ [b]) current

/-- All of `backends` have to be there. -/
def removeBackends (current backends : List Backend) : Except ApiError (List Backend) :=
  match backends.find? fun b => !current.any (·.same b) with
  | some unknown => .error (.notFound .instanceNotFound s!"instance {unknown.instanceId}")
  | none => .ok (current.filter fun b => !backends.any (·.same b))

def applyChange (filters : List String) (change : FilterChange) : List String :=
  if change.add then
    if filters.contains change.address then filters else filters ++ [change.address]
  else filters.filter (· != change.address)

def applyChanges (filters : List String) (changes : List FilterChange) : List String :=
  changes.foldl applyChange filters

abbrev Table (α : Type) : Type := NameMap (List (Port α))

namespace Table

variable {α : Type}

def ports (t : Table α) (missing : ErrorCode) (name : String) :
    Except ApiError (List (Port α)) :=
  match t.get? name with
  | some ports => .ok ports
  | none => .error (.notFound missing s!"load balancer {name}")

def missingPort (missing : ErrorCode) (port : Port α) : ApiError :=
  .notFound missing s!"port {port.pair.text} of load balancer {port.name}"

/-- Adds `port` under its name with nothing configured yet. -/
def add (t : Table α) (port : Port α) (vip : String) : Except ApiError (Table α) :=
  let ports := (t.get? port.name).getD []
  if ports.any (·.same port) then
    .error ⟨.duplicatePort, s!"port {port.pair.text} already exists on {port.name}"⟩
  else
    let fresh := { port with vip, healthCheck := {}, backends := [], filters := [] }
    .ok (t.insert port.name (ports ++ [fresh]))

def modify (t : Table α) (missing : ErrorCode) (port : Port α)
    (f : Port α → Except ApiError (Port α)) : Except ApiError (Table α) := do
  let ports ← t.ports missing port.name
  match ports.find? (·.same port) with
  | none => .error (missingPort missing port)
  | some current => return t.insert port.name (replaceFirst (·.same port) (← f current) ports)

/-- Removes `port`, and with the last port the balancer. -/
def remove (t : Table α) (missing : ErrorCode) (port : Port α) : Except ApiError (Table α) := do
  let ports ← t.ports missing port.name
  let left := ports.filter (!·.same port)
  if left.length = ports.length then .error (missingPort missing port)
  else if left.isEmpty then return t.erase port.name
  else return t.insert port.name left

/-- All ports, the balancers in the order of their names. -/
def allPorts (t : Table α) : List (Port α) :=
  t.values.flatten

/-- Ports sorted into balancers by their names. -/
def ofPorts (ports : List (Port α)) : Table α :=
  ports.foldl (fun t port => t.alter port.name fun same => same.getD [] ++ [port]) ∅

end Table

end CloudBalancer
