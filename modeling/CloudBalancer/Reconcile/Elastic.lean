import CloudBalancer.Reconcile.Ingress
import CloudBalancer.Reconcile.Step

/-!
Reconciliation of elastic balancers: that of L4 balancers and the upkeep of security groups. Rules
are granted wherever backends join or a health check changes, and withdrawn wherever they are no
longer needed. A new balancer gets all its ports before any of them is configured, because rules
derive from what the cloud assigns.
-/

namespace CloudBalancer.Reconcile.Elastic

/-- Registers backends and opens their groups to the balancer. -/
def registerTargets (view : ElasticPort) (backends : List Backend) : Job Unit := do
  registerBackends (k := .elastic) view backends
  let rules ← Job.ofExcept (deriveRules view)
  let groups ← groupsOf (.ofPort view) backends
  authorize (.ofPort view) groups rules

/-- Deregisters backends that may be gone already. -/
def deregisterLeaving (view : ElasticPort) (backends : List Backend) : Job Unit := do
  match ← Job.remoteUnless .instanceNotFound .api (.ofPort view)
      (.deregisterBackends .elastic view backends) with
  | some () => .log (.backendsDeregistered view.name view.pair (instanceIds backends))
  | none => return

/-- Deregisters backends and withdraws the rules of the port from the groups that protect none of
the `remaining` ones. -/
def deregisterTargets (view : ElasticPort) (backends remaining : List Backend)
    (retained : List Grant) : Job Unit := do
  deregisterLeaving view backends
  let rules ← Job.ofExcept (grantedRules view)
  match ← groupsOfLeaving (.ofPort view) backends with
  | none => return
  | some groups =>
    let used ← groupsOf (.ofPort view) remaining
    revoke (.ofPort view) (differences (· == ·) groups used) rules retained

/-- Replaces the rules of `current` by those of `view` on the groups of the registered backends,
granting before withdrawing. -/
def refreshRules (current view : ElasticPort) (retained : List Grant) : Job Unit := do
  let old ← Job.ofExcept (grantedRules current)
  let new ← Job.ofExcept (deriveRules view)
  let stale := differences (· == ·) old new
  let fresh := differences (· == ·) new old
  if stale.isEmpty && fresh.isEmpty then return
  let groups ← groupsOf (.ofPort view) current.backends
  authorize (.ofPort view) groups fresh
  revoke (.ofPort view) groups stale retained

/-- Health check, backends and filter of a new port, side by side. -/
def configureNewPort (name : String) (desired current : ElasticPort) : Program Unit :=
  Program.group (.sideEffect (.port name current.pair))
    [configureHealthCheck (k := .elastic) desired,
      if desired.backends.isEmpty then return
      else registerTargets (ruleView desired current) desired.backends,
      setFilter (k := .elastic) desired []]

/-- Creates the balancer with all its ports, nothing configured yet. -/
def createPorts (name : String) : List ElasticPort → Job Unit
  | [] => return
  | first :: rest => do
    createPort (k := .elastic) name first
    Job.forEach rest (registerPort (k := .elastic) name)

def create (name : String) (desired : List ElasticPort) : Program (List ElasticPort) := do
  createPorts name desired
  let current ← describeExisting .elastic name
  Program.forEach current fun p => do
    configureNewPort name (← Program.ofExcept (desiredFor desired p)) p
  return current

/-- Deletes a port that is no longer desired, its backends and grants first. -/
def deleteStale (name : String) (desired : List ElasticPort) (p : ElasticPort) : Job Unit := do
  unless p.backends.isEmpty do
    let retained ← retainedGrants desired p p
    deregisterTargets p p.backends [] retained
  deletePort (k := .elastic) name p

/-- The ports of the balancer once it has exactly the desired port pairs. -/
def syncPorts (name : String) (desired current : List ElasticPort) :
    Job (List ElasticPort) := do
  let missing := portDifferences desired current
  let stale := portDifferences current desired
  if missing.isEmpty && stale.isEmpty then return current
  Job.forEach missing fun p => do
    registerPort (k := .elastic) name p
    configureHealthCheck (k := .elastic) p
  Job.forEach stale (deleteStale name desired)
  describeExisting .elastic name

/-- Brings one port to what is desired of it; `all` are the desired ports of its balancer. -/
def syncPort (all : List ElasticPort) (desired current : ElasticPort) : Job Unit := do
  updateSettings (k := .elastic) desired current
  let view := ruleView desired current
  let checkChanged : Bool := desired.healthCheck ≠ current.healthCheck
  let joining := backendDifferences desired.backends current.backends
  let leaving := backendDifferences current.backends desired.backends
  let retained ←
    if (checkChanged && !current.backends.isEmpty) || !leaving.isEmpty then
      retainedGrants all current desired
    else pure []
  if checkChanged then
    configureHealthCheck (k := .elastic) desired
    unless current.backends.isEmpty do refreshRules current view retained
  unless joining.isEmpty do registerTargets view joining
  unless leaving.isEmpty do deregisterTargets view leaving desired.backends retained
  setFilter (k := .elastic) desired current.filters

def converge (name : String) (desired : List ElasticPort) : Program Status := do
  match ← describe .elastic name with
  | none => Program.ofExcept (statusOf name (← create name desired))
  | some current =>
    let current ← syncPorts name desired current
    Job.forEach current fun p => do
      syncPort desired (← Job.ofExcept (desiredFor desired p)) p
    Program.ofExcept (statusOf name current)

/-- Brings the balancer `name` to the desired ports and reports its status. -/
def reconcile (name : String) (desired : List ElasticPort) : Program Status :=
  if desired.isEmpty then .fail (.noPorts name)
  else reporting name (converge name desired)

/-- Deletes a balancer port by port, with the grants of each; one that does not exist is as good
as deleted. -/
def delete (name : String) : Job Unit := do
  match ← describe .elastic name with
  | none => return
  | some ports => Job.forEach ports fun p => do
    unless p.backends.isEmpty do deregisterTargets p p.backends [] []
    deletePort (k := .elastic) name p

end CloudBalancer.Reconcile.Elastic
