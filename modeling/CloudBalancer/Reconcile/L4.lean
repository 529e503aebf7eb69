import CloudBalancer.Reconcile.Step

/-!
Reconciliation of L4 balancers: ports that are missing are registered before stale ones go, then
each port is brought to its desired settings, health check, backends and filter. A balancer that
does not exist is created port by port.
-/

namespace CloudBalancer.Reconcile.L4

def configureNewPort (p : L4Port) : Job Unit := do
  configureHealthCheck (k := .l4) p
  unless p.backends.isEmpty do registerBackends (k := .l4) p p.backends
  setFilter (k := .l4) p []

def create (name : String) : List L4Port → Job Unit
  | [] => return
  | first :: rest => do
    createPort (k := .l4) name first
    configureNewPort first
    Job.forEach rest fun p => do
      registerPort (k := .l4) name p
      configureNewPort p

/-- The ports of the balancer once it has exactly the desired port pairs. -/
def syncPorts (name : String) (desired current : List L4Port) : Job (List L4Port) := do
  let missing := portDifferences desired current
  let stale := portDifferences current desired
  if missing.isEmpty && stale.isEmpty then return current
  Job.forEach missing fun p => do
    registerPort (k := .l4) name p
    configureHealthCheck (k := .l4) p
  Job.forEach stale (deletePort (k := .l4) name)
  describeExisting .l4 name

def syncPort (desired current : L4Port) : Job Unit := do
  updateSettings (k := .l4) desired current
  unless desired.healthCheck = current.healthCheck do configureHealthCheck (k := .l4) desired
  let joining := backendDifferences desired.backends current.backends
  let leaving := backendDifferences current.backends desired.backends
  unless joining.isEmpty do registerBackends (k := .l4) current joining
  unless leaving.isEmpty do deregisterBackends (k := .l4) current leaving
  setFilter (k := .l4) desired current.filters

def converge (name : String) (desired : List L4Port) : Job Status := do
  match ← describe .l4 name with
  | none =>
    create name desired
    Job.ofExcept (statusOf name (← describeExisting .l4 name))
  | some current =>
    let current ← syncPorts name desired current
    Job.forEach current fun p => do
      syncPort (← Job.ofExcept (desiredFor desired p)) p
    Job.ofExcept (statusOf name current)

/-- Brings the balancer `name` to the desired ports and reports its status. -/
def reconcile (name : String) (desired : List L4Port) : Program Status :=
  if desired.isEmpty then .fail (.noPorts name)
  else reporting name (.ofJob (converge name desired))

/-- Deletes a balancer port by port; one that does not exist is as good as deleted. -/
def delete (name : String) : Job Unit := do
  match ← describe .l4 name with
  | none => return
  | some ports => Job.forEach ports (deletePort (k := .l4) name)

end CloudBalancer.Reconcile.L4
