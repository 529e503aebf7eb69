import CloudBalancer.Engine.Program

/-!
The steps that reconciliations of both kinds are made of. A step makes at most one call, and a
change that the cloud accepted is recorded right after it, that of the settings apart.
-/

namespace CloudBalancer.Reconcile

variable {k : Kind}

/-- The ports of a balancer, if it exists. -/
def describe (k : Kind) (name : String) : Job (Option (List k.Port)) := do
  match ← Job.remoteUnless k.notFound .api (.balancer name) (.describe k name) with
  | none | some [] => return none
  | some ports => return some ports

/-- The ports of a balancer that has to exist. -/
def describeExisting (k : Kind) (name : String) : Job (List k.Port) := do
  match ← describe k name with
  | some ports => return ports
  | none => .fail (.vanished name)

/-- Creates the balancer `name` with its first port. -/
def createPort (name : String) (p : k.Port) : Job Unit := do
  let vip ← Job.remote .api (.port name p.pair) (.create k p)
  .log (.portCreated name p.pair vip)

def registerPort (name : String) (p : k.Port) : Job Unit := do
  Job.remote .api (.port name p.pair) (.registerPort k p)
  .log (.portRegistered name p.pair)

def deletePort (name : String) (p : k.Port) : Job Unit := do
  Job.remote .api (.port name p.pair) (.deletePort k p)
  .log (.portDeleted name p.pair)

/-- Brings the settings of `current` to those of `desired`. -/
def updateSettings (desired current : k.Port) : Job Unit :=
  if desired.settings = current.settings then return
  else Job.remote .api (.ofPort current) (.update k desired)

def configureHealthCheck (p : k.Port) : Job Unit := do
  Job.remote .api (.ofPort p) (.configureHealthCheck k p)
  .log (.healthCheckConfigured p.name p.pair p.healthCheck.target)

def registerBackends (p : k.Port) (backends : List Backend) : Job Unit := do
  Job.remote .api (.ofPort p) (.registerBackends k p backends)
  .log (.backendsRegistered p.name p.pair (instanceIds backends))

def deregisterBackends (p : k.Port) (backends : List Backend) : Job Unit := do
  Job.remote .api (.ofPort p) (.deregisterBackends k p backends)
  .log (.backendsDeregistered p.name p.pair (instanceIds backends))

/-- Brings the filter entries `current` of a port to those of `desired`, in one call if any. -/
def setFilter (desired : k.Port) (current : List String) : Job Unit := do
  let changes := filterChanges desired.filters current
  if changes.isEmpty then return
  Job.remote .api (.ofPort desired) (.setFilter k desired changes)
  let added := changes.countP FilterChange.add
  .log (.filterSet desired.name desired.pair added (changes.length - added))

/-- All ports of a balancer share its VIP. -/
def statusOf {α : Type} (name : String) (ports : List (Port α)) : Except EngineError Status :=
  match ports with
  | first :: _ => .ok ⟨first.vip⟩
  | [] => .error (.vanished name)

/-- What is desired of the described port `current`. -/
def desiredFor {α : Type} (desired : List (Port α)) (current : Port α) :
    Except EngineError (Port α) :=
  match desired.find? (·.same current) with
  | some port => .ok port
  | none => .error (.desiredPortMissing (.ofPort current))

/-- The status of a balancer, if it exists. -/
def status (k : Kind) (name : String) : Job (Option Status) := do
  match ← describe k name with
  | none => return none
  | some ports => return some (← Job.ofExcept (statusOf name ports))

/-- Records the failure of a reconciliation of `name`. -/
def reporting (name : String) (program : Program Status) : Program Status :=
  program.handle fun e => .record (.reconcileFailed name e) (.fail e)

end CloudBalancer.Reconcile
