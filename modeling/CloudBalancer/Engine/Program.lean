import CloudBalancer.Cloud.Inventory
import CloudBalancer.Engine.Form

/-!
Programs that talk to the cloud, as data. A job is one sequence of remote calls and audit events
that ends in a value or an error; a program is such a sequence that may also run a group of jobs
side by side. A call is made for a target and under a limit; what answers it, and when, is up to
whoever runs the program. Against a cloud that answers every call at once no call can time out, and
the jobs of a group, none of which ever waits, run one after the other.
-/

namespace CloudBalancer

/-- Where a program makes a call. -/
structure Site where
  /-- What the call is for, to which its failure is attributed. -/
  target : Target
  limit : Limit
  deriving DecidableEq, Repr

inductive Job (α : Type)
  | done (value : α)
  | fail (error : EngineError)
  | record (event : AuditEvent) (next : Job α)
  | call (site : Site) (c : Call) (next : Outcome c.Answer → Job α)

inductive Program (α : Type)
  | done (value : α)
  | fail (error : EngineError)
  | record (event : AuditEvent) (next : Program α)
  | call (site : Site) (c : Call) (next : Outcome c.Answer → Program α)
  /-- Runs the jobs side by side. The first one to fail ends the group. -/
  | together (jobs : List (Job Unit)) (next : Except EngineError Unit → Program α)

namespace Job

variable {α β : Type}

def bind : Job α → (α → Job β) → Job β
  | .done value, f => f value
  | .fail error, _ => .fail error
  | .record event next, f => .record event (next.bind f)
  | .call site c next, f => .call site c fun outcome => (next outcome).bind f

instance : Monad Job where
  pure := .done
  bind := bind

def ofExcept : Except EngineError α → Job α
  | .ok value => .done value
  | .error e => .fail e

def log (event : AuditEvent) : Job Unit := .record event (.done ())

/-- Makes a call on behalf of `target`, to which its failure is attributed. -/
def remote (limit : Limit) (target : Target) (c : Call) : Job c.Answer :=
  .call ⟨target, limit⟩ c fun
    | .answered value => .done value
    | .refused e => .fail (.remote c.operation target e)
    | .timedOut => .fail (.timeout c.operation target)

/-- As `remote`, but an error with the code `harmless` is no failure and has no answer. -/
def remoteUnless (harmless : ErrorCode) (limit : Limit) (target : Target) (c : Call) :
    Job (Option c.Answer) :=
  .call ⟨target, limit⟩ c fun
    | .answered value => .done (some value)
    | .refused e =>
      if e.code = harmless then .done none else .fail (.remote c.operation target e)
    | .timedOut => .fail (.timeout c.operation target)

/-- One step for each item, in order. -/
def forEach {ι : Type} : List ι → (ι → Job Unit) → Job Unit
  | [], _ => .done ()
  | item :: rest, step => (step item).bind fun _ => forEach rest step

end Job

namespace Program

variable {α β : Type}

def bind : Program α → (α → Program β) → Program β
  | .done value, f => f value
  | .fail error, _ => .fail error
  | .record event next, f => .record event (next.bind f)
  | .call site c next, f => .call site c fun outcome => (next outcome).bind f
  | .together jobs next, f => .together jobs fun result => (next result).bind f

instance : Monad Program where
  pure := .done
  bind := bind

def ofJob : Job α → Program α
  | .done value => .done value
  | .fail error => .fail error
  | .record event next => .record event (ofJob next)
  | .call site c next => .call site c fun outcome => ofJob (next outcome)

instance : MonadLift Job Program := ⟨ofJob⟩

def ofExcept : Except EngineError α → Program α
  | .ok value => .done value
  | .error e => .fail e

/-- Goes on with `handler` where the program fails. -/
def handle : Program α → (EngineError → Program α) → Program α
  | .done value, _ => .done value
  | .fail error, handler => handler error
  | .record event next, handler => .record event (next.handle handler)
  | .call site c next, handler => .call site c fun outcome => (next outcome).handle handler
  | .together jobs next, handler => .together jobs fun result => (next result).handle handler

/-- Runs jobs side by side; the error of the group is the first one, as `wrap` presents it. -/
def group (wrap : EngineError → EngineError) (jobs : List (Job Unit)) : Program Unit :=
  .together jobs fun
    | .ok () => .done ()
    | .error e => .fail (wrap e)

/-- One step for each item, in order. -/
def forEach {ι : Type} : List ι → (ι → Program Unit) → Program Unit
  | [], _ => .done ()
  | item :: rest, step => (step item).bind fun _ => forEach rest step

end Program

/-- A cloud and what was recorded about changing it. -/
structure Session where
  cloud : Cloud := {}
  events : List AuditEvent := []

def Session.perform (s : Session) (c : Call) : Outcome c.Answer × Session :=
  let (result, cloud) := s.cloud.perform c
  (.ofExcept result, { s with cloud })

def Session.record (s : Session) (event : AuditEvent) : Session :=
  { s with events := s.events ++ [event] }

def Job.run {α : Type} : Job α → Session → Except EngineError α × Session
  | .done value, s => (.ok value, s)
  | .fail error, s => (.error error, s)
  | .record event next, s => next.run (s.record event)
  | .call _ c next, s => (next (s.perform c).1).run (s.perform c).2

def runTogether : List (Job Unit) → Session → Except EngineError Unit × Session
  | [], s => (.ok (), s)
  | job :: rest, s =>
    match job.run s with
    | (.ok (), s) => runTogether rest s
    | (.error e, s) => (.error e, s)

def Program.run {α : Type} : Program α → Session → Except EngineError α × Session
  | .done value, s => (.ok value, s)
  | .fail error, s => (.error error, s)
  | .record event next, s => next.run (s.record event)
  | .call _ c next, s => (next (s.perform c).1).run (s.perform c).2
  | .together jobs next, s => (next (runTogether jobs s).1).run (runTogether jobs s).2

end CloudBalancer
