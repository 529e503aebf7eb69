import CloudBalancer.Cloud.Form
import CloudBalancer.CommandLine.Arguments
import CloudBalancer.Engine.Form
import CloudBalancer.Engine.Program
import CloudBalancer.Json.Printer
import CloudBalancer.Json.Reader
import CloudBalancer.Reconcile.Service
import CloudBalancer.Service.Form

/-!
What the command line does: it reads a service, its backends and the state of a cloud, runs one
operation on the service, and reports the status, the calls made and the state they lead to.
-/

namespace CloudBalancer.CommandLine

/-- How the program ends. -/
structure Output where
  exit : UInt32 := 0
  stdout : String := ""
  stderr : String := ""
  deriving DecidableEq, Repr

/-- The text with all lines but the first moved right. -/
def hanging (indent : String) (text : String) : String :=
  ("\n" ++ indent).intercalate (text.splitOn "\n")

/-- A failure and its causes, which are numbered if there are several. -/
def failureText (failure : String) (causes : List String) : String :=
  let causes :=
    match causes with
    | [cause] => ["    " ++ hanging "    " cause]
    | causes => causes.mapIdx fun i cause =>
      let number := toString i
      let margin := String.ofList (List.replicate (5 - number.length) ' ')
      margin ++ number ++ ": " ++ hanging "       " cause
  "Error: " ++ failure ++ "\n\nCaused by:\n" ++ "\n".intercalate causes ++ "\n"

/-- The value in a file, or how the program ends without it. -/
def readFile {α : Type} (contents : String → Option String) (decode : Json.Decoder α)
    (path : String) : Except Output α :=
  match contents path with
  | none =>
    let cause := "No such file or directory (os error 2)"
    .error { exit := 1, stderr := failureText s!"failed to read {path}" [cause] }
  | some text =>
    match (Json.parse? text).bind decode with
    | none => .error { exit := 1, stderr := s!"Error: failed to parse {path}" }
    | some value => .ok value

/-- The value in a file that need not be named. -/
def readFileOr {α : Type} (contents : String → Option String) (decode : Json.Decoder α)
    (absent : α) : Option String → Except Output α
  | none => .ok absent
  | some path => readFile contents decode path

/-- The operation of an action. Deleting a balancer leaves no status to report. -/
def Action.program (service : Service) (backends : List Backend) :
    Action → Program (Option Status)
  | .plan => some <$> service.ensure backends
  | .status => service.status
  | .delete => (fun _ => none) <$> service.delete

def report (service : Service) (result : Except EngineError (Option Status)) (cloud : Cloud) :
    Json :=
  let name := ("loadBalancer", Json.string service.balancerName)
  let outcome :=
    match result with
    | .ok status => [("status", Json.ofOption Status.toJson status)]
    | .error e => [("status", .null), ("error", .string e.message)]
  let calls := ("calls", Json.array (cloud.calls.map Call.toJson))
  .object (name :: outcome ++ [calls, ("state", cloud.snapshot.toJson)])

def runAction (contents : String → Option String) (action : Action) (config : Option String)
    (service state : String) (instances : Option String) : Except Output Output := do
  discard (readFileOr contents Config.ofJson? {} config)
  let service ← readFile contents Service.ofJson? service
  let snapshot ← readFile contents Snapshot.ofJson? state
  let backends ← readFileOr contents (.list Backend.ofJson?) [] instances
  let (result, session) := (action.program service backends).run { cloud := .ofSnapshot snapshot }
  let stdout := (report service result session.cloud).pretty ++ "\n"
  match result with
  | .ok _ => return { stdout }
  | .error e =>
    return { exit := 1, stdout, stderr := failureText "reconciliation failed" e.chain }

/-- Files that the program may read for the arguments. -/
def paths (arguments : List String) : List String :=
  match Request.parse? arguments with
  | some (.run _ config service state instances) =>
    config.toList ++ [service, state] ++ instances.toList
  | _ => []

/-- Runs the program on `arguments`, with the contents of the files that can be read. -/
def run (contents : String → Option String) (arguments : List String) : Output :=
  match Request.parse? arguments with
  | none => { exit := 2 }
  | some .version => { stdout := "lbsync 0.1.0\n" }
  | some (.help topic) => { stdout := topic.text }
  | some (.run action config service state instances) =>
    match runAction contents action config service state instances with
    | .ok output => output
    | .error output => output

end CloudBalancer.CommandLine
