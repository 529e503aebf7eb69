/-!
Arguments of the command line: an action, and the files it works on as options. Arguments are taken
from the left, so a request for help or the version wins over errors to the right of it.
What there is help on has its help text.
-/

namespace CloudBalancer.CommandLine

inductive Action
  | plan
  | status
  | delete
  deriving DecidableEq, Repr

def Action.ofName? : String → Option Action
  | "plan" => some .plan
  | "status" => some .status
  | "delete" => some .delete
  | _ => none

def Action.name : Action → String
  | .plan => "plan"
  | .status => "status"
  | .delete => "delete"

/-- What there is help on. -/
inductive Topic
  | program
  | action (action : Action)
  | help
  deriving DecidableEq, Repr

/-- The files named by the options given so far. -/
structure Files where
  config : Option String := none
  service : Option String := none
  state : Option String := none
  instances : Option String := none
  deriving DecidableEq, Repr

inductive Request
  | run (action : Action) (config : Option String) (service state : String)
      (instances : Option String)
  | help (topic : Topic)
  | version
  deriving DecidableEq, Repr

namespace Arguments

/-- The argument without the two dashes of a long option, split at its first equals sign. -/
def longOption? (argument : String) : Option (String × Option String) :=
  match argument.toList with
  | '-' :: '-' :: cs =>
    let name := String.ofList (cs.takeWhile (· ≠ '='))
    match cs.dropWhile (· ≠ '=') with
    | _ :: value => some (name, some (String.ofList value))
    | [] => some (name, none)
  | _ => none

/-- Whether the argument is a cluster of short options that starts with `letter`. -/
def isShort (letter : Char) (argument : String) : Bool :=
  match argument.toList with
  | '-' :: c :: _ => c == letter
  | _ => false

/-- Whether the argument can be the value of the option before it. -/
def isValue (argument : String) : Bool :=
  match argument.toList with
  | '-' :: _ :: _ => false
  | cs => !cs.isEmpty

/-- The value of an option, attached to it or the next argument, and the arguments that follow. -/
def takeValue (attached : Option String) (rest : List String) : Option (String × List String) :=
  match attached, rest with
  | some value, rest => if value.isEmpty then none else some (value, rest)
  | none, value :: rest => if isValue value then some (value, rest) else none
  | none, [] => none

theorem length_takeValue {attached : Option String} {rest left : List String} {value : String}
    (h : takeValue attached rest = some (value, left)) : left.length ≤ rest.length := by
  unfold takeValue at h
  split at h
  · split at h
    · cases h
    · cases h; exact Nat.le_refl _
  · split at h
    · cases h; exact Nat.le_succ _
    · cases h
  · cases h

/-- Sets an option that has not been given before. -/
def setOnce (current : Option String) (value : String) : Option (Option String) :=
  if current.isSome then none else some (some value)

def Files.set? (files : Files) (name value : String) : Option Files :=
  match name with
  | "config" => (setOnce files.config value).map fun config => { files with config }
  | "service" => (setOnce files.service value).map fun service => { files with service }
  | "state" => (setOnce files.state value).map fun state => { files with state }
  | "instances" => (setOnce files.instances value).map fun instances => { files with instances }
  | _ => none

/-- The request made by an action once all its options are known. -/
def complete? (action : Action) (config : Option String) (files : Files) : Option Request := do
  return .run action (files.config.or config) (← files.service) (← files.state) files.instances

/-- The arguments after an action. The configuration named here wins over `config`. -/
def parseAction (action : Action) (config : Option String) (files : Files)
    (arguments : List String) : Option Request :=
  match arguments with
  | [] => complete? action config files
  | argument :: rest =>
    if isShort 'h' argument then some (.help (.action action))
    else if argument = "--" then if rest.isEmpty then complete? action config files else none
    else
      match longOption? argument with
      | none => none
      | some ("help", none) => some (.help (.action action))
      | some (name, attached) =>
        match _taken : takeValue attached rest with
        | none => none
        | some (value, left) =>
          match Files.set? files name value with
          | none => none
          | some files => parseAction action config files left
termination_by arguments.length
decreasing_by
  have := length_takeValue _taken
  simp only [List.length_cons]
  omega

def parseTopic : List String → Option Request
  | [] => some (.help .program)
  | ["help"] => some (.help .help)
  | [name] => (Action.ofName? name).map (.help <| .action ·)
  | _ => none

def parseProgram (config : Option String) (arguments : List String) : Option Request :=
  match arguments with
  | [] => none
  | "help" :: rest => parseTopic rest
  | argument :: rest =>
    if isShort 'h' argument then some (.help .program)
    else if isShort 'V' argument then some .version
    else
      match Action.ofName? argument, longOption? argument with
      | some action, _ => parseAction action config {} rest
      | none, some ("help", none) => some (.help .program)
      | none, some ("version", none) => some .version
      | none, some ("config", attached) =>
        match _taken : takeValue attached rest with
        | none => none
        | some (value, left) =>
          match setOnce config value with
          | none => none
          | some config => parseProgram config left
      | none, _ => none
termination_by arguments.length
decreasing_by
  have := length_takeValue _taken
  simp only [List.length_cons]
  omega

end Arguments

/-- The request made by the arguments, if they are in order. -/
def Request.parse? (arguments : List String) : Option Request :=
  Arguments.parseProgram none arguments

def Action.summary : Action → String
  | .plan => "Converge the service's load balancer and show the calls made"
  | .status => "Show the status of the service's load balancer"
  | .delete => "Delete the service's load balancer"

def Topic.text : Topic → String
  | .program =>
    "Load balancer reconciliation planner\n\nUsage: lbsync [OPTIONS] <COMMAND>\n\nCommands:\n" ++
      "  plan    " ++ Action.plan.summary ++ "\n" ++
      "  status  " ++ Action.status.summary ++ "\n" ++
      "  delete  " ++ Action.delete.summary ++ "\n" ++
      "  help    Print this message or the help of the given subcommand(s)\n\nOptions:\n" ++
      "      --config <CONFIG>  Reconciler configuration (JSON)\n" ++
      "  -h, --help             Print help\n" ++
      "  -V, --version          Print version\n"
  | .action which =>
    which.summary ++ "\n\nUsage: lbsync " ++ which.name ++
      " [OPTIONS] --service <SERVICE> --state <STATE>\n\nOptions:\n" ++
      "      --config <CONFIG>        Reconciler configuration (JSON)\n" ++
      "      --service <SERVICE>      Service descriptor (JSON)\n" ++
      "      --state <STATE>          Cloud snapshot to start from (JSON)\n" ++
      "      --instances <INSTANCES>  Backend instances (JSON array)\n" ++
      "  -h, --help                   Print help\n"
  | .help =>
    "Print this message or the help of the given subcommand(s)\n\n" ++
      "Usage: lbsync help [COMMAND]...\n\nArguments:\n" ++
      "  [COMMAND]...  Print help for the subcommand(s)\n"

end CloudBalancer.CommandLine
