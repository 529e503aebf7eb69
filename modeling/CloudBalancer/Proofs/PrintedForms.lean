import CloudBalancer.CommandLine.Report
import CloudBalancer.Proofs.Declarations
import CloudBalancer.Proofs.Forms
import CloudBalancer.Proofs.Spelling

/-!
What is printed can be read again: the form of a value, in either layout, and the state in the
report of a run, from which a later run can start.
-/

namespace CloudBalancer

open Json

/-- A value of the type is decoded again, both from its form and from the texts of that. -/
structure Json.Legible {α : Type} (encode : α → Json) (decode : Decoder α) : Prop where
  decoded : ∀ a, decode (encode a) = some a
  onOneLine : ∀ a, (parse? (compact (encode a))).bind decode = some a
  indented : ∀ a, (parse? (pretty (encode a))).bind decode = some a

theorem Json.Faithful.legible {α : Type} {encode : α → Json} {decode : Decoder α}
    (faithful : Faithful encode decode) : Legible encode decode where
  decoded := faithful.decoded
  onOneLine a := by
    rw [parse?_compact (faithful.writable a)]
    exact faithful.decoded a
  indented a := by
    rw [parse?_pretty (faithful.writable a)]
    exact faithful.decoded a

section Reports

theorem Call.writable_portMembers {α : Type} (p : Port α) :
    ∀ member ∈ Call.portMembers p, Writable member.2 :=
  List.forall_mem_cons.2
    ⟨.string _, List.forall_mem_singleton.2 (PortPair.faithful.writable p.pair)⟩

theorem Call.writable_members (c : Call) : ∀ member ∈ c.members, Writable member.2 := by
  have more {α : Type} (p : Port α) {name : String} {j : Json} (writable : Writable j) :
      ∀ member ∈ Call.portMembers p ++ [(name, j)], Writable member.2 :=
    List.forall_mem_append.2 ⟨writable_portMembers p, List.forall_mem_singleton.2 writable⟩
  have alone {name : String} {j : Json} (writable : Writable j) :
      ∀ member ∈ [(name, j)], Writable member.2 :=
    List.forall_mem_singleton.2 writable
  cases c with
  | describe _ _ => exact alone (.string _)
  | create _ p | registerPort _ p | update _ p | deletePort _ p => exact writable_portMembers p
  | configureHealthCheck _ p => exact more p (.string _)
  | registerBackends _ p _ | deregisterBackends _ p _ =>
      exact more p (Faithful.strings.writable _)
  | setFilter _ p changes => exact more p (FilterChange.faithful.list.writable changes)
  | groupsOf ids => exact alone (Faithful.strings.writable ids)
  | authorize _ rule | revoke _ rule =>
      exact List.forall_mem_cons.2 ⟨.string _, alone (Rule.faithful.writable rule)⟩
  | awaitApplied _ => exact alone (.string _)

theorem Call.writable (c : Call) : Writable c.toJson :=
  .object (List.forall_mem_cons.2 ⟨.string _, c.writable_members⟩)

namespace CommandLine

variable (service : Service) (result : Except EngineError (Option Status)) (cloud : Cloud)

theorem writable_report : Writable (report service result cloud) := by
  have calls : Writable (.array (cloud.calls.map Call.toJson)) :=
    .array (List.forall_mem_map.2 fun c _ => c.writable)
  have tail : ∀ member ∈ [("calls", Json.array (cloud.calls.map Call.toJson)),
      ("state", cloud.snapshot.toJson)], Writable member.2 :=
    List.forall_mem_cons.2 ⟨calls, List.forall_mem_singleton.2 (Snapshot.faithful.writable _)⟩
  cases result with
  | ok status =>
      have status : Writable (.ofOption Status.toJson status) := by
        cases status with
        | none => exact .null
        | some status => exact Status.faithful.writable status
      exact .object (List.forall_mem_cons.2 ⟨.string _, List.forall_mem_cons.2 ⟨status, tail⟩⟩)
  | error e =>
      exact .object (List.forall_mem_cons.2 ⟨.string _, List.forall_mem_cons.2 ⟨.null,
        List.forall_mem_cons.2 ⟨.string _, tail⟩⟩⟩)

theorem member?_report_state :
    (report service result cloud).member? "state" = some cloud.snapshot.toJson := by
  cases result <;> rfl

/-- The state in the report as it is printed. -/
theorem parse?_report_state :
    (parse? ((report service result cloud).pretty ++ "\n")).bind (member? "state") =
      some cloud.snapshot.toJson := by
  have line : Token.Gap "\n".toList := .cons rfl .nil
  rw [parse?_pretty_append (writable_report service result cloud) line]
  exact member?_report_state service result cloud

theorem readFile_of_parsed {α : Type} {decode : Decoder α} {text : String} {a : α}
    (parsed : (parse? text).bind decode = some a) {contents : String → Option String}
    {path : String} (stored : contents path = some text) :
    readFile contents decode path = .ok a := by
  simp only [readFile, stored, parsed]

/-- The output names a state, and a run that finds that in a file, in either layout, starts from
the snapshot. -/
def Output.Resumes (output : Output) (snapshot : Snapshot) : Prop :=
  ∃ state, (parse? output.stdout).bind (member? "state") = some state ∧
    ∀ (contents : String → Option String) (path : String),
      contents path = some (compact state) ∨ contents path = some (pretty state) →
        readFile contents Snapshot.ofJson? path = .ok snapshot

theorem resumes_report {output : Output}
    (printed : output.stdout = (report service result cloud).pretty ++ "\n") :
    output.Resumes cloud.snapshot := by
  refine ⟨cloud.snapshot.toJson, ?_, ?_⟩
  · rw [printed]
    exact parse?_report_state service result cloud
  · rintro contents path (stored | stored)
    · exact readFile_of_parsed (Snapshot.faithful.legible.onOneLine _) stored
    · exact readFile_of_parsed (Snapshot.faithful.legible.indented _) stored

/-- A run that gets as far as reporting can be resumed in the cloud as it leaves that. -/
theorem runAction_resumes {contents : String → Option String} {action : Action}
    {config instances : Option String} {service state : String} {output : Output}
    (reported : runAction contents action config service state instances = .ok output) :
    ∃ (s : Service) (before : Snapshot) (backends : List Backend),
      readFile contents Service.ofJson? service = .ok s ∧
      readFile contents Snapshot.ofJson? state = .ok before ∧
      readFileOr contents (.list Backend.ofJson?) [] instances = .ok backends ∧
      output.Resumes
        ((action.program s backends).run { cloud := .ofSnapshot before }).2.cloud.snapshot := by
  obtain ⟨_, _, reported⟩ := bind_eq_ok_iff.1 reported
  obtain ⟨s, service_read, reported⟩ := bind_eq_ok_iff.1 reported
  obtain ⟨before, state_read, reported⟩ := bind_eq_ok_iff.1 reported
  obtain ⟨backends, backends_read, reported⟩ := bind_eq_ok_iff.1 reported
  refine ⟨s, before, backends, service_read, state_read, backends_read, ?_⟩
  generalize (action.program s backends).run { cloud := .ofSnapshot before } = ran at reported ⊢
  obtain ⟨result, session⟩ := ran
  cases result with
  | ok status =>
      cases reported
      exact resumes_report s (.ok status) session.cloud rfl
  | error e =>
      cases reported
      exact resumes_report s (.error e) session.cloud rfl

end CommandLine

end Reports

open CommandLine in
/-- Whatever is written can be read back: the forms of all values that are exchanged, and with the
state that a run prints the snapshot of the cloud that it leaves. -/
theorem written_forms_read_back :
    Legible Snapshot.toJson Snapshot.ofJson? ∧
    Legible Service.toJson Service.ofJson? ∧
    Legible (fun backends => .array (backends.map Backend.toJson)) (.list Backend.ofJson?) ∧
    Legible Config.toJson Config.ofJson? ∧
    Legible FilterChange.toJson FilterChange.ofJson? ∧
    Legible Rule.toJson Rule.ofJson? ∧
    Legible PortPair.toJson PortPair.ofJson? ∧
    Legible Status.toJson Status.ofJson? ∧
    ∀ (contents : String → Option String) (action : Action) (config : Option String)
      (service state : String) (instances : Option String) (output : Output),
      runAction contents action config service state instances = .ok output →
        ∃ (s : Service) (before : Snapshot) (backends : List Backend),
          readFile contents Service.ofJson? service = .ok s ∧
          readFile contents Snapshot.ofJson? state = .ok before ∧
          readFileOr contents (.list Backend.ofJson?) [] instances = .ok backends ∧
          output.Resumes
            ((action.program s backends).run { cloud := .ofSnapshot before }).2.cloud.snapshot :=
  ⟨Snapshot.faithful.legible, Service.faithful.legible, Backend.faithful.list.legible,
    Config.faithful.legible, FilterChange.faithful.legible, Rule.faithful.legible,
    PortPair.faithful.legible, Status.faithful.legible,
    fun _ _ _ _ _ _ _ reported => runAction_resumes reported⟩

namespace Sample

/-- A group that is open for echo checks of any code. -/
def echoing : Snapshot where
  groups := (∅ : NameMap SecurityGroup).insert "sg-1"
    { instanceIds := ["i-1"]
      rules := [
        { protocol := "ICMP"
          fromPort := none
          toPort := some 7
          direction := "inbound"
          sources := ["10.0.0.9"] }] }

def quoted : Service where
  uid := "a \"b\"\n"

def echoingFiles : String → Option String
  | "service" => some (compact quoted.toJson)
  | "state" => some (pretty echoing.toJson)
  | _ => none

end Sample

open CommandLine in
/-- Asking for the status of a balancer that does not exist leaves the state as it was read. -/
theorem written_forms_read_back_echoing : ∃ output,
    runAction Sample.echoingFiles .status none "service" "state" none = .ok output ∧
      output.Resumes Sample.echoing := by
  obtain ⟨snapshots, services, -, -, -, -, -, -, runs⟩ := written_forms_read_back
  have service_is : readFile Sample.echoingFiles Service.ofJson? "service" = .ok Sample.quoted :=
    readFile_of_parsed (services.onOneLine Sample.quoted) rfl
  have state_is : readFile Sample.echoingFiles Snapshot.ofJson? "state" = .ok Sample.echoing :=
    readFile_of_parsed (snapshots.indented Sample.echoing) rfl
  have reports : ∃ output,
      runAction Sample.echoingFiles .status none "service" "state" none = .ok output := by
    rw [runAction, service_is, state_is]
    exact ⟨_, rfl⟩
  obtain ⟨output, reported⟩ := reports
  obtain ⟨s, before, backends, service_read, state_read, -, resumes⟩ :=
    runs _ _ _ _ _ _ _ reported
  cases service_is.symm.trans service_read
  cases state_is.symm.trans state_read
  exact ⟨output, reported, resumes⟩

end CloudBalancer
