import CloudBalancer.Proofs.Requests
import CloudBalancer.Proofs.Settlements

/-!
What the audit trail tells. Whatever becomes of its calls, an operation records the changes that the
cloud accepted, each right after it was answered, and nothing that did not happen. It leaves out one
kind of change, though: new settings of a balancer are not recorded.
-/

namespace CloudBalancer

variable {α β : Type}

/-- What is recorded of a call that was made for the balancer `name` and answered. -/
def Call.event (name : String) : (c : Call) → c.Answer → Option AuditEvent
  | .create _ p, vip => some (.portCreated name p.pair vip)
  | .registerPort _ p, () => some (.portRegistered name p.pair)
  | .deletePort _ p, () => some (.portDeleted name p.pair)
  | .configureHealthCheck _ p, () =>
    some (.healthCheckConfigured p.name p.pair p.healthCheck.target)
  | .registerBackends _ p backends, () =>
    some (.backendsRegistered p.name p.pair (instanceIds backends))
  | .deregisterBackends _ p backends, () =>
    some (.backendsDeregistered p.name p.pair (instanceIds backends))
  | .setFilter _ p changes, () =>
    let added := changes.countP FilterChange.add
    some (.filterSet p.name p.pair added (changes.length - added))
  | .authorize group rule, () => some (.ingressAuthorized group rule)
  | .revoke group rule, () => some (.ingressRevoked group rule)
  | .update _ _, _ | .describe _ _, _ | .groupsOf _, _ | .awaitApplied _, _ => none

/-- As `event`, whatever the call came to. -/
def Call.report (name : String) (c : Call) : Outcome c.Answer → Option AuditEvent
  | .answered value => c.event name value
  | .refused _ => none
  | .timedOut => none

/-- The balancer and the port pair that a change is about, or the security group. -/
def Call.objects : Call → List String
  | .create _ p | .registerPort _ p | .update _ p | .deletePort _ p
  | .configureHealthCheck _ p => [p.name, p.pair.text]
  | .registerBackends _ p _ | .deregisterBackends _ p _ | .setFilter _ p _ =>
    [p.name, p.pair.text]
  | .authorize group _ | .revoke group _ => [group]
  | .describe .. | .groupsOf .. | .awaitApplied .. => []

/-- The call is to change the settings of a balancer. -/
def Call.setsSettings : Call → Bool
  | .update .. => true
  | _ => false

namespace Settlement

/-- The cloud has accepted a change. -/
def changed (s : Settlement) : Bool :=
  match s.outcome with
  | .answered _ => s.call.isMutating
  | _ => false

/-- What is recorded of a call that was made for the balancer `name` and has come to its end. -/
def event (name : String) (s : Settlement) : Option AuditEvent :=
  s.call.report name s.outcome

end Settlement

/-- Whether an event tells of a change, and not of a failure. -/
def AuditEvent.tells (event : AuditEvent) : Bool :=
  event.level ≠ .warn

section Events

variable {name : String} {c : Call} {event : AuditEvent}

theorem Call.tells_event {answer : c.Answer} (h : c.event name answer = some event) :
    event.tells = true := by
  cases c
  all_goals
    cases h
  all_goals rfl

/-- An event names what the change is about. -/
theorem Call.objects_event {answer : c.Answer} (h : c.event name answer = some event)
    (own : ∀ subject, c.subject = some subject → subject.2 = name) :
    c.objects <+: event.objectIds := by
  cases c
  all_goals
    cases h
  all_goals simp_all [Call.objects, Call.subject, AuditEvent.objectIds]

theorem Call.tells_report {outcome : Outcome c.Answer} (h : c.report name outcome = some event) :
    event.tells = true := by
  cases outcome with
  | answered value => exact c.tells_event h
  | refused e => cases h
  | timedOut => cases h

theorem Call.objects_report {outcome : Outcome c.Answer} (h : c.report name outcome = some event)
    (own : ∀ subject, c.subject = some subject → subject.2 = name) :
    c.objects <+: event.objectIds := by
  cases outcome with
  | answered value => exact c.objects_event h own
  | refused e => cases h
  | timedOut => cases h

/-- Of all changes that the cloud accepts, only those of settings leave no event. -/
theorem Settlement.isSome_event (s : Settlement) (name : String) :
    (s.event name).isSome = (s.changed && !s.call.setsSettings) := by
  obtain ⟨site, c, outcome, inventory, grouped⟩ := s
  cases outcome with
  | answered value => cases c <;> rfl
  | refused e => rfl
  | timedOut => rfl

theorem Settlement.changed_of_event (s : Settlement) (h : s.event name = some event) :
    s.changed = true := by
  have told := s.isSome_event name
  rw [h, Option.isSome_some, eq_comm, Bool.and_eq_true] at told
  exact told.1

end Events

/-- Nothing is left to be recorded. -/
def Square (_ : α) (due : Option AuditEvent) : Prop := due = none

/-- Every change that the cloud accepts is recorded right after it, that of settings apart, and
nothing else is. There is `due` still to be recorded. -/
def Job.Reports (name : String) (post : α → Option AuditEvent → Prop) :
    Job α → Option AuditEvent → Prop
  | .done value, due => post value due
  | .fail _, due => due = none
  | .record event next, due => due = some event ∧ next.Reports name post none
  | .call _ c next, due =>
    due = none ∧ ∀ outcome, (next outcome).Reports name post (c.report name outcome)

/-- As for jobs; failures of whole reconciliations may be recorded, too. -/
def Program.Reports (name : String) (post : α → Option AuditEvent → Prop) :
    Program α → Option AuditEvent → Prop
  | .done value, due => post value due
  | .fail _, due => due = none
  | .record event next, due =>
    (due = some event ∨ due = none ∧ event.tells = false) ∧ next.Reports name post none
  | .call _ c next, due =>
    due = none ∧ ∀ outcome, (next outcome).Reports name post (c.report name outcome)
  | .together jobs next, due =>
    due = none ∧ (∀ job ∈ jobs, job.Reports name Square none) ∧
      ∀ result, (next result).Reports name post none

namespace Job.Reports

variable {name : String} {post : α → Option AuditEvent → Prop}
  {after : β → Option AuditEvent → Prop} {due : Option AuditEvent}

theorem bind {job : Job α} {f : α → Job β} (h : job.Reports name post due)
    (hf : ∀ value due, post value due → (f value).Reports name after due) :
    (job >>= f).Reports name after due := by
  show (job.bind f).Reports name after due
  induction job generalizing due with
  | done value => exact hf value due h
  | fail e => exact h
  | record event next ih => exact ⟨h.1, ih h.2⟩
  | call site c next ih => exact ⟨h.1, fun outcome => ih outcome (h.2 outcome)⟩

/-- One step after another. -/
theorem seq {job : Job α} {f : α → Job β} (h : job.Reports name Square due)
    (hf : ∀ value, (f value).Reports name after none) : (job >>= f).Reports name after due :=
  h.bind fun value _ square => square ▸ hf value

theorem ofExcept (result : Except EngineError α) :
    (Job.ofExcept result).Reports name Square none := by
  cases result <;> rfl

/-- A call that is not recorded, for lack of a change or for another reason. -/
theorem remote {limit : Limit} {c : Call} (target : Target)
    (silent : ∀ value, c.event name value = none) :
    (Job.remote limit target c).Reports name Square none := by
  refine ⟨rfl, fun outcome => ?_⟩
  cases outcome with
  | answered value => exact silent value
  | refused e => rfl
  | timedOut => rfl

theorem remoteUnless {limit : Limit} {c : Call} (harmless : ErrorCode) (target : Target)
    (silent : ∀ value, c.event name value = none) :
    (Job.remoteUnless harmless limit target c).Reports name Square none := by
  refine ⟨rfl, fun outcome => ?_⟩
  cases outcome with
  | answered value => exact silent value
  | refused e =>
      dsimp only
      split <;> rfl
  | timedOut => rfl

/-- A call that is recorded. -/
theorem logged {limit : Limit} {c : Call} (target : Target) {event : c.Answer → AuditEvent}
    (told : ∀ value, c.event name value = some (event value)) :
    (do
      let value ← Job.remote limit target c
      Job.log (event value)).Reports name Square none := by
  refine ⟨rfl, fun outcome => ?_⟩
  cases outcome with
  | answered value => exact ⟨told value, rfl⟩
  | refused e => rfl
  | timedOut => rfl

/-- A call that is recorded unless it turned out to be of no use. -/
theorem loggedUnless {limit : Limit} {c : Call} (harmless : ErrorCode) (target : Target)
    {step : Option c.Answer → Job Unit} {event : AuditEvent}
    (told : ∀ value, c.event name value = some event)
    (logs : ∀ value, step (some value) = Job.log event) (skips : step none = .done ()) :
    (Job.remoteUnless harmless limit target c >>= step).Reports name Square none := by
  refine ⟨rfl, fun outcome => ?_⟩
  cases outcome with
  | answered value =>
      show (step (some value)).Reports name Square _
      rw [logs]
      exact ⟨told value, rfl⟩
  | refused e =>
      dsimp only
      split
      · show (step none).Reports name Square _
        rw [skips]
        rfl
      · rfl
  | timedOut => rfl

theorem forEach {ι : Type} {items : List ι} {step : ι → Job Unit}
    (h : ∀ item ∈ items, (step item).Reports name Square none) :
    (Job.forEach items step).Reports name Square none := by
  induction items with
  | nil => rfl
  | cons item rest ih =>
      rw [Job.forEach_cons]
      exact (h item List.mem_cons_self).seq fun _ => ih fun i hi => h i (.tail item hi)

/-- An optional step and what follows it. -/
theorem optional {c : Prop} [Decidable c] {step : Job Unit} {f : Unit → Job β}
    (h : step.Reports name Square none) (hf : (f ()).Reports name after none) :
    (if c then f () else step >>= f).Reports name after none := by
  split
  · exact hf
  · exact h.seq fun _ => hf

end Job.Reports

namespace Program.Reports

variable {name : String} {post : α → Option AuditEvent → Prop}
  {after : β → Option AuditEvent → Prop} {due : Option AuditEvent}

theorem ofJob {job : Job α} (h : job.Reports name post due) :
    (Program.ofJob job).Reports name post due := by
  induction job generalizing due with
  | done value => exact h
  | fail e => exact h
  | record event next ih => exact ⟨.inl h.1, ih h.2⟩
  | call site c next ih => exact ⟨h.1, fun outcome => ih outcome (h.2 outcome)⟩

theorem seq {program : Program α} {f : α → Program β} (h : program.Reports name Square due)
    (hf : ∀ value, (f value).Reports name after none) :
    (program >>= f).Reports name after due := by
  show (program.bind f).Reports name after due
  induction program generalizing due with
  | done value => exact h ▸ hf value
  | fail e => exact h
  | record event next ih => exact ⟨h.1, ih h.2⟩
  | call site c next ih => exact ⟨h.1, fun outcome => ih outcome (h.2 outcome)⟩
  | together jobs next ih => exact ⟨h.1, h.2.1, fun result => ih result (h.2.2 result)⟩

theorem ofExcept (result : Except EngineError α) :
    (Program.ofExcept result).Reports name Square none := by
  cases result <;> rfl

theorem group {jobs : List (Job Unit)} (wrap : EngineError → EngineError)
    (h : ∀ job ∈ jobs, job.Reports name Square none) :
    (Program.group wrap jobs).Reports name Square none := by
  refine ⟨rfl, h, fun result => ?_⟩
  cases result <;> rfl

theorem forEach {ι : Type} {items : List ι} {step : ι → Program Unit}
    (h : ∀ item ∈ items, (step item).Reports name Square none) :
    (Program.forEach items step).Reports name Square none := by
  induction items with
  | nil => rfl
  | cons item rest ih =>
      rw [Program.forEach_cons]
      exact (h item List.mem_cons_self).seq fun _ => ih fun i hi => h i (.tail item hi)

/-- The failure of a reconciliation is no change. -/
theorem reporting {program : Program Status} (balancer : String)
    (h : program.Reports name Square due) :
    (Reconcile.reporting balancer program).Reports name Square due := by
  show (program.handle _).Reports name Square due
  induction program generalizing due with
  | done value => exact h
  | fail e => exact ⟨.inr ⟨h, rfl⟩, rfl⟩
  | record event next ih => exact ⟨h.1, ih h.2⟩
  | call site c next ih => exact ⟨h.1, fun outcome => ih outcome (h.2 outcome)⟩
  | together jobs next ih => exact ⟨h.1, h.2.1, fun result => ih result (h.2.2 result)⟩

end Program.Reports

namespace Reconcile

variable {k : Kind} {name : String}

section Steps

theorem reports_describe (other : String) : (describe k other).Reports name Square none :=
  (Job.Reports.remoteUnless _ _ fun _ => rfl).seq fun answer => by split <;> rfl

theorem reports_describeExisting (other : String) :
    (describeExisting k other).Reports name Square none :=
  (reports_describe other).seq fun answer => by split <;> rfl

theorem reports_createPort (p : k.Port) : (createPort name p).Reports name Square none :=
  .logged _ fun _ => rfl

theorem reports_registerPort (p : k.Port) : (registerPort name p).Reports name Square none :=
  .logged _ fun _ => rfl

theorem reports_deletePort (p : k.Port) : (deletePort name p).Reports name Square none :=
  .logged _ fun _ => rfl

/-- New settings are not recorded. -/
theorem reports_updateSettings (d p : k.Port) : (updateSettings d p).Reports name Square none := by
  rw [updateSettings]
  split
  · rfl
  · exact .remote _ fun _ => rfl

theorem reports_configureHealthCheck (p : k.Port) :
    (configureHealthCheck p).Reports name Square none :=
  .logged _ fun _ => rfl

theorem reports_registerBackends (p : k.Port) (backends : List Backend) :
    (registerBackends p backends).Reports name Square none :=
  .logged _ fun _ => rfl

theorem reports_deregisterBackends (p : k.Port) (backends : List Backend) :
    (deregisterBackends p backends).Reports name Square none :=
  .logged _ fun _ => rfl

theorem reports_setFilter (d : k.Port) (current : List String) :
    (setFilter d current).Reports name Square none := by
  rw [setFilter]
  dsimp only
  split
  · rfl
  · exact .logged _ fun _ => rfl

/-- Missing ports are registered, and checked from then on. -/
theorem reports_registerMissing (missing : List k.Port) :
    (Job.forEach missing fun p => do
      registerPort name p
      configureHealthCheck p).Reports name Square none :=
  .forEach fun p _ => (reports_registerPort p).seq fun _ => reports_configureHealthCheck p

theorem reports_status (other : String) : (status k other).Reports name Square none :=
  (reports_describe other).seq fun answer => by
    split
    · rfl
    · exact (Job.Reports.ofExcept _).seq fun _ => rfl

end Steps

namespace L4

theorem reports_configureNewPort (p : L4Port) :
    (configureNewPort p).Reports name Square none :=
  (reports_configureHealthCheck (k := .l4) p).seq fun _ =>
    .optional (reports_registerBackends (k := .l4) p _) (reports_setFilter (k := .l4) p _)

theorem reports_create (desired : List L4Port) :
    (create name desired).Reports name Square none := by
  cases desired with
  | nil => rfl
  | cons first rest =>
      exact (reports_createPort (k := .l4) first).seq fun _ =>
        (reports_configureNewPort first).seq fun _ => .forEach fun p _ =>
          (reports_registerPort (k := .l4) p).seq fun _ => reports_configureNewPort p

theorem reports_syncPorts (desired current : List L4Port) :
    (syncPorts name desired current).Reports name Square none := by
  unfold syncPorts
  dsimp only
  split
  · rfl
  · exact (reports_registerMissing (k := .l4) _).seq fun _ =>
      (Job.Reports.forEach fun p _ => reports_deletePort (k := .l4) p).seq fun _ =>
        reports_describeExisting (k := .l4) name

theorem reports_syncPort (d p : L4Port) : (syncPort d p).Reports name Square none :=
  (reports_updateSettings (k := .l4) d p).seq fun _ =>
    .optional (reports_configureHealthCheck (k := .l4) d) <|
      .optional (reports_registerBackends (k := .l4) p _) <|
        .optional (reports_deregisterBackends (k := .l4) p _)
          (reports_setFilter (k := .l4) d _)

theorem reports_converge (desired : List L4Port) :
    (converge name desired).Reports name Square none := by
  refine (reports_describe (k := .l4) name).seq fun answer => ?_
  cases answer with
  | none =>
      exact (reports_create desired).seq fun _ =>
        (reports_describeExisting (k := .l4) name).seq fun _ => .ofExcept _
  | some current =>
      exact (reports_syncPorts desired current).seq fun _ =>
        (Job.Reports.forEach fun p _ => (Job.Reports.ofExcept _).seq fun d =>
          reports_syncPort d p).seq fun _ => .ofExcept _

theorem reports_reconcile (desired : List L4Port) :
    (reconcile name desired).Reports name Square none := by
  rw [reconcile]
  split
  · rfl
  · exact .reporting name (.ofJob (reports_converge desired))

theorem reports_delete (name : String) : (delete name).Reports name Square none := by
  refine (reports_describe (k := .l4) name).seq fun answer => ?_
  cases answer with
  | none => rfl
  | some ports => exact .forEach fun p _ => reports_deletePort (k := .l4) p

end L4

section Groups

variable {target : Target}

theorem reports_groupsOf (target : Target) (backends : List Backend) :
    (groupsOf target backends).Reports name Square none := by
  rw [groupsOf]
  split
  · rfl
  · exact (Job.Reports.remote _ fun _ => rfl).seq fun _ => rfl

theorem reports_groupsOfLeaving (target : Target) (backends : List Backend) :
    (groupsOfLeaving target backends).Reports name Square none := by
  rw [groupsOfLeaving]
  split
  · rfl
  · exact (Job.Reports.remoteUnless _ _ fun _ => rfl).seq fun _ => rfl

theorem reports_awaitApplied (target : Target) (group : String) :
    (awaitApplied target group).Reports name Square none :=
  .remote _ fun _ => rfl

theorem reports_grant (target : Target) (group : String) (rule : Rule) :
    (grant target group rule).Reports name Square none :=
  .loggedUnless _ _ (fun _ => rfl) (fun _ => rfl) rfl

theorem reports_withdraw (target : Target) (group : String) (rule : Rule) :
    (withdraw target group rule).Reports name Square none :=
  .loggedUnless _ _ (fun _ => rfl) (fun _ => rfl) rfl

theorem reports_authorize (target : Target) (groups : List String) (rules : List Rule) :
    (authorize target groups rules).Reports name Square none := by
  rw [authorize]
  split
  · rfl
  · exact .forEach fun group _ =>
      (Job.Reports.forEach fun rule _ => reports_grant target group rule).seq fun _ =>
        reports_awaitApplied target group

theorem reports_revoke (target : Target) (groups : List String) (rules : List Rule)
    (retained : List Grant) : (revoke target groups rules retained).Reports name Square none := by
  refine .forEach fun group _ => ?_
  dsimp only
  split
  · rfl
  · exact (Job.Reports.forEach fun rule _ => reports_withdraw target group rule).seq fun _ =>
      reports_awaitApplied target group

theorem reports_grantsOf (target : Target) (topology : ElasticPort) (ports : List ElasticPort) :
    (grantsOf target topology ports).Reports name Square none := by
  induction ports with
  | nil => rfl
  | cons p rest ih =>
      exact (Job.Reports.ofExcept _).seq fun _ => (reports_groupsOf target _).seq fun _ =>
        ih.seq fun _ => rfl

theorem reports_retainedGrants (desired : List ElasticPort) (topology except : ElasticPort) :
    (retainedGrants desired topology except).Reports name Square none :=
  reports_grantsOf _ _ _

end Groups

namespace Elastic

theorem reports_registerTargets (view : ElasticPort) (backends : List Backend) :
    (registerTargets view backends).Reports name Square none :=
  (reports_registerBackends (k := .elastic) view backends).seq fun _ =>
    (Job.Reports.ofExcept _).seq fun _ => (reports_groupsOf _ _).seq fun _ =>
      reports_authorize _ _ _

theorem reports_deregisterTargets (view : ElasticPort) (backends remaining : List Backend)
    (retained : List Grant) :
    (deregisterTargets view backends remaining retained).Reports name Square none := by
  have deregisters : (deregisterLeaving view backends).Reports name Square none :=
    .loggedUnless _ _ (fun _ => rfl) (fun _ => rfl) rfl
  refine deregisters.seq fun _ => (Job.Reports.ofExcept _).seq fun rules =>
    (reports_groupsOfLeaving _ _).seq fun answer => ?_
  cases answer with
  | none => rfl
  | some groups => exact (reports_groupsOf _ _).seq fun _ => reports_revoke _ _ _ _

theorem reports_refreshRules (current view : ElasticPort) (retained : List Grant) :
    (refreshRules current view retained).Reports name Square none := by
  refine (Job.Reports.ofExcept _).seq fun old => (Job.Reports.ofExcept _).seq fun new => ?_
  dsimp only
  split
  · rfl
  · exact (reports_groupsOf _ _).seq fun _ => (reports_authorize _ _ _).seq fun _ =>
      reports_revoke _ _ _ _

theorem reports_configureNewPort (d p : ElasticPort) :
    (configureNewPort name d p).Reports name Square none := by
  refine .group _ fun job hjob => ?_
  simp only [List.mem_cons, List.not_mem_nil, or_false] at hjob
  obtain rfl | rfl | rfl := hjob
  · exact reports_configureHealthCheck (k := .elastic) d
  · split
    · rfl
    · exact reports_registerTargets _ _
  · exact reports_setFilter (k := .elastic) d _

theorem reports_createPorts (desired : List ElasticPort) :
    (createPorts name desired).Reports name Square none := by
  cases desired with
  | nil => rfl
  | cons first rest =>
      exact (reports_createPort (k := .elastic) first).seq fun _ => .forEach fun p _ =>
        reports_registerPort (k := .elastic) p

theorem reports_create (desired : List ElasticPort) :
    (create name desired).Reports name Square none :=
  (Program.Reports.ofJob (reports_createPorts desired)).seq fun _ =>
    (Program.Reports.ofJob (reports_describeExisting (k := .elastic) name)).seq fun _ =>
      (Program.Reports.forEach fun p _ => (Program.Reports.ofExcept _).seq fun d =>
        reports_configureNewPort d p).seq fun _ => rfl

theorem reports_deleteStale (desired : List ElasticPort) (p : ElasticPort) :
    (deleteStale name desired p).Reports name Square none := by
  have deletes : (deletePort (k := .elastic) name p).Reports name Square none :=
    reports_deletePort (k := .elastic) p
  rw [deleteStale]
  split
  · exact deletes
  · exact (reports_retainedGrants desired p p).seq fun _ =>
      (reports_deregisterTargets _ _ _ _).seq fun _ => deletes

theorem reports_syncPorts (desired current : List ElasticPort) :
    (syncPorts name desired current).Reports name Square none := by
  unfold syncPorts
  dsimp only
  split
  · rfl
  · exact (reports_registerMissing (k := .elastic) _).seq fun _ =>
      (Job.Reports.forEach fun p _ => reports_deleteStale desired p).seq fun _ =>
        reports_describeExisting (k := .elastic) name

theorem reports_syncPort (all : List ElasticPort) (d p : ElasticPort) :
    (syncPort all d p).Reports name Square none := by
  have retains : (retention all d p).Reports name Square none := by
    rw [retention]
    split
    · exact reports_retainedGrants all p d
    · rfl
  have checks (retained : List Grant) : (changeCheck d p retained).Reports name Square none := by
    rw [changeCheck]
    split
    · refine (reports_configureHealthCheck (k := .elastic) d).seq fun _ => ?_
      split
      · rfl
      · exact reports_refreshRules _ _ _
    · rfl
  have joins : (join d p).Reports name Square none := by
    rw [join]
    split
    · rfl
    · exact reports_registerTargets _ _
  have leaves (retained : List Grant) : (leave d p retained).Reports name Square none := by
    rw [leave]
    split
    · rfl
    · exact reports_deregisterTargets _ _ _ _
  rw [syncPort_eq]
  exact (reports_updateSettings (k := .elastic) d p).seq fun _ => retains.seq fun retained =>
    (checks retained).seq fun _ => joins.seq fun _ => (leaves retained).seq fun _ =>
      reports_setFilter (k := .elastic) d _

theorem reports_converge (desired : List ElasticPort) :
    (converge name desired).Reports name Square none := by
  refine (Program.Reports.ofJob (reports_describe (k := .elastic) name)).seq fun answer => ?_
  cases answer with
  | none => exact (reports_create desired).seq fun _ => .ofExcept _
  | some current =>
      refine (Program.Reports.ofJob (reports_syncPorts desired current)).seq fun _ => ?_
      refine Program.Reports.seq (.ofJob (.forEach fun p _ => ?_)) fun _ => .ofExcept _
      exact (Job.Reports.ofExcept _).seq fun d => reports_syncPort desired d p

theorem reports_reconcile (desired : List ElasticPort) :
    (reconcile name desired).Reports name Square none := by
  rw [reconcile]
  split
  · rfl
  · exact .reporting name (reports_converge desired)

theorem reports_delete (name : String) : (delete name).Reports name Square none := by
  refine (reports_describe (k := .elastic) name).seq fun answer => ?_
  cases answer with
  | none => rfl
  | some ports =>
      exact .forEach fun p _ => .optional (reports_deregisterTargets _ _ _ _)
        (reports_deletePort (k := .elastic) p)

end Elastic

theorem reports_reconcile (desired : List k.Port) :
    (reconcile name k desired).Reports name Square none := by
  cases k with
  | l4 => exact L4.reports_reconcile desired
  | elastic => exact Elastic.reports_reconcile desired

theorem reports_delete (k : Kind) (name : String) : (delete name k).Reports name Square none := by
  cases k with
  | l4 => exact L4.reports_delete name
  | elastic => exact Elastic.reports_delete name

end Reconcile

theorem Program.Reports.discard {name : String} {program : Program α}
    (h : program.Reports name Square none) :
    (Functor.discard program).Reports name Square none :=
  h.seq fun _ => rfl

namespace Service

open Reconcile

variable (service : Service) (backends : List Backend)

theorem reports_status : service.status.Reports service.balancerName Square none :=
  (Program.Reports.ofExcept _).seq fun _ => .ofJob (Reconcile.reports_status _)

theorem reports_ensure : (service.ensure backends).Reports service.balancerName Square none :=
  (Program.Reports.ofExcept _).seq fun _ => (Program.Reports.ofExcept _).seq fun desired =>
    reports_reconcile desired

theorem reports_delete : service.delete.Reports service.balancerName Square none :=
  (Program.Reports.ofExcept _).seq fun kind => .ofJob (Reconcile.reports_delete kind _)

end Service

namespace Undertaking

theorem reports_program (undertaking : Undertaking) :
    undertaking.program.Reports undertaking.balancer Square none := by
  cases undertaking with
  | look service => exact .discard (service.reports_status)
  | serve request =>
      cases request with
      | ensure service backends => exact .discard (service.reports_ensure backends)
      | update service backends => exact .discard (service.reports_ensure backends)
      | delete service => exact service.reports_delete
  | lookUp k name => exact .discard (.ofJob (Reconcile.reports_status name))
  | reconcile k name desired => exact .discard (Reconcile.reports_reconcile desired)
  | delete k name => exact .ofJob (Reconcile.reports_delete k name)

end Undertaking

section Runs

variable {name : String} {due : Option AuditEvent}

theorem Settlement.filter_events (name : String) (log : List Settlement) :
    (log.filterMap (·.event name)).filter AuditEvent.tells = log.filterMap (·.event name) := by
  refine List.filter_eq_self.2 fun event hevent => ?_
  obtain ⟨s, -, told⟩ := List.mem_filterMap.1 hevent
  exact s.call.tells_report told

/-- In a stretch of a job, all that the cloud accepts is recorded. -/
def recording (name : String) : Ledger where
  stands log trail job := ∃ due, job.Reports name Square due ∧
    log.filterMap (·.event name) = trail ++ due.toList
  balanced log trail := log.filterMap (·.event name) = trail
  broken log trail _ := log.filterMap (·.event name) = trail

theorem recording_sound (name : String) : (recording name).Sound where
  nil := rfl
  append balanced more := by simp_all [recording]
  breaks balanced broken := by simp_all [recording]
  done := by
    intro log trail stands
    obtain ⟨due, reports, recorded⟩ := stands
    obtain rfl : due = none := reports
    simpa [recording] using recorded
  fail := by
    intro log trail e stands
    obtain ⟨due, reports, recorded⟩ := stands
    obtain rfl : due = none := reports
    simpa [recording] using recorded
  record := by
    intro log trail event next stands
    obtain ⟨due, ⟨rfl, reports⟩, recorded⟩ := stands
    exact ⟨none, reports, by simpa using recorded⟩
  call := by
    intro log trail site c next stands
    obtain ⟨due, ⟨rfl, reports⟩, recorded⟩ := stands
    exact ⟨by simpa [recording] using recorded, none, ⟨rfl, reports⟩, rfl⟩
  settle := by
    intro site c next stands outcome inventory
    obtain ⟨due, ⟨-, reports⟩, -⟩ := stands
    refine ⟨_, reports outcome, ?_⟩
    cases h : c.report name outcome <;> simp [Settlement.event, h]

/-- What is recorded in a run is what the cloud has accepted, in the order in which the answers
came. -/
theorem Program.Reports.simulate {program : Program α} (h : program.Reports name Square due)
    (change : ∀ event, due = some event → event.tells = true) (config : Config) (w : World) :
    ∃ trail, (program.simulate config w).2.events = w.events ++ trail ∧
      trail.filter AuditEvent.tells =
        due.toList ++ (program.settlements config w).filterMap (·.event name) := by
  induction program generalizing due w with
  | done value =>
      obtain rfl : due = none := h
      exact ⟨[], (List.append_nil _).symm, rfl⟩
  | fail e =>
      obtain rfl : due = none := h
      exact ⟨[], (List.append_nil _).symm, rfl⟩
  | record event next ih =>
      obtain ⟨told, reports⟩ := h
      obtain ⟨trail, hevents, recorded⟩ := ih reports nofun (w.record event)
      refine ⟨event :: trail, by rw [simulate, hevents]; simp [World.record], ?_⟩
      cases told with
      | inl told =>
          subst told
          simpa [change event rfl, settlements] using recorded
      | inr told =>
          obtain ⟨rfl, silent⟩ := told
          simpa [silent, settlements] using recorded
  | call site c next ih =>
      obtain ⟨rfl, reports⟩ := h
      obtain ⟨trail, hevents, recorded⟩ := ih _ (reports _)
        (fun event told => c.tells_report told) (w.await (config.timeout site.limit) c).2
      have records := (w.records_await (config.timeout site.limit) c).2
      refine ⟨trail, by rw [simulate, hevents, records], ?_⟩
      rw [recorded, settlements, List.filterMap_cons]
      cases told : c.report name (w.await (config.timeout site.limit) c).1 <;>
        simp [Settlement.event, told]
  | together jobs next ih =>
      obtain ⟨rfl, group, reports⟩ := h
      obtain ⟨fresh, hfresh, concludes⟩ := Ledger.runTogether (recording_sound name) config
        (fun job hjob => ⟨none, group job hjob, rfl⟩) w
      obtain ⟨trail, hevents, recorded⟩ := ih _ (reports _) nofun (w.runTogether config jobs).2
      have told : (w.settledTogether config jobs).filterMap (·.event name) = fresh := by
        cases hresult : (w.runTogether config jobs).1 with
        | ok value =>
            rw [hresult] at concludes
            exact concludes
        | error e =>
            rw [hresult] at concludes
            exact concludes
      refine ⟨fresh ++ trail, by rw [simulate, hevents, hfresh, List.append_assoc], ?_⟩
      rw [List.filter_append, recorded, ← told, Settlement.filter_events, settlements,
        List.filterMap_append]
      rfl

/-- What has an event each is told one by one if no change lacks one. -/
theorem Settlement.told_iff (name : String) (log : List Settlement) :
    List.Forall₂ (fun s event => s.event name = some event) (log.filter changed)
        (log.filterMap (·.event name)) ↔
      ∀ s ∈ log, s.changed = true → s.call.setsSettings = false := by
  induction log with
  | nil => simp
  | cons s rest ih =>
      have told := s.isSome_event name
      rw [List.forall_mem_cons, ← ih]
      cases hevent : s.event name with
      | some event =>
          simp only [hevent, Option.isSome_some, Eq.comm (a := true), Bool.and_eq_true,
            Bool.not_eq_true'] at told
          simp [hevent, told.1, told.2]
      | none =>
          simp only [hevent, Option.isSome_none, Eq.comm (a := false), Bool.and_eq_false_imp,
            Bool.not_eq_false'] at told
          cases hchanged : s.changed with
          | false => simp [hevent, hchanged]
          | true =>
              have lacking : s.call.setsSettings = true := told hchanged
              simp only [hchanged, lacking, List.filter_cons_of_pos,
                List.filterMap_cons_none hevent]
              refine iff_of_false (fun all => ?_) (by simp)
              obtain ⟨event, -, first, -⟩ := List.forall₂_cons_left_iff.1 all
              simp [hevent] at first

end Runs

/-- Whatever becomes of the calls of an operation, its events of changes are those of the changes
that the cloud accepted, in the order in which the answers came, and each names the balancer and
the port pair, or the security group. Every accepted change has its event just if none was a change
of settings. -/
theorem audit_trail_complete_iff (undertaking : Undertaking) (config : Config) (w : World) :
    ∃ trail, (undertaking.program.simulate config w).2.events = w.events ++ trail ∧
      trail.filter AuditEvent.tells =
        (undertaking.program.settlements config w).filterMap (·.event undertaking.balancer) ∧
      (∀ s ∈ undertaking.program.settlements config w, ∀ event,
        s.event undertaking.balancer = some event →
        (∀ subject, s.call.subject = some subject → subject.2 = undertaking.balancer) →
          s.changed = true ∧ s.call.objects <+: event.objectIds) ∧
      (List.Forall₂ (fun s event => s.event undertaking.balancer = some event)
          ((undertaking.program.settlements config w).filter Settlement.changed)
          (trail.filter AuditEvent.tells) ↔
        ∀ s ∈ undertaking.program.settlements config w,
          s.changed = true → s.call.setsSettings = false) := by
  obtain ⟨trail, hevents, recorded⟩ := undertaking.reports_program.simulate nofun config w
  refine ⟨trail, hevents, recorded, ?named, ?complete⟩
  case named =>
    intro s _ event told own
    exact ⟨s.changed_of_event told, s.call.objects_report told own⟩
  case complete =>
    rw [recorded]
    exact Settlement.told_iff _ _

namespace Sample

/-- The sample service, with another way of balancing. -/
def rebalanced : Service :=
  { service with annotations := service.annotations.insert Annotations.balancingType "2" }

/-- The world with the sample balancer. -/
def provided : World where
  cloud := (ensured inventory).2.cloud

/-- The new settings are accepted, and no event names the balancer. -/
theorem new_settings_untold :
    let undertaking := Undertaking.serve (.ensure rebalanced backends)
    (undertaking.program.simulate {} provided).1 = .ok () ∧
    ¬ ∃ trail, (undertaking.program.simulate {} provided).2.events = provided.events ++ trail ∧
      List.Forall₂ (fun s event => s.call.objects <+: event.objectIds)
        ((undertaking.program.settlements {} provided).filter Settlement.changed)
        (trail.filter AuditEvent.tells) := by
  intro undertaking
  have silent : (undertaking.program.simulate {} provided).2.events = provided.events := by
    decide +kernel
  have accepted : ((undertaking.program.settlements {} provided).filter
      Settlement.changed).length = 1 := by
    decide +kernel
  refine ⟨by decide +kernel, fun told => ?_⟩
  obtain ⟨trail, hevents, all⟩ := told
  rw [silent, List.self_eq_append_right] at hevents
  subst hevents
  have counted := all.length_eq
  rw [accepted] at counted
  cases counted

end Sample

end CloudBalancer
