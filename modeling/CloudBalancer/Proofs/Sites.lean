import CloudBalancer.Proofs.Conduct
import CloudBalancer.Proofs.ElasticSteps
import CloudBalancer.Proofs.Requests

/-!
Where calls are made. Whatever becomes of its calls, a step for a port makes all of them for that
port, those about security groups too, and each under the limit that it is due: the API limit, or
that for rule changes to be applied where this is what the call waits for. So do the operations that
are made of these steps.
-/

namespace CloudBalancer

variable {α β : Type}

/-- The limit that a call is due. -/
def Call.limit : Call → Limit
  | .awaitApplied _ => .securityGroupApply
  | _ => .api

/-- A call is made under the limit that it is due. -/
def Site.Due (site : Site) (c : Call) : Prop :=
  site.limit = c.limit

/-- Each call that the job may make is made at a right site, whatever becomes of those before. -/
def Job.Sited (right : Site → Call → Prop) : Job α → Prop
  | .done _ => True
  | .fail _ => True
  | .record _ next => next.Sited right
  | .call site c next => right site c ∧ ∀ outcome, (next outcome).Sited right

def Program.Sited (right : Site → Call → Prop) : Program α → Prop
  | .done _ => True
  | .fail _ => True
  | .record _ next => next.Sited right
  | .call site c next => right site c ∧ ∀ outcome, (next outcome).Sited right
  | .together jobs next =>
    (∀ job ∈ jobs, job.Sited right) ∧ ∀ result, (next result).Sited right

namespace Job.Sited

variable {right : Site → Call → Prop}

theorem imp {other : Site → Call → Prop} {job : Job α} (h : job.Sited right)
    (himp : ∀ site c, right site c → other site c) : job.Sited other := by
  induction job with
  | done value => trivial
  | fail e => trivial
  | record event next ih => exact ih h
  | call site c next ih => exact ⟨himp site c h.1, fun outcome => ih outcome (h.2 outcome)⟩

theorem bind {job : Job α} {f : α → Job β} (h : job.Sited right)
    (hf : ∀ value, (f value).Sited right) : (job >>= f).Sited right := by
  show (job.bind f).Sited right
  induction job with
  | done value => exact hf value
  | fail e => trivial
  | record event next ih => exact ih h
  | call site c next ih => exact ⟨h.1, fun outcome => ih outcome (h.2 outcome)⟩

theorem ofExcept (result : Except EngineError α) : (Job.ofExcept result).Sited right := by
  cases result <;> trivial

theorem remote {limit : Limit} {target : Target} {c : Call} (h : right ⟨target, limit⟩ c) :
    (Job.remote limit target c).Sited right := by
  refine ⟨h, fun outcome => ?_⟩
  cases outcome <;> trivial

theorem remoteUnless {limit : Limit} {target : Target} {c : Call} (harmless : ErrorCode)
    (h : right ⟨target, limit⟩ c) : (Job.remoteUnless harmless limit target c).Sited right := by
  refine ⟨h, fun outcome => ?_⟩
  cases outcome with
  | answered value => trivial
  | refused e =>
      dsimp only
      split <;> trivial
  | timedOut => trivial

theorem forEach {ι : Type} {items : List ι} {step : ι → Job Unit}
    (h : ∀ item ∈ items, (step item).Sited right) : (Job.forEach items step).Sited right := by
  induction items with
  | nil => trivial
  | cons item rest ih =>
      rw [Job.forEach_cons]
      exact (h item List.mem_cons_self).bind fun _ => ih fun i hi => h i (.tail item hi)

/-- An optional step and what follows it. -/
theorem optional {c : Prop} [Decidable c] {step : Job Unit} {f : Unit → Job β}
    (h : step.Sited right) (hf : (f ()).Sited right) :
    (if c then f () else step >>= f).Sited right := by
  split
  · exact hf
  · exact h.bind fun _ => hf

end Job.Sited

namespace Program.Sited

variable {right : Site → Call → Prop}

theorem ofJob {job : Job α} (h : job.Sited right) : (Program.ofJob job).Sited right := by
  induction job with
  | done value => trivial
  | fail e => trivial
  | record event next ih => exact ih h
  | call site c next ih => exact ⟨h.1, fun outcome => ih outcome (h.2 outcome)⟩

theorem bind {program : Program α} {f : α → Program β} (h : program.Sited right)
    (hf : ∀ value, (f value).Sited right) : (program >>= f).Sited right := by
  show (program.bind f).Sited right
  induction program with
  | done value => exact hf value
  | fail e => trivial
  | record event next ih => exact ih h
  | call site c next ih => exact ⟨h.1, fun outcome => ih outcome (h.2 outcome)⟩
  | together jobs next ih => exact ⟨h.1, fun result => ih result (h.2 result)⟩

theorem discard {program : Program α} (h : program.Sited right) :
    (discard program).Sited right :=
  h.bind fun _ => trivial

theorem ofExcept (result : Except EngineError α) : (Program.ofExcept result).Sited right := by
  cases result <;> trivial

theorem handle {program : Program α} {handler : EngineError → Program α}
    (h : program.Sited right) (hhandler : ∀ e, (handler e).Sited right) :
    (program.handle handler).Sited right := by
  induction program with
  | done value => trivial
  | fail e => exact hhandler e
  | record event next ih => exact ih h
  | call site c next ih => exact ⟨h.1, fun outcome => ih outcome (h.2 outcome)⟩
  | together jobs next ih => exact ⟨h.1, fun result => ih result (h.2 result)⟩

theorem group {jobs : List (Job Unit)} (wrap : EngineError → EngineError)
    (h : ∀ job ∈ jobs, job.Sited right) : (Program.group wrap jobs).Sited right := by
  refine ⟨h, fun result => ?_⟩
  cases result <;> trivial

theorem forEach {ι : Type} {items : List ι} {step : ι → Program Unit}
    (h : ∀ item ∈ items, (step item).Sited right) :
    (Program.forEach items step).Sited right := by
  induction items with
  | nil => trivial
  | cons item rest ih =>
      rw [Program.forEach_cons]
      exact (h item List.mem_cons_self).bind fun _ => ih fun i hi => h i (.tail item hi)

end Program.Sited

/-- Each call of the job is made for the target, under the limit that it is due. -/
abbrev Job.For (target : Target) (job : Job α) : Prop :=
  job.Sited fun site c => site = ⟨target, c.limit⟩

abbrev Program.For (target : Target) (program : Program α) : Prop :=
  program.Sited fun site c => site = ⟨target, c.limit⟩

theorem Job.For.sited {right : Site → Call → Prop} {target : Target} {job : Job α}
    (h : job.For target) (hright : ∀ c, right ⟨target, c.limit⟩ c) : job.Sited right :=
  h.imp fun _ c same => same ▸ hright c

theorem Job.For.due {target : Target} {job : Job α} (h : job.For target) :
    job.Sited Site.Due :=
  h.sited fun _ => rfl

theorem Target.ofPort_of_same {γ : Type} {d p : Port γ} (same : d.same p = true) :
    Target.ofPort d = .ofPort p := by
  obtain ⟨hname, hpair⟩ := Port.same_iff.1 same
  rw [Target.ofPort, Target.ofPort, hname, hpair]

namespace Reconcile

variable {k : Kind} {name : String}

section Steps

variable (name) (d p : k.Port)

theorem for_describe : (describe k name).For (.balancer name) :=
  (Job.Sited.remoteUnless _ (by cases k <;> rfl)).bind fun answer => by split <;> trivial

theorem for_describeExisting : (describeExisting k name).For (.balancer name) :=
  (for_describe name).bind fun answer => by cases answer <;> trivial

theorem for_createPort : (createPort name p).For (.port name p.pair) :=
  (Job.Sited.remote rfl).bind fun _ => trivial

theorem for_registerPort : (registerPort name p).For (.port name p.pair) :=
  (Job.Sited.remote rfl).bind fun _ => trivial

theorem for_deletePort : (deletePort name p).For (.port name p.pair) :=
  (Job.Sited.remote rfl).bind fun _ => trivial

theorem for_updateSettings : (updateSettings d p).For (.ofPort p) := by
  rw [updateSettings]
  split
  · trivial
  · exact .remote rfl

theorem for_configureHealthCheck : (configureHealthCheck p).For (.ofPort p) :=
  (Job.Sited.remote rfl).bind fun _ => trivial

theorem for_registerBackends (backends : List Backend) :
    (registerBackends p backends).For (.ofPort p) :=
  (Job.Sited.remote rfl).bind fun _ => trivial

theorem for_deregisterBackends (backends : List Backend) :
    (deregisterBackends p backends).For (.ofPort p) :=
  (Job.Sited.remote rfl).bind fun _ => trivial

theorem for_setFilter (current : List String) : (setFilter d current).For (.ofPort d) := by
  rw [setFilter]
  dsimp only
  split
  · trivial
  · exact (Job.Sited.remote rfl).bind fun _ => trivial

end Steps

section Groups

variable (target : Target)

theorem for_groupsOf (backends : List Backend) : (groupsOf target backends).For target := by
  rw [groupsOf]
  split
  · trivial
  · exact (Job.Sited.remote rfl).bind fun _ => trivial

theorem for_groupsOfLeaving (backends : List Backend) :
    (groupsOfLeaving target backends).For target := by
  rw [groupsOfLeaving]
  split
  · trivial
  · exact (Job.Sited.remoteUnless _ rfl).bind fun _ => trivial

theorem for_awaitApplied (group : String) : (awaitApplied target group).For target :=
  .remote rfl

theorem for_grant (group : String) (rule : Rule) : (grant target group rule).For target :=
  (Job.Sited.remoteUnless _ rfl).bind fun answer => by cases answer <;> trivial

theorem for_withdraw (group : String) (rule : Rule) : (withdraw target group rule).For target :=
  (Job.Sited.remoteUnless _ rfl).bind fun answer => by cases answer <;> trivial

theorem for_authorize (groups : List String) (rules : List Rule) :
    (authorize target groups rules).For target := by
  rw [authorize]
  split
  · trivial
  · exact .forEach fun group _ => (Job.Sited.forEach fun rule _ =>
      for_grant target group rule).bind fun _ => for_awaitApplied target group

theorem for_revoke (groups : List String) (rules : List Rule) (retained : List Grant) :
    (revoke target groups rules retained).For target := by
  refine .forEach fun group _ => ?_
  dsimp only
  split
  · trivial
  · exact (Job.Sited.forEach fun rule _ => for_withdraw target group rule).bind fun _ =>
      for_awaitApplied target group

theorem for_grantsOf (topology : ElasticPort) (ports : List ElasticPort) :
    (grantsOf target topology ports).For target := by
  induction ports with
  | nil => trivial
  | cons p rest ih =>
      exact (Job.Sited.ofExcept _).bind fun _ => (for_groupsOf target p.backends).bind fun _ =>
        ih.bind fun _ => trivial

theorem for_retainedGrants (desired : List ElasticPort) (topology except : ElasticPort) :
    (retainedGrants desired topology except).For (.ofPort except) :=
  for_grantsOf _ topology _

end Groups

/-- A step for every described port, with what is desired of it. -/
theorem due_eachDesired {desired current : List k.Port} {step : k.Port → k.Port → Job Unit}
    (h : ∀ d p, d.same p = true → (step d p).For (.ofPort p)) :
    (Job.forEach current fun p => do step (← Job.ofExcept (desiredFor desired p)) p).Sited
      Site.Due := by
  refine .forEach fun p _ => ?_
  cases chosen : desiredFor desired p with
  | error e => trivial
  | ok d => exact (h d p (desiredFor_eq_ok chosen).2).due

theorem due_reporting {program : Program Status} (h : program.Sited Site.Due) :
    (reporting name program).Sited Site.Due :=
  h.handle fun _ => trivial

namespace L4

variable (name) {desired : List L4Port} {d p : L4Port}

theorem for_configureNewPort (p : L4Port) : (configureNewPort p).For (.ofPort p) :=
  (for_configureHealthCheck (k := .l4) p).bind fun _ =>
    Job.Sited.optional (for_registerBackends (k := .l4) p p.backends)
      (for_setFilter (k := .l4) p [])

theorem for_syncPort (same : d.same p = true) : (syncPort d p).For (.ofPort p) := by
  have target : Target.ofPort d = .ofPort p := Target.ofPort_of_same same
  refine (for_updateSettings (k := .l4) d p).bind fun _ => ?_
  exact Job.Sited.optional (target ▸ for_configureHealthCheck (k := .l4) d) <|
    Job.Sited.optional (for_registerBackends (k := .l4) p _) <|
      Job.Sited.optional (for_deregisterBackends (k := .l4) p _)
        (target ▸ for_setFilter (k := .l4) d p.filters)

theorem due_create (desired : List L4Port) : (create name desired).Sited Site.Due := by
  cases desired with
  | nil => trivial
  | cons first rest =>
      exact (for_createPort (k := .l4) name first).due.bind fun _ =>
        (for_configureNewPort first).due.bind fun _ => .forEach fun p _ =>
          (for_registerPort (k := .l4) name p).due.bind fun _ => (for_configureNewPort p).due

theorem due_syncPorts (desired current : List L4Port) :
    (syncPorts name desired current).Sited Site.Due := by
  unfold syncPorts
  dsimp only
  split
  · trivial
  · refine Job.Sited.bind (.forEach fun p _ => ?_) fun _ => Job.Sited.bind (.forEach fun p _ => ?_)
      fun _ => (for_describeExisting (k := .l4) name).due
    · exact (for_registerPort (k := .l4) name p).due.bind fun _ =>
        (for_configureHealthCheck (k := .l4) p).due
    · exact (for_deletePort (k := .l4) name p).due

theorem due_converge (desired : List L4Port) : (converge name desired).Sited Site.Due := by
  refine (for_describe (k := .l4) name).due.bind fun answer => ?_
  cases answer with
  | none =>
      exact (due_create name desired).bind fun _ =>
        (for_describeExisting (k := .l4) name).due.bind fun _ => .ofExcept _
  | some current =>
      exact (due_syncPorts name desired current).bind fun _ =>
        (due_eachDesired (k := .l4) fun _ _ => for_syncPort).bind fun _ => .ofExcept _

theorem due_delete : (delete name).Sited Site.Due := by
  refine (for_describe (k := .l4) name).due.bind fun answer => ?_
  cases answer with
  | none => trivial
  | some ports => exact .forEach fun p _ => (for_deletePort (k := .l4) name p).due

end L4

namespace Elastic

variable (name) {desired current : List ElasticPort} {d p : ElasticPort}

theorem for_registerTargets (view : ElasticPort) (backends : List Backend) :
    (registerTargets view backends).For (.ofPort view) :=
  (for_registerBackends (k := .elastic) view backends).bind fun _ =>
    (Job.Sited.ofExcept _).bind fun rules => (for_groupsOf _ backends).bind fun groups =>
      for_authorize _ groups rules

theorem for_deregisterLeaving (view : ElasticPort) (backends : List Backend) :
    (deregisterLeaving view backends).For (.ofPort view) :=
  (Job.Sited.remoteUnless _ rfl).bind fun answer => by cases answer <;> trivial

theorem for_deregisterTargets (view : ElasticPort) (backends remaining : List Backend)
    (retained : List Grant) :
    (deregisterTargets view backends remaining retained).For (.ofPort view) := by
  refine (for_deregisterLeaving view backends).bind fun _ => (Job.Sited.ofExcept _).bind
    fun rules => (for_groupsOfLeaving _ backends).bind fun groups => ?_
  cases groups with
  | none => trivial
  | some groups =>
      exact (for_groupsOf _ remaining).bind fun used => for_revoke _ _ rules retained

theorem for_refreshRules (current view : ElasticPort) (retained : List Grant) :
    (refreshRules current view retained).For (.ofPort view) := by
  refine (Job.Sited.ofExcept _).bind fun old => (Job.Sited.ofExcept _).bind fun new => ?_
  dsimp only
  split
  · trivial
  · exact (for_groupsOf _ current.backends).bind fun groups =>
      (for_authorize _ groups _).bind fun _ => for_revoke _ groups _ retained

section Ends

variable {right : Site → Call → Prop}

theorem sited_configureNewPort (own : ∀ c, right ⟨.ofPort d, c.limit⟩ c)
    (view : ∀ c, right ⟨.ofPort (ruleView d p), c.limit⟩ c) :
    (configureNewPort name d p).Sited right := by
  refine .group _ fun job hjob => ?_
  simp only [List.mem_cons, List.not_mem_nil, or_false] at hjob
  obtain rfl | rfl | rfl := hjob
  · exact (for_configureHealthCheck (k := .elastic) d).sited own
  · split
    · trivial
    · exact (for_registerTargets (ruleView d p) d.backends).sited view
  · exact (for_setFilter (k := .elastic) d []).sited own

theorem sited_deleteStale (own : ∀ c, right ⟨.ofPort p, c.limit⟩ c)
    (listed : ∀ c, right ⟨.port name p.pair, c.limit⟩ c) (desired : List ElasticPort) :
    (deleteStale name desired p).Sited right := by
  have deletes := (for_deletePort (k := .elastic) name p).sited listed
  rw [deleteStale]
  split
  · exact deletes
  · exact ((for_retainedGrants desired p p).sited own).bind fun retained =>
      ((for_deregisterTargets p p.backends [] retained).sited own).bind fun _ => deletes

theorem sited_dropPort (own : ∀ c, right ⟨.ofPort p, c.limit⟩ c)
    (listed : ∀ c, right ⟨.port name p.pair, c.limit⟩ c) : (dropPort name p).Sited right := by
  have deletes := (for_deletePort (k := .elastic) name p).sited listed
  rw [dropPort]
  split
  · exact deletes
  · exact ((for_deregisterTargets p p.backends [] []).sited own).bind fun _ => deletes

end Ends

/-- What is done to a port is done for that port, also where the needs of others are looked up. -/
theorem for_syncPort (all : List ElasticPort) (same : d.same p = true) :
    (syncPort all d p).For (.ofPort p) := by
  have target : Target.ofPort d = .ofPort p := Target.ofPort_of_same same
  have retains : (retention all d p).For (.ofPort p) := by
    rw [retention]
    split
    · exact target ▸ for_retainedGrants all p d
    · trivial
  have checks (retained : List Grant) : (changeCheck d p retained).For (.ofPort p) := by
    rw [changeCheck]
    split
    · refine (target ▸ for_configureHealthCheck (k := .elastic) d).bind fun _ => ?_
      split
      · trivial
      · exact for_refreshRules p (ruleView d p) retained
    · trivial
  have joins : (join d p).For (.ofPort p) := by
    rw [join]
    split
    · trivial
    · exact for_registerTargets (ruleView d p) _
  have leaves (retained : List Grant) : (leave d p retained).For (.ofPort p) := by
    rw [leave]
    split
    · trivial
    · exact for_deregisterTargets (ruleView d p) _ d.backends retained
  rw [syncPort_eq]
  exact (for_updateSettings (k := .elastic) d p).bind fun _ => retains.bind fun retained =>
    (checks retained).bind fun _ => joins.bind fun _ => (leaves retained).bind fun _ =>
      target ▸ for_setFilter (k := .elastic) d p.filters

theorem due_createPorts (desired : List ElasticPort) :
    (createPorts name desired).Sited Site.Due := by
  cases desired with
  | nil => trivial
  | cons first rest =>
      exact (for_createPort (k := .elastic) name first).due.bind fun _ => .forEach fun p _ =>
        (for_registerPort (k := .elastic) name p).due

theorem due_create (desired : List ElasticPort) : (create name desired).Sited Site.Due := by
  refine (Program.Sited.ofJob (due_createPorts name desired)).bind fun _ =>
    (Program.Sited.ofJob (for_describeExisting (k := .elastic) name).due).bind fun current => ?_
  refine Program.Sited.bind (.forEach fun p _ => ?_) fun _ => trivial
  exact (Program.Sited.ofExcept _).bind fun d =>
    sited_configureNewPort name (fun _ => rfl) fun _ => rfl

theorem due_syncPorts (desired current : List ElasticPort) :
    (syncPorts name desired current).Sited Site.Due := by
  unfold syncPorts
  dsimp only
  split
  · trivial
  · refine Job.Sited.bind (.forEach fun p _ => ?_) fun _ => Job.Sited.bind (.forEach fun p _ => ?_)
      fun _ => (for_describeExisting (k := .elastic) name).due
    · exact (for_registerPort (k := .elastic) name p).due.bind fun _ =>
        (for_configureHealthCheck (k := .elastic) p).due
    · exact sited_deleteStale name (fun _ => rfl) (fun _ => rfl) desired

theorem due_converge (desired : List ElasticPort) : (converge name desired).Sited Site.Due := by
  refine (Program.Sited.ofJob (for_describe (k := .elastic) name).due).bind fun answer => ?_
  cases answer with
  | none => exact (due_create name desired).bind fun _ => .ofExcept _
  | some current =>
      exact (Program.Sited.ofJob (due_syncPorts name desired current)).bind fun _ =>
        (Program.Sited.ofJob (due_eachDesired (k := .elastic) fun _ _ =>
          for_syncPort desired)).bind fun _ => .ofExcept _

theorem due_delete : (delete name).Sited Site.Due := by
  refine (for_describe (k := .elastic) name).due.bind fun answer => ?_
  cases answer with
  | none => trivial
  | some ports => exact .forEach fun p _ => sited_dropPort name (fun _ => rfl) fun _ => rfl

end Elastic

/-- The steps of reconciliations and deletions keep to one port each. Whatever becomes of its calls,
a step makes all of them for the port that it is about: those that look up groups and change them,
which name no port, no less than those that do. -/
structure PortByPort (name : String) : Prop where
  describes : ∀ k : Kind, (describe k name).For (.balancer name)
  creates : ∀ (k : Kind) (p : k.Port), (createPort name p).For (.port name p.pair)
  registers : ∀ (k : Kind) (p : k.Port), (registerPort name p).For (.port name p.pair)
  checks : ∀ (k : Kind) (p : k.Port), (configureHealthCheck p).For (.ofPort p)
  deletes : ∀ (k : Kind) (p : k.Port), (deletePort name p).For (.port name p.pair)
  configuresL4 : ∀ p : L4Port, (L4.configureNewPort p).For (.ofPort p)
  configuresElastic : ∀ d p : ElasticPort, d.same p = true →
    (Elastic.configureNewPort name d p).For (.ofPort p)
  syncsL4 : ∀ d p : L4Port, d.same p = true → (L4.syncPort d p).For (.ofPort p)
  syncsElastic : ∀ (all : List ElasticPort) (d p : ElasticPort), d.same p = true →
    (Elastic.syncPort all d p).For (.ofPort p)
  deletesStale : ∀ (all : List ElasticPort) (p : ElasticPort), p.name = name →
    (Elastic.deleteStale name all p).For (.ofPort p)
  drops : ∀ p : ElasticPort, p.name = name → (Elastic.dropPort name p).For (.ofPort p)

theorem portByPort (name : String) : PortByPort name where
  describes _ := for_describe name
  creates _ := for_createPort name
  registers _ := for_registerPort name
  checks _ := for_configureHealthCheck
  deletes _ := for_deletePort name
  configuresL4 := L4.for_configureNewPort
  configuresElastic d p same :=
    Elastic.sited_configureNewPort name
      (fun c => congrArg (Site.mk · c.limit) (Target.ofPort_of_same same)) fun _ => rfl
  syncsL4 _ _ := L4.for_syncPort
  syncsElastic all _ _ := Elastic.for_syncPort all
  deletesStale all p named := by
    subst named
    exact Elastic.sited_deleteStale p.name (fun _ => rfl) (fun _ => rfl) all
  drops p named := by
    subst named
    exact Elastic.sited_dropPort p.name (fun _ => rfl) fun _ => rfl

theorem due_status : (status k name).Sited Site.Due := by
  refine (for_describe name).due.bind fun answer => ?_
  cases answer with
  | none => trivial
  | some ports => exact (Job.Sited.ofExcept _).bind fun _ => trivial

theorem due_reconcile (desired : List k.Port) : (reconcile name k desired).Sited Site.Due := by
  cases k with
  | l4 =>
      show (L4.reconcile name desired).Sited Site.Due
      rw [L4.reconcile]
      split
      · trivial
      · exact due_reporting (.ofJob (L4.due_converge name desired))
  | elastic =>
      show (Elastic.reconcile name desired).Sited Site.Due
      rw [Elastic.reconcile]
      split
      · trivial
      · exact due_reporting (Elastic.due_converge name desired)

theorem due_delete : (delete name k).Sited Site.Due := by
  cases k with
  | l4 => exact L4.due_delete name
  | elastic => exact Elastic.due_delete name

end Reconcile

namespace Service

theorem due_status (service : Service) : service.status.Sited Site.Due :=
  (Program.Sited.ofExcept _).bind fun _ => .ofJob Reconcile.due_status

theorem due_ensure (service : Service) (backends : List Backend) :
    (service.ensure backends).Sited Site.Due :=
  (Program.Sited.ofExcept _).bind fun _ => (Program.Sited.ofExcept _).bind fun desired =>
    Reconcile.due_reconcile desired

theorem due_delete (service : Service) : service.delete.Sited Site.Due :=
  (Program.Sited.ofExcept _).bind fun _ => .ofJob Reconcile.due_delete

end Service

/-- Whatever is undertaken, every call is made under the limit that it is due. -/
theorem Undertaking.due_program (undertaking : Undertaking) :
    undertaking.program.Sited Site.Due := by
  cases undertaking with
  | look service => exact service.due_status.discard
  | serve request =>
      cases request with
      | ensure service backends => exact (service.due_ensure backends).discard
      | update service backends => exact (service.due_ensure backends).discard
      | delete service => exact service.due_delete
  | lookUp k name => exact (Program.Sited.ofJob Reconcile.due_status).discard
  | reconcile k name desired => exact (Reconcile.due_reconcile desired).discard
  | delete k name => exact .ofJob Reconcile.due_delete

end CloudBalancer
