import CloudBalancer.Proofs.Histories

/-!
Waiting for rules to be applied. A run is to change the rules of one group at a time, to go on to
the next only once it was told that the changes are applied, and never to wait without having
changed anything: `Upkeep` is how far it has got with that. Of jobs side by side only one may have
to do with groups; then its calls about them come in their own order, whatever the others do
meanwhile, and what holds of this job holds of the group.
-/

namespace CloudBalancer

variable {α β : Type}

/-- The group whose rules a call is to change. -/
def Call.revisedGroup : Call → Option String
  | .authorize group _ | .revoke group _ => some group
  | _ => none

/-- Whether a call has to do with security groups. -/
def Call.regardsGroups : Call → Bool
  | .groupsOf _ | .authorize .. | .revoke .. | .awaitApplied _ => true
  | _ => false

/-- The cloud has told that all changes of the group are applied. -/
def Settlement.Applied (s : Settlement) (group : String) : Prop :=
  ∃ site inventory grouped, s = ⟨site, .awaitApplied group, .answered (), inventory, grouped⟩

/-- In these calls about groups, every change is followed by changes of the same group, if any, and
then by a wait for them that is answered, and every wait comes right after a change. -/
structure Awaited (log : List Settlement) : Prop where
  followed : ∀ before s after group, log = before ++ s :: after →
    s.call.revisedGroup = some group → ∃ between wait rest, after = between ++ wait :: rest ∧
      wait.Applied group ∧ ∀ t ∈ between, t.call.revisedGroup = some group
  preceded : ∀ before s after group, log = before ++ s :: after →
    s.call = .awaitApplied group → ∃ earlier t, before = earlier ++ [t] ∧
      t.call.revisedGroup = some group

/-- Whether there is a group whose rules were changed since it was last waited for. -/
inductive Upkeep
  | calm
  | changed (group : String)
  /-- A group was left or waited for out of turn. -/
  | broken
  deriving DecidableEq

namespace Upkeep

def change (group : String) : Upkeep → Upkeep
  | .calm => .changed group
  | .changed other => if other = group then .changed group else .broken
  | .broken => .broken

def after (stage : Upkeep) : (c : Call) → Outcome c.Answer → Upkeep
  | .authorize group _, _ | .revoke group _, _ => stage.change group
  | .awaitApplied group, .answered _ => if stage = .changed group then .calm else .broken
  | .awaitApplied _, _ => .broken
  | .groupsOf _, _ => if stage = .calm then .calm else .broken
  | _, _ => stage

/-- What calls that are settled one after the other lead to. -/
def afterAll (stage : Upkeep) (log : List Settlement) : Upkeep :=
  log.foldl (fun stage s => stage.after s.call s.outcome) stage

variable {stage : Upkeep} {c : Call} {outcome : Outcome c.Answer} {group : String}
  {log : List Settlement} {s : Settlement}

@[simp]
theorem afterAll_cons (stage : Upkeep) (s : Settlement) (log : List Settlement) :
    stage.afterAll (s :: log) = (stage.after s.call s.outcome).afterAll log := rfl

@[simp]
theorem afterAll_append (stage : Upkeep) (log more : List Settlement) :
    stage.afterAll (log ++ more) = (stage.afterAll log).afterAll more :=
  List.foldl_append

theorem after_of_quiet (quiet : c.regardsGroups = false) : stage.after c outcome = stage := by
  cases c
  case groupsOf | authorize | revoke | awaitApplied => cases quiet
  all_goals rfl

/-- What was done out of turn is never made good. -/
theorem after_broken : broken.after c outcome = broken := by
  cases c
  case awaitApplied => cases outcome <;> rfl
  all_goals rfl

theorem afterAll_broken (log : List Settlement) : broken.afterAll log = broken := by
  induction log with
  | nil => rfl
  | cons s rest ih => rw [afterAll_cons, after_broken, ih]

theorem afterAll_of_quiet (quiet : ∀ s ∈ log, s.call.regardsGroups = false) :
    stage.afterAll log = stage := by
  induction log with
  | nil => rfl
  | cons s rest ih =>
      rw [afterAll_cons, after_of_quiet (quiet s List.mem_cons_self),
        ih fun t ht => quiet t (.tail s ht)]

/-- Only the calls about groups count. -/
theorem afterAll_filter (stage : Upkeep) (log : List Settlement) :
    stage.afterAll (log.filter (·.call.regardsGroups)) = stage.afterAll log := by
  induction log generalizing stage with
  | nil => rfl
  | cons s rest ih =>
      rw [List.filter_cons, afterAll_cons]
      split
      · rw [afterAll_cons, ih]
      · next quiet => rw [after_of_quiet (eq_false_of_ne_true quiet), ih]

theorem change_eq_or (stage : Upkeep) (group : String) :
    stage.change group = .changed group ∨ stage.change group = .broken := by
  cases stage with
  | calm => exact .inl rfl
  | changed other =>
      simp only [change]
      split
      · exact .inl rfl
      · exact .inr rfl
  | broken => exact .inr rfl

theorem after_of_revises (revises : c.revisedGroup = some group)
    (orderly : stage.after c outcome ≠ .broken) : stage.after c outcome = .changed group := by
  cases c
  case authorize | revoke =>
    cases revises
    exact (stage.change_eq_or group).resolve_right orderly
  all_goals cases revises

/-- A group counts as changed only right after a change. -/
theorem revises_of_after (regards : c.regardsGroups = true)
    (changed : stage.after c outcome = .changed group) : c.revisedGroup = some group := by
  cases c with
  | authorize other rule | revoke other rule =>
      have turned := stage.change_eq_or other
      simp_all [after, Call.revisedGroup]
  | awaitApplied other =>
      cases outcome with
      | answered value =>
          simp only [after] at changed
          split at changed <;> cases changed
      | refused e => cases changed
      | timedOut => cases changed
  | groupsOf ids =>
      simp only [after] at changed
      split at changed <;> cases changed
  | _ => cases regards

/-- A wait is in turn right after a change of its group. -/
theorem changed_of_awaits (awaits : c = .awaitApplied group)
    (orderly : stage.after c outcome ≠ .broken) : stage = .changed group := by
  subst awaits
  cases outcome <;> simp_all [after]

/-- What comes after a change is another one of the same group, or a wait that is answered. -/
theorem after_changed (regards : s.call.regardsGroups = true)
    (orderly : (changed group).after s.call s.outcome ≠ .broken) :
    s.call.revisedGroup = some group ∧ (changed group).after s.call s.outcome = .changed group ∨
      s.Applied group := by
  obtain ⟨site, c, outcome, inventory, grouped⟩ := s
  cases c with
  | authorize other rule | revoke other rule =>
      refine .inl ?_
      have turned := (changed group).change_eq_or other
      simp_all [after, change, Call.revisedGroup]
  | awaitApplied other =>
      cases outcome with
      | answered value =>
          obtain rfl : group = other := by simpa [after] using orderly
          exact .inr ⟨site, inventory, grouped, rfl⟩
      | refused e => exact absurd rfl orderly
      | timedOut => exact absurd rfl orderly
  | groupsOf ids => exact absurd rfl orderly
  | _ => cases regards

/-- Nothing was out of turn in what ends well. -/
theorem orderly_of_afterAll (ends : (stage.after c outcome).afterAll log = .calm) :
    stage.after c outcome ≠ .broken := by
  intro out
  rw [out, afterAll_broken] at ends
  cases ends

theorem exists_applied (regards : ∀ s ∈ log, s.call.regardsGroups = true)
    (ends : (changed group).afterAll log = .calm) :
    ∃ between wait rest, log = between ++ wait :: rest ∧ wait.Applied group ∧
      ∀ t ∈ between, t.call.revisedGroup = some group := by
  induction log with
  | nil => cases ends
  | cons s rest ih =>
      rw [afterAll_cons] at ends
      rcases after_changed (regards s List.mem_cons_self) (orderly_of_afterAll ends) with
        ⟨revises, stays⟩ | applied
      · rw [stays] at ends
        obtain ⟨between, wait, others, rfl, applied, same⟩ :=
          ih (fun t ht => regards t (.tail s ht)) ends
        exact ⟨s :: between, wait, others, rfl, applied, List.forall_mem_cons.2 ⟨revises, same⟩⟩
      · exact ⟨[], s, rest, rfl, applied, by simp⟩

theorem awaited (regards : ∀ s ∈ log, s.call.regardsGroups = true)
    (ends : calm.afterAll log = .calm) : Awaited log := by
  constructor
  case followed =>
    rintro before s after group rfl revises
    rw [afterAll_append, afterAll_cons] at ends
    rw [after_of_revises revises (orderly_of_afterAll ends)] at ends
    exact exists_applied (fun t ht => regards t (by simp [ht])) ends
  case preceded =>
    rintro before s after group rfl awaits
    rw [afterAll_append, afterAll_cons] at ends
    have changed := changed_of_awaits awaits (orderly_of_afterAll ends)
    rcases List.eq_nil_or_concat before with rfl | ⟨earlier, t, rfl⟩
    · cases changed
    · rw [List.concat_eq_append] at *
      rw [afterAll_append] at changed
      exact ⟨earlier, t, rfl, revises_of_after (regards t (by simp)) changed⟩

end Upkeep

/-- A job that finds the groups at the stage `start` leaves them at `final`, unless it fails. -/
def Job.Awaits : Job α → Upkeep → Upkeep → Prop
  | .done _, start, final => start = final
  | .fail _, _, _ => True
  | .record _ next, start, final => next.Awaits start final
  | .call _ c next, start, final => ∀ outcome, (next outcome).Awaits (start.after c outcome) final

/-- A job that has nothing to do with groups. -/
def Job.Quiet (job : Job α) : Prop :=
  job.Makes fun c => c.regardsGroups = false

/-- At most one of the jobs has to do with groups, which are at a given stage. -/
def Job.Attended : List (Job Unit) → Upkeep → Prop
  | [], stage => stage = .calm
  | job :: rest, stage =>
    job.Quiet ∧ Attended rest stage ∨ job.Awaits stage .calm ∧ ∀ other ∈ rest, other.Quiet

/-- A program that finds the groups at the stage `start` has waited for all changes when it ends,
unless it fails. -/
def Program.Awaits : Program α → Upkeep → Prop
  | .done _, start => start = .calm
  | .fail _, _ => True
  | .record _ next, start => next.Awaits start
  | .call _ c next, start => ∀ outcome, (next outcome).Awaits (start.after c outcome)
  | .together jobs next, start => Job.Attended jobs start ∧ (next (.ok ())).Awaits .calm ∧
      ∀ e, (next (.error e)).Awaits .broken

namespace Job.Awaits

variable {start middle final stage : Upkeep} {c : Call}

theorem bind {job : Job α} {f : α → Job β} (h : job.Awaits start middle)
    (hf : ∀ value, (f value).Awaits middle final) : (job >>= f).Awaits start final := by
  show (job.bind f).Awaits start final
  induction job generalizing start with
  | done value => exact h ▸ hf value
  | fail e => trivial
  | record event next ih => exact ih h
  | call site c next ih => exact fun outcome => ih outcome (h outcome)

theorem ofQuiet {job : Job α} (quiet : job.Quiet) : job.Awaits stage stage := by
  induction job with
  | done value => rfl
  | fail e => trivial
  | record event next ih => exact ih quiet
  | call site c next ih =>
      intro outcome
      rw [Upkeep.after_of_quiet quiet.first]
      exact ih outcome (quiet.after outcome)

theorem ofExcept (result : Except EngineError α) : (Job.ofExcept result).Awaits stage stage := by
  cases result <;> trivial

theorem remote {limit : Limit} (target : Target)
    (leads : ∀ value, start.after c (.answered value) = final) :
    (Job.remote limit target c).Awaits start final := by
  intro outcome
  cases outcome with
  | answered value => exact leads value
  | refused e => trivial
  | timedOut => trivial

theorem remoteUnless {limit : Limit} (harmless : ErrorCode) (target : Target)
    (leads : ∀ outcome, start.after c outcome = final) :
    (Job.remoteUnless harmless limit target c).Awaits start final := by
  intro outcome
  cases outcome with
  | answered value => exact leads _
  | refused e =>
      dsimp only
      split
      · exact leads _
      · trivial
  | timedOut => trivial

theorem forEach {ι : Type} {items : List ι} {step : ι → Job Unit}
    (h : ∀ item, (step item).Awaits stage stage) :
    (Job.forEach items step).Awaits stage stage := by
  induction items with
  | nil => rfl
  | cons item rest ih => exact (h item).bind fun _ => ih

/-- An optional step and what follows it. -/
theorem optional {c : Prop} [Decidable c] {step : Job Unit} {f : Unit → Job β}
    (h : step.Awaits start start) (hf : (f ()).Awaits start final) :
    (if c then f () else step >>= f).Awaits start final := by
  split
  · exact hf
  · exact h.bind fun _ => hf

end Job.Awaits

namespace Program.Awaits

variable {start : Upkeep}

theorem ofJob {job : Job α} (h : job.Awaits start .calm) : (Program.ofJob job).Awaits start := by
  induction job generalizing start with
  | done value => exact h
  | fail e => trivial
  | record event next ih => exact ih h
  | call site c next ih => exact fun outcome => ih outcome (h outcome)

theorem bind {program : Program α} {f : α → Program β} (h : program.Awaits start)
    (hf : ∀ value, (f value).Awaits .calm) : (program >>= f).Awaits start := by
  show (program.bind f).Awaits start
  induction program generalizing start with
  | done value => exact h ▸ hf value
  | fail e => trivial
  | record event next ih => exact ih h
  | call site c next ih => exact fun outcome => ih outcome (h outcome)
  | together jobs next ih => exact ⟨h.1, ih _ h.2.1, fun e => ih _ (h.2.2 e)⟩

theorem ofExcept (result : Except EngineError α) : (Program.ofExcept result).Awaits .calm := by
  cases result <;> trivial

theorem group {jobs : List (Job Unit)} (wrap : EngineError → EngineError)
    (attended : Job.Attended jobs start) : (Program.group wrap jobs).Awaits start :=
  ⟨attended, rfl, fun _ => trivial⟩

theorem forEach {ι : Type} {items : List ι} {step : ι → Program Unit}
    (h : ∀ item, (step item).Awaits .calm) : (Program.forEach items step).Awaits .calm := by
  induction items with
  | nil => rfl
  | cons item rest ih => exact (h item).bind fun _ => ih

theorem reporting {program : Program Status} (name : String) (h : program.Awaits start) :
    (Reconcile.reporting name program).Awaits start := by
  show (program.handle _).Awaits start
  induction program generalizing start with
  | done value => exact h
  | fail e => trivial
  | record event next ih => exact ih h
  | call site c next ih => exact fun outcome => ih outcome (h outcome)
  | together jobs next ih => exact ⟨h.1, ih _ h.2.1, fun e => ih _ (h.2.2 e)⟩

end Program.Awaits

namespace Job

variable {stage : Upkeep} {jobs before rest : List (Job Unit)} {job : Job Unit}

theorem attended_of_quiet (quiet : ∀ job ∈ jobs, job.Quiet) : Attended jobs .calm := by
  induction jobs with
  | nil => rfl
  | cons job rest ih =>
      exact .inl ⟨quiet job List.mem_cons_self,
        ih fun other hother => quiet other (.tail job hother)⟩

/-- Any of the jobs may be taken to be the first one. -/
theorem attended_append_cons_iff :
    Attended (before ++ job :: rest) stage ↔ job.Quiet ∧ Attended (before ++ rest) stage ∨
      job.Awaits stage .calm ∧ ∀ other ∈ before ++ rest, other.Quiet := by
  induction before with
  | nil => rfl
  | cons first before ih =>
      simp only [List.cons_append, Attended, ih, List.forall_mem_cons, List.forall_mem_append]
      tauto

/-- A job that has ended well need not be attended to. -/
theorem attended_of_done (attended : Attended (before ++ .done () :: rest) stage) :
    Attended (before ++ rest) stage := by
  rcases attended_append_cons_iff.1 attended with ⟨-, others⟩ | ⟨ended, others⟩
  · exact others
  · obtain rfl : stage = .calm := ended
    exact attended_of_quiet others

end Job

def Moment.regardsGroups (moment : Moment) : Bool := moment.call.regardsGroups

theorem filter_issued_of_quiet {calls : List Call}
    (quiet : ∀ c ∈ calls, c.regardsGroups = false) :
    (calls.map Moment.issued).filter Moment.regardsGroups = [] :=
  List.filter_eq_nil_iff.2 <| List.forall_mem_map.2 fun c hc =>
    Bool.eq_false_iff.1 (quiet c hc)

theorem filter_moments (log : List Settlement) :
    (log.flatMap Settlement.moments).filter Moment.regardsGroups =
      (log.filter (·.call.regardsGroups)).flatMap Settlement.moments := by
  induction log with
  | nil => rfl
  | cons s rest ih =>
      rw [List.flatMap_cons, List.filter_append, ih, List.filter_cons]
      cases regards : s.call.regardsGroups <;>
        simp [Settlement.moments, Moment.regardsGroups, Moment.call, regards]

/-- Where some calls were due, all those about groups are settled each before the next is issued,
but for those that are left to be waited for. -/
def Accounts (due : List Call) (history : List Moment) (log : List Settlement)
    (left : List Call) : Prop :=
  (due.map Moment.issued ++ history).filter Moment.regardsGroups =
    (log.flatMap Settlement.moments ++ left.map Moment.issued).filter Moment.regardsGroups

theorem Accounts.refl (due : List Call) : Accounts due [] [] due := by simp [Accounts]

/-- A program waits for each of its own calls. -/
theorem Accounts.single (s : Settlement) : Accounts [] s.moments [s] [] := by simp [Accounts]

theorem Accounts.trans {due middle left : List Call} {history more : List Moment}
    {log others : List Settlement} (first : Accounts due history log middle)
    (second : Accounts middle more others left) :
    Accounts due (history ++ more) (log ++ others) left := by
  simp only [Accounts, List.filter_append, List.flatMap_append] at first second ⊢
  rw [← List.append_assoc, first, List.append_assoc, second, List.append_assoc]

/-- What a job still has to do. -/
def Standing.pending : Standing → Job Unit
  | .ended (.ok ()) => .done ()
  | .ended (.error e) => .fail e
  | .held job => job.pending

/-- A job that had issued the calls `due` goes on without being interrupted. -/
structure Stretch (job : Job Unit) (due : List Call) (history : List Moment)
    (log : List Settlement) (standing : Standing) : Prop where
  moments : due.map .issued ++ history =
    log.flatMap Settlement.moments ++ standing.waiting.map .issued
  quiet : job.Quiet → (∀ c ∈ log.map Settlement.call ++ standing.waiting,
    c.regardsGroups = false) ∧ standing.pending.Quiet
  awaits : ∀ stage, job.Awaits stage .calm → standing.pending.Awaits (stage.afterAll log) .calm

namespace Stretch

variable {job : Job Unit} {due : List Call} {history : List Moment} {log : List Settlement}
  {standing : Standing} {stage : Upkeep} {before rest : List (Job Unit)}

theorem attended (stretch : Stretch job due history log standing)
    (attended : Job.Attended (before ++ job :: rest) stage) :
    Job.Attended (before ++ standing.pending :: rest) (stage.afterAll log) := by
  refine Job.attended_append_cons_iff.2 ?_
  rcases Job.attended_append_cons_iff.1 attended with ⟨quiet, others⟩ | ⟨awaits, others⟩
  · obtain ⟨silent, stays⟩ := stretch.quiet quiet
    refine .inl ⟨stays, ?_⟩
    rwa [Upkeep.afterAll_of_quiet fun s hs =>
      silent s.call (List.mem_append_left _ (List.mem_map_of_mem hs))]
  · exact .inr ⟨stretch.awaits stage awaits, others⟩

/-- The calls of the others do not come in between: where the job has to do with groups, no other
one does. -/
theorem accounts (stretch : Stretch job due history log standing)
    (attended : Job.Attended (before ++ job :: rest) stage) (ahead behind : List Call)
    (alone : (∀ other ∈ before ++ rest, other.Quiet) →
      ∀ c ∈ ahead ++ behind, c.regardsGroups = false) :
    Accounts (ahead ++ due ++ behind) history log (ahead ++ standing.waiting ++ behind) := by
  have moments := congrArg (List.filter Moment.regardsGroups) stretch.moments
  simp only [Accounts, List.filter_append, List.map_append, filter_moments] at moments ⊢
  rcases Job.attended_append_cons_iff.1 attended with ⟨quiet, -⟩ | ⟨-, others⟩
  · obtain ⟨settled, waiting⟩ := List.forall_mem_append.1 (stretch.quiet quiet).1
    have unsettled : log.filter (·.call.regardsGroups) = [] :=
      List.filter_eq_nil_iff.2 fun s hs =>
        Bool.eq_false_iff.1 (settled s.call (List.mem_map_of_mem hs))
    rw [unsettled, filter_issued_of_quiet waiting] at moments ⊢
    simp only [List.flatMap_nil, List.append_nil, List.append_eq_nil_iff] at moments
    simp [moments]
  · obtain ⟨before, after⟩ := List.forall_mem_append.1 (alone others)
    rw [filter_issued_of_quiet before, filter_issued_of_quiet after]
    simpa using moments

end Stretch

section Runs

variable (config : Config) {stage : Upkeep}

theorem Job.Quiet.advance {job : Job Unit} (quiet : job.Quiet) (w : World) :
    (∀ c ∈ (job.settlements config w).map Settlement.call ++ (job.advance config w).1.waiting,
      c.regardsGroups = false) ∧ (job.advance config w).1.pending.Quiet := by
  induction job generalizing w with
  | done value => exact ⟨List.forall_mem_nil _, trivial⟩
  | fail e => exact ⟨List.forall_mem_nil _, trivial⟩
  | record event next ih => exact ih quiet (w.record event)
  | call site c next ih =>
      rw [Job.advance, settlements]
      rcases w.issue (config.timeout site.limit) c with ⟨call | outcome | call, after⟩
      · exact ⟨List.forall_mem_singleton.2 quiet.first, quiet⟩
      · obtain ⟨calls, pending⟩ := ih outcome (quiet.after outcome) after
        exact ⟨List.forall_mem_cons.2 ⟨quiet.first, calls⟩, pending⟩
      · exact ⟨List.forall_mem_singleton.2 quiet.first, quiet⟩

theorem Job.Awaits.advance {job : Job Unit} (awaits : job.Awaits stage .calm) (w : World) :
    (job.advance config w).1.pending.Awaits (stage.afterAll (job.settlements config w)) .calm := by
  induction job generalizing stage w with
  | done value => exact awaits
  | fail e => trivial
  | record event next ih => exact ih awaits (w.record event)
  | call site c next ih =>
      rw [Job.advance, settlements]
      rcases w.issue (config.timeout site.limit) c with ⟨call | outcome | call, after⟩
      · exact awaits
      · exact ih outcome (awaits outcome) after
      · exact awaits

theorem Job.stretch_advance (job : Job Unit) (w : World) :
    Stretch job [] (job.history config w) (job.settlements config w)
      (job.advance config w).1 where
  moments := job.history_eq config w
  quiet quiet := quiet.advance config w
  awaits _ awaits := awaits.advance config w

theorem Held.quiet_call {job : Held} (quiet : job.pending.Quiet) :
    job.call.regardsGroups = false := by
  cases job <;> exact quiet.first

theorem Held.quiet_calls {held : List Held} (quiet : ∀ job ∈ held.map Held.pending, job.Quiet) :
    ∀ c ∈ held.map Held.call, c.regardsGroups = false :=
  List.forall_mem_map.2 fun _ hjob => quiet_call (List.forall_mem_map.1 quiet _ hjob)

theorem World.stretch_wake (w : World) (job : Held) :
    Stretch job.pending [job.call] (w.historyByWake config job) (w.settledByWake config job)
      (w.wake config job).1 := by
  refine ⟨w.historyByWake_eq config job, ?quiet, ?awaits⟩
  case quiet =>
    intro quiet
    cases w.wakes config job with
    | waits again after woken log pending call calls events =>
        rw [← pending] at quiet
        rw [woken, log]
        exact ⟨List.forall_mem_singleton.2 (again.quiet_call quiet), quiet⟩
    | goes site c next outcome after woken log pending call calls events =>
        rw [pending] at quiet
        obtain ⟨silent, stays⟩ := Job.Quiet.advance config (quiet.after outcome) after
        rw [woken, log]
        exact ⟨List.forall_mem_cons.2 ⟨quiet.first, silent⟩, stays⟩
  case awaits =>
    intro stage awaits
    cases w.wakes config job with
    | waits again after woken log pending call calls events =>
        rw [← pending] at awaits
        rw [woken, log]
        exact awaits
    | goes site c next outcome after woken log pending call calls events =>
        rw [pending] at awaits
        rw [woken, log]
        exact (awaits outcome).advance config after

/-- Starting jobs besides those that are held. -/
theorem World.startAll_attended {jobs : List (Job Unit)} (held : List Held) (w : World)
    {more : List Held} (attended : Job.Attended (held.map Held.pending ++ jobs) stage)
    (started : (w.startAll config jobs).1 = .ok more) :
    Job.Attended ((held ++ more).map Held.pending)
        (stage.afterAll (w.settledByStart config jobs)) ∧
      Accounts (held.map Held.call) (w.historyByStart config jobs) (w.settledByStart config jobs)
        ((held ++ more).map Held.call) := by
  induction jobs generalizing held more stage w with
  | nil =>
      cases started
      rw [List.append_nil] at attended ⊢
      exact ⟨attended, .refl _⟩
  | cons job rest ih =>
      have stretch := job.stretch_advance config w
      have stays := stretch.attended attended
      have accounts := stretch.accounts attended (held.map Held.call) [] fun others c hc =>
        Held.quiet_calls (fun job hjob => others job (List.mem_append_left _ hjob)) c
          (by simpa using hc)
      simp only [List.append_nil] at accounts
      rw [World.startAll] at started
      rw [World.settledByStart, World.historyByStart]
      rcases advanced : job.advance config w with ⟨(e | value) | waiting, after⟩
      all_goals rw [advanced] at started stays accounts
      · cases started
      · obtain ⟨ends, all⟩ := ih held after (Job.attended_of_done stays) started
        refine ⟨by simpa using ends, Accounts.trans ?_ all⟩
        simpa [Standing.waiting] using accounts
      · cases waits : (after.startAll config rest).1 with
        | error e => simp [waits, Except.map] at started
        | ok further =>
            obtain rfl : waiting :: further = more := by
              simpa [waits, Except.map] using started
            have reached : Job.Attended ((held ++ [waiting]).map Held.pending ++ rest)
                (stage.afterAll (job.settlements config w)) := by
              simpa [Standing.pending] using stays
            obtain ⟨ends, all⟩ := ih _ after reached waits
            rw [List.append_cons held]
            refine ⟨by simpa using ends, Accounts.trans ?_ all⟩
            simpa [Standing.waiting] using accounts

/-- One of several held jobs goes on. -/
theorem World.wake_attended (w : World) {before rest : List Held} {job : Held}
    (attended : Job.Attended ((before ++ job :: rest).map Held.pending) stage) :
    Job.Attended
        (before.map Held.pending ++ (w.wake config job).1.pending :: rest.map Held.pending)
        (stage.afterAll (w.settledByWake config job)) ∧
      Accounts ((before ++ job :: rest).map Held.call) (w.historyByWake config job)
        (w.settledByWake config job)
        (before.map Held.call ++ (w.wake config job).1.waiting ++ rest.map Held.call) := by
  rw [List.map_append, List.map_cons] at attended
  have stretch := w.stretch_wake config job
  refine ⟨stretch.attended attended, ?_⟩
  have accounts := stretch.accounts attended (before.map Held.call) (rest.map Held.call)
    fun others => by
      rw [← List.map_append] at others ⊢
      exact Held.quiet_calls others
  simpa using accounts

/-- Held jobs that all end well leave no change that was not waited for. -/
theorem World.runHeld_attended (held : List Held) (w : World)
    (attended : Job.Attended (held.map Held.pending) stage)
    (completes : (w.runHeld config held).1 = .ok ()) :
    stage.afterAll (w.settledByHeld config held) = .calm ∧
      Accounts (held.map Held.call) (w.historyByHeld config held) (w.settledByHeld config held)
        [] := by
  fun_induction World.runHeld config held w generalizing stage with
  | case1 held w none =>
      obtain rfl := Held.earliest_eq_none none
      rw [World.settledByHeld, World.historyByHeld]
      exact ⟨attended, .refl []⟩
  | case2 held w before job after split e next woken => cases completes
  | case3 held w before job after split next woken ih =>
      rw [World.settledByHeld_eq split, World.historyByHeld_eq split, woken]
      rw [Held.earliest_eq split] at attended ⊢
      obtain ⟨stays, accounts⟩ := w.wake_attended config attended
      rw [woken] at stays accounts
      obtain ⟨ends, all⟩ := ih (by simpa using Job.attended_of_done stays) completes
      refine ⟨by simpa using ends, Accounts.trans ?_ all⟩
      simpa [Standing.waiting] using accounts
  | case4 held w before job after split again next woken ih =>
      rw [World.settledByHeld_eq split, World.historyByHeld_eq split, woken]
      rw [Held.earliest_eq split] at attended ⊢
      obtain ⟨stays, accounts⟩ := w.wake_attended config attended
      rw [woken] at stays accounts
      obtain ⟨ends, all⟩ := ih (by simpa [Standing.pending] using stays) completes
      refine ⟨by simpa using ends, Accounts.trans ?_ all⟩
      simpa [Standing.waiting] using accounts

/-- A group that ends well leaves no change that was not waited for. -/
theorem World.runTogether_attended {jobs : List (Job Unit)} (w : World)
    (attended : Job.Attended jobs stage) (completes : (w.runTogether config jobs).1 = .ok ()) :
    stage.afterAll (w.settledTogether config jobs) = .calm ∧
      Accounts [] (w.historyTogether config jobs) (w.settledTogether config jobs) [] := by
  rw [World.runTogether] at completes
  rw [World.settledTogether, World.historyTogether]
  rcases started : w.startAll config jobs with ⟨e | held, after⟩
  all_goals rw [started] at completes
  · cases completes
  · have result : (w.startAll config jobs).1 = .ok held := by rw [started]
    obtain ⟨stays, accounts⟩ := World.startAll_attended config [] w attended result
    obtain ⟨ends, all⟩ := after.runHeld_attended config held stays completes
    exact ⟨by simpa using ends, accounts.trans all⟩

/-- A program that comes to a value has waited for all its changes, and its calls about groups came
to their ends in the order in which they were issued. -/
theorem Program.Awaits.simulate {program : Program α} (awaits : program.Awaits stage) {value : α}
    (w : World) (completes : (program.simulate config w).1 = .ok value) :
    stage.afterAll (program.settlements config w) = .calm ∧
      Accounts [] (program.history config w) (program.settlements config w) [] := by
  induction program generalizing stage w with
  | done result => exact ⟨awaits, .refl []⟩
  | fail e => cases completes
  | record event next ih => exact ih awaits (w.record event) completes
  | call site c next ih =>
      obtain ⟨ends, all⟩ := ih _ (awaits _) _ completes
      have first := Accounts.single
        ⟨site, c, (w.await (config.timeout site.limit) c).1,
          (w.await (config.timeout site.limit) c).2.cloud.inventory, false⟩
      exact ⟨ends, first.trans all⟩
  | together jobs next ih =>
      obtain ⟨attended, continues, fails⟩ := awaits
      rw [Program.simulate] at completes
      rw [settlements, history, Upkeep.afterAll_append]
      cases result : (w.runTogether config jobs).1 with
      | error e =>
          rw [result] at completes
          have ends := (ih _ (fails e) _ completes).1
          rw [Upkeep.afterAll_broken] at ends
          cases ends
      | ok value =>
          rw [result] at completes
          obtain ⟨calm, accounts⟩ := w.runTogether_attended config attended result
          obtain ⟨ends, all⟩ := ih _ continues _ completes
          rw [calm]
          exact ⟨ends, accounts.trans all⟩

end Runs

/-- The calls about groups that a run issues are settled each before the next is issued, and all
changes among them are waited for. -/
structure Program.AwaitsChanges (program : Program α) (config : Config) (w : World) : Prop where
  issued : (program.simulate config w).2.calls =
    w.calls ++ (program.history config w).filterMap Moment.issue?
  inTurn : (program.history config w).filter Moment.regardsGroups =
    ((program.settlements config w).filter (·.call.regardsGroups)).flatMap Settlement.moments
  awaited : Awaited ((program.settlements config w).filter (·.call.regardsGroups))

theorem Program.Awaits.awaitsChanges {program : Program α} (awaits : program.Awaits .calm)
    (config : Config) (w : World) {value : α}
    (completes : (program.simulate config w).1 = .ok value) : program.AwaitsChanges config w := by
  obtain ⟨ends, accounts⟩ := awaits.simulate config w completes
  refine ⟨program.calls_history config w, ?_,
    Upkeep.awaited (fun s hs => (List.mem_filter.1 hs).2) ?_⟩
  · simpa [Accounts, filter_moments] using accounts
  · rwa [Upkeep.afterAll_filter]

end CloudBalancer
