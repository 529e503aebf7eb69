import CloudBalancer.Proofs.Administration
import CloudBalancer.Proofs.Settlements

/-!
Which call a failure is due to. A program answers for its calls if it stops at the first one that
fails, with an error that says what the call was for and what became of it, and has no other errors
of its own as long as what it is told of its balancer is true. A run of such a program fails just if
one of its calls has, and that is the last one to be settled.
-/

namespace CloudBalancer

variable {α β : Type}

namespace Call

/-- The instances that a call asks the cloud to let go. Their groups are looked up next. -/
def leaves : Call → Option (List String)
  | .deregisterBackends .elastic _ backends => some (instanceIds backends)
  | _ => none

/-- Whether a call that is refused with this code has not failed: what it was to achieve is there
already, or there is nothing to look up. The call before it let go of `leaving`. -/
def harmless (leaving : Option (List String)) : Call → ErrorCode → Bool
  | .describe k _, code => code = k.notFound
  | .deregisterBackends .elastic _ _, code => code = .instanceNotFound
  | .groupsOf ids, code => leaving = some ids && code = .instanceNotFound
  | .authorize _ _, code => code = .duplicateRule
  | .revoke _ _, code => code = .ingressNotFound
  | _, _ => false

def fails (leaving : Option (List String)) (c : Call) : Outcome c.Answer → Bool
  | .answered _ => false
  | .refused e => !c.harmless leaving e.code
  | .timedOut => true

/-- The error of a call that was refused or given up. -/
def cause (target : Target) (c : Call) : Outcome c.Answer → Option EngineError
  | .answered _ => none
  | .refused e => some (.remote c.operation target e)
  | .timedOut => some (.timeout c.operation target)

/-- What a call may be for: the balancer or the port that it names. One about groups names none, but
is for a port. -/
def Concerns (target : Target) : Call → Prop
  | .describe _ name => target = .balancer name
  | .create _ p | .registerPort _ p | .update _ p | .deletePort _ p
  | .configureHealthCheck _ p => target = .ofPort p
  | .registerBackends _ p _ | .deregisterBackends _ p _ | .setFilter _ p _ => target = .ofPort p
  | .groupsOf _ | .authorize _ _ | .revoke _ _ | .awaitApplied _ => target.pair ≠ none

end Call

namespace Settlement

/-- The calls that have failed, after one that let go of `leaving`. -/
def failures : Option (List String) → List Settlement → List Settlement
  | _, [] => []
  | leaving, s :: rest =>
    if s.call.fails leaving s.outcome then s :: failures s.call.leaves rest
    else failures s.call.leaves rest

/-- The error tells which call has failed, what it was made for and why it has failed, and whether
that was in a group. -/
def Explains (aims : Target → Prop) (s : Settlement) (e : EngineError) : Prop :=
  ∃ cause, aims s.site.target ∧ s.call.Concerns s.site.target ∧
    s.call.cause s.site.target s.outcome = some cause ∧
    e = if s.grouped then .sideEffect s.site.target cause else cause

/-- The result of a run is due to its calls: it is an error just if one of them has failed, at which
the run stopped. -/
def Accounts (aims : Target → Prop) (leaving : Option (List String)) (log : List Settlement) :
    Except EngineError α → Prop
  | .ok _ => failures leaving log = []
  | .error e => ∃ s, failures leaving log = [s] ∧ log.getLast? = some s ∧ s.Explains aims e

/-- Each call that was issued has been settled, or was dropped with its group if the run failed. -/
def Covers (former issued : List Call) (log : List Settlement) (result : Except EngineError α) :
    Prop :=
  ∃ dropped, issued.Perm (former ++ (log.map Settlement.call ++ dropped)) ∧
    ∀ value, result = .ok value → dropped = []

/-- The error that a call was refused with. -/
def refusal (s : Settlement) : Option ApiError :=
  match s.outcome with
  | .refused e => some e
  | _ => none

/-- The balancer is said to be missing. -/
def denies (k : Kind) (name : String) (s : Settlement) : Bool :=
  match s.call, s.refusal with
  | .describe k' other, some e => k' = k && other = name && e.code = k.notFound
  | _, _ => false

/-- The balancer is not said to be missing while it is there. -/
def Honest (k : Kind) (name : String) (s : Settlement) : Prop :=
  s.denies k name = true → s.inventory.ports k name = []

instance (k : Kind) (name : String) (s : Settlement) : Decidable (s.Honest k name) :=
  inferInstanceAs (Decidable (_ → _))

variable {aims : Target → Prop} {leaving : Option (List String)} {log more : List Settlement}
  {s : Settlement}

theorem failures_cons_of_fails (fails : s.call.fails leaving s.outcome = true) :
    failures leaving (s :: log) = s :: failures s.call.leaves log := by
  rw [failures, if_pos fails]

theorem failures_cons_of_passes (passes : s.call.fails leaving s.outcome = false) :
    failures leaving (s :: log) = failures s.call.leaves log := by
  rw [failures, passes, if_neg Bool.false_ne_true]

theorem failures_append (quiet : ∀ s ∈ log, s.call.leaves = none) :
    failures none (log ++ more) = failures none log ++ failures none more := by
  induction log with
  | nil => rfl
  | cons s rest ih =>
      obtain ⟨hs, hrest⟩ := List.forall_mem_cons.1 quiet
      rw [List.cons_append, failures, failures, hs, ih hrest]
      split <;> rfl

theorem Accounts.cons {result : Except EngineError α}
    (accounts : Accounts aims s.call.leaves log result)
    (passes : s.call.fails leaving s.outcome = false) :
    Accounts aims leaving (s :: log) result := by
  cases result with
  | ok value => exact (failures_cons_of_passes passes).trans accounts
  | error e =>
      obtain ⟨last, failed, hlast, explains⟩ := accounts
      refine ⟨last, (failures_cons_of_passes passes).trans failed, ?_, explains⟩
      rw [List.getLast?_cons, hlast]
      rfl

theorem Accounts.append {result : Except EngineError α} (accounts : Accounts aims none more result)
    (passed : failures none log = []) (quiet : ∀ s ∈ log, s.call.leaves = none) :
    Accounts aims none (log ++ more) result := by
  cases result with
  | ok value => exact (failures_append quiet).trans (by rw [passed]; exact accounts)
  | error e =>
      obtain ⟨last, failed, hlast, explains⟩ := accounts
      refine ⟨last, by rw [failures_append quiet, passed, failed]; rfl, ?_, explains⟩
      rw [List.getLast?_append, hlast]
      rfl

theorem Covers.cons {former issued : List Call} {result : Except EngineError α}
    (covers : Covers (former ++ [s.call]) issued log result) :
    Covers former issued (s :: log) result := by
  obtain ⟨dropped, perm, none⟩ := covers
  exact ⟨dropped, by simpa using perm, none⟩

theorem Covers.append {former between issued : List Call} {result : Except EngineError α}
    (covers : Covers between issued more result)
    (group : between.Perm (former ++ log.map Settlement.call)) :
    Covers former issued (log ++ more) result := by
  obtain ⟨dropped, perm, none⟩ := covers
  refine ⟨dropped, perm.trans ?_, none⟩
  rw [List.map_append, List.append_assoc, ← List.append_assoc former]
  exact group.append_right _

end Settlement

/-- What a program knows of its balancer: the pairs of the ports, and the instances that the cloud
was just asked to let go. -/
structure Known where
  pairs : List PortPair
  leaving : Option (List String)

/-- What is known once the cloud has done its part. -/
def Known.after (known : Known) (c : Call) : Known where
  pairs :=
    match c with
    | .create _ p => [p.pair]
    | .registerPort _ p => known.pairs ++ [p.pair]
    | .deletePort _ p => known.pairs.filter (· ≠ p.pair)
    | _ => known.pairs
  leaving := c.leaves

/-- The call adds no port to a balancer, takes none away and lets go of no instances. -/
def Call.Steady (c : Call) : Prop :=
  ∀ pairs, Known.after ⟨pairs, none⟩ c = ⟨pairs, none⟩

/-- What calls a program may make, what for, and what it is told by those that have not failed. -/
structure Duty where
  allowed : Call → Prop
  aims : Target → Prop
  heard : Known → (c : Call) → Outcome c.Answer → Prop

/-- What is left to the jobs of a group. -/
def Duty.beside (duty : Duty) (target : Target) : Duty where
  allowed c := duty.allowed c ∧ c.Steady
  aims := (· = target)
  heard _ _ _ := True

/-- Groups may be looked up and changed for the target. -/
structure Duty.LetsAsk (duty : Duty) (target : Target) : Prop where
  aims : duty.aims target
  paired : target.pair ≠ none
  groupsOf : ∀ ids, duty.allowed (.groupsOf ids)
  authorize : ∀ group rule, duty.allowed (.authorize group rule)
  revoke : ∀ group rule, duty.allowed (.revoke group rule)
  awaits : ∀ group, duty.allowed (.awaitApplied group)

theorem Duty.LetsAsk.beside {duty : Duty} {target : Target} (asks : duty.LetsAsk target) :
    (duty.beside target).LetsAsk target :=
  ⟨rfl, asks.paired, fun ids => ⟨asks.groupsOf ids, fun _ => rfl⟩,
    fun group rule => ⟨asks.authorize group rule, fun _ => rfl⟩,
    fun group rule => ⟨asks.revoke group rule, fun _ => rfl⟩,
    fun group => ⟨asks.awaits group, fun _ => rfl⟩⟩

/-- A job answers for its calls: where one fails, it fails at once and says why, and for no other
reason. -/
def Job.Answers (duty : Duty) (post : α → Known → Prop) : Job α → Known → Prop
  | .done value, known => post value known
  | .fail _, _ => False
  | .record _ next, known => next.Answers duty post known
  | .call site c next, known =>
    duty.allowed c ∧ duty.aims site.target ∧ c.Concerns site.target ∧ ∀ outcome,
      if c.fails known.leaving outcome then
        ∃ cause, c.cause site.target outcome = some cause ∧ next outcome = .fail cause
      else duty.heard known c outcome → (next outcome).Answers duty post (known.after c)

/-- As for jobs. The failure of a group is presented as that of a side effect. -/
def Program.Answers (duty : Duty) (post : α → Known → Prop) : Program α → Known → Prop
  | .done value, known => post value known
  | .fail _, _ => False
  | .record _ next, known => next.Answers duty post known
  | .call site c next, known =>
    duty.allowed c ∧ duty.aims site.target ∧ c.Concerns site.target ∧ ∀ outcome,
      if c.fails known.leaving outcome then
        ∃ cause, c.cause site.target outcome = some cause ∧ next outcome = .fail cause
      else duty.heard known c outcome → (next outcome).Answers duty post (known.after c)
  | .together jobs next, known =>
    known.leaving = none ∧ ∃ target, duty.aims target ∧
      (∀ job ∈ jobs, job.Answers (duty.beside target) (fun _ _ => True) known) ∧
      (∀ e, next (.error e) = .fail (.sideEffect target e)) ∧
      (next (.ok ())).Answers duty post known

namespace Job.Answers

variable {duty : Duty} {post : α → Known → Prop} {after : β → Known → Prop} {known : Known}
  {pairs : List PortPair}

theorem bind {job : Job α} {f : α → Job β} (h : job.Answers duty post known)
    (hf : ∀ value known, post value known → (f value).Answers duty after known) :
    (job >>= f).Answers duty after known := by
  show (job.bind f).Answers duty after known
  induction job generalizing known with
  | done value => exact hf value known h
  | fail e => exact h
  | record event next ih => exact ih h
  | call site c next ih =>
      obtain ⟨allowed, aims, concerns, outcomes⟩ := h
      refine ⟨allowed, aims, concerns, fun outcome => ?_⟩
      have hnext := outcomes outcome
      split at hnext
      · next fails =>
        obtain ⟨cause, hcause, stops⟩ := hnext
        rw [if_pos fails]
        exact ⟨cause, hcause, congrArg (·.bind f) stops⟩
      · next passes =>
        rw [if_neg passes]
        exact fun heard => ih outcome (hnext heard)

theorem imp {weaker : α → Known → Prop} {job : Job α} (h : job.Answers duty post known)
    (himp : ∀ value known, post value known → weaker value known) :
    job.Answers duty weaker known := by
  have bound : (job >>= pure).Answers duty weaker known := h.bind himp
  rwa [bind_pure] at bound

theorem ofExcept {result : Except EngineError α} {value : α} (h : result = .ok value)
    (hpost : post value known) : (Job.ofExcept result).Answers duty post known := by
  rw [h]
  exact hpost

theorem remote {limit : Limit} {c : Call} {target : Target} {post : c.Answer → Known → Prop}
    (allowed : duty.allowed c) (aims : duty.aims target) (concerns : c.Concerns target)
    (plain : ∀ code, c.harmless known.leaving code = false)
    (h : ∀ value, duty.heard known c (.answered value) → post value (known.after c)) :
    (Job.remote limit target c).Answers duty post known := by
  refine ⟨allowed, aims, concerns, fun outcome => ?_⟩
  cases outcome with
  | answered value => exact h value
  | refused e =>
      rw [Call.fails, plain]
      exact ⟨_, rfl, rfl⟩
  | timedOut => exact ⟨_, rfl, rfl⟩

/-- A call whose answer does not matter. -/
theorem call {limit : Limit} {c : Call} {target : Target} (allowed : duty.allowed c)
    (aims : duty.aims target) (concerns : c.Concerns target)
    (plain : ∀ code, c.harmless known.leaving code = false) :
    (Job.remote limit target c).Answers duty (fun _ after => after = known.after c) known :=
  remote allowed aims concerns plain fun _ _ => rfl

theorem remoteUnless {limit : Limit} {c : Call} {target : Target} {code : ErrorCode}
    {post : Option c.Answer → Known → Prop} (allowed : duty.allowed c) (aims : duty.aims target)
    (concerns : c.Concerns target)
    (harmless : ∀ other, c.harmless known.leaving other = decide (other = code))
    (h : ∀ value, duty.heard known c (.answered value) → post (some value) (known.after c))
    (hnone : ∀ e, e.code = code → duty.heard known c (.refused e) → post none (known.after c)) :
    (Job.remoteUnless code limit target c).Answers duty post known := by
  refine ⟨allowed, aims, concerns, fun outcome => ?_⟩
  cases outcome with
  | answered value => exact h value
  | refused e =>
      rw [Call.fails, harmless]
      by_cases same : e.code = code
      · simp only [same, decide_true, Bool.not_true]
        exact hnone e same
      · simp only [same, decide_false, Bool.not_false]
        exact ⟨_, rfl, rfl⟩
  | timedOut => exact ⟨_, rfl, rfl⟩

/-- Steps that change the ports of the balancer one after the other. -/
theorem forEach {ι : Type} {items : List ι} {step : ι → Job Unit}
    {change : List PortPair → ι → List PortPair}
    (h : ∀ item ∈ items, ∀ pairs,
      (step item).Answers duty (fun _ known => known = ⟨change pairs item, none⟩) ⟨pairs, none⟩)
    (pairs : List PortPair) :
    (Job.forEach items step).Answers duty
      (fun _ known => known = ⟨items.foldl change pairs, none⟩) ⟨pairs, none⟩ := by
  induction items generalizing pairs with
  | nil => rfl
  | cons item rest ih =>
      rw [Job.forEach_cons]
      refine (h item List.mem_cons_self pairs).bind fun _ known changed => ?_
      subst changed
      exact ih (fun i hi => h i (.tail item hi)) _

end Job.Answers

/-- A job that answers for its calls and leaves the ports of the balancer as they are. -/
def Job.Tends (duty : Duty) (pairs : List PortPair) (job : Job α) : Prop :=
  job.Answers duty (fun _ known => known = ⟨pairs, none⟩) ⟨pairs, none⟩

namespace Job.Tends

variable {duty : Duty} {after : β → Known → Prop} {pairs : List PortPair}

theorem seq {job : Job α} {f : α → Job β} (h : job.Tends duty pairs)
    (hf : ∀ value, (f value).Answers duty after ⟨pairs, none⟩) :
    (job >>= f).Answers duty after ⟨pairs, none⟩ :=
  h.bind fun value _ same => same ▸ hf value

theorem ofExcept {result : Except EngineError α} (h : ∃ value, result = .ok value) :
    (Job.ofExcept result).Tends duty pairs := by
  obtain ⟨value, rfl⟩ := h
  rfl

theorem remote {limit : Limit} {c : Call} {target : Target} (allowed : duty.allowed c)
    (aims : duty.aims target) (concerns : c.Concerns target) (steady : c.Steady)
    (plain : ∀ code, c.harmless none code = false) : (Job.remote limit target c).Tends duty pairs :=
  Job.Answers.remote allowed aims concerns plain fun _ _ => steady pairs

theorem remoteUnless {limit : Limit} {c : Call} {target : Target} {code : ErrorCode}
    (allowed : duty.allowed c) (aims : duty.aims target) (concerns : c.Concerns target)
    (steady : c.Steady)
    (harmless : ∀ other, c.harmless none other = decide (other = code)) :
    (Job.remoteUnless code limit target c).Tends duty pairs :=
  Job.Answers.remoteUnless allowed aims concerns harmless (fun _ _ => steady pairs)
    fun _ _ _ => steady pairs

theorem forEach {ι : Type} {items : List ι} {step : ι → Job Unit}
    (h : ∀ item ∈ items, (step item).Tends duty pairs) :
    (Job.forEach items step).Tends duty pairs := by
  induction items with
  | nil => rfl
  | cons item rest ih =>
      rw [Job.forEach_cons]
      exact (h item List.mem_cons_self).seq fun _ => ih fun i hi => h i (.tail item hi)

/-- An optional step and what follows it. -/
theorem optional {c : Prop} [Decidable c] {step : Job Unit} {f : Unit → Job β}
    (h : ¬ c → step.Tends duty pairs) (hf : (f ()).Answers duty after ⟨pairs, none⟩) :
    (if c then f () else step >>= f).Answers duty after ⟨pairs, none⟩ := by
  split
  · exact hf
  · next skipped => exact (h skipped).seq fun _ => hf

end Job.Tends

namespace Program.Answers

variable {duty : Duty} {post : α → Known → Prop} {after : β → Known → Prop} {known : Known}
  {pairs : List PortPair}

theorem ofJob {job : Job α} (h : job.Answers duty post known) :
    (Program.ofJob job).Answers duty post known := by
  induction job generalizing known with
  | done value => exact h
  | fail e => exact h
  | record event next ih => exact ih h
  | call site c next ih =>
      obtain ⟨allowed, aims, concerns, outcomes⟩ := h
      refine ⟨allowed, aims, concerns, fun outcome => ?_⟩
      have hnext := outcomes outcome
      split at hnext
      · next fails =>
        obtain ⟨cause, hcause, stops⟩ := hnext
        rw [if_pos fails]
        exact ⟨cause, hcause, congrArg Program.ofJob stops⟩
      · next passes =>
        rw [if_neg passes]
        exact fun heard => ih outcome (hnext heard)

theorem bind {program : Program α} {f : α → Program β} (h : program.Answers duty post known)
    (hf : ∀ value known, post value known → (f value).Answers duty after known) :
    (program >>= f).Answers duty after known := by
  show (program.bind f).Answers duty after known
  induction program generalizing known with
  | done value => exact hf value known h
  | fail e => exact h
  | record event next ih => exact ih h
  | call site c next ih =>
      obtain ⟨allowed, aims, concerns, outcomes⟩ := h
      refine ⟨allowed, aims, concerns, fun outcome => ?_⟩
      have hnext := outcomes outcome
      split at hnext
      · next fails =>
        obtain ⟨cause, hcause, stops⟩ := hnext
        rw [if_pos fails]
        exact ⟨cause, hcause, congrArg (·.bind f) stops⟩
      · next passes =>
        rw [if_neg passes]
        exact fun heard => ih outcome (hnext heard)
  | together jobs next ih =>
      obtain ⟨quiet, target, aims, group, fails, passes⟩ := h
      exact ⟨quiet, target, aims, group, fun e => congrArg (·.bind f) (fails e), ih _ passes⟩

theorem ofExcept {result : Except EngineError α} {value : α} (h : result = .ok value)
    (hpost : post value known) : (Program.ofExcept result).Answers duty post known := by
  rw [h]
  exact hpost

theorem group {jobs : List (Job Unit)} {target : Target} (aims : duty.aims target)
    (h : ∀ job ∈ jobs, job.Tends (duty.beside target) pairs) :
    (Program.group (.sideEffect target) jobs).Answers duty
      (fun _ known => known = ⟨pairs, none⟩) ⟨pairs, none⟩ :=
  ⟨rfl, target, aims, fun job hjob => (h job hjob).imp fun _ _ _ => trivial, fun _ => rfl, rfl⟩

theorem forEach {ι : Type} {items : List ι} {step : ι → Program Unit}
    (h : ∀ item ∈ items,
      (step item).Answers duty (fun _ known => known = ⟨pairs, none⟩) ⟨pairs, none⟩) :
    (Program.forEach items step).Answers duty
      (fun _ known => known = ⟨pairs, none⟩) ⟨pairs, none⟩ := by
  induction items with
  | nil => rfl
  | cons item rest ih =>
      rw [Program.forEach_cons]
      refine (h item List.mem_cons_self).bind fun _ known same => ?_
      subst same
      exact ih fun i hi => h i (.tail item hi)

end Program.Answers

namespace Settlement

variable {duty : Duty} {target : Target} {known : Known} {log more : List Settlement}

/-- No call of a group has failed so far. -/
def Smooth (log : List Settlement) : Prop :=
  failures none log = [] ∧ ∀ s ∈ log, s.call.leaves = none

/-- A call of a group, the last one, has failed with the error. -/
def Breaks (target : Target) (log : List Settlement) (e : EngineError) : Prop :=
  ∃ s, failures none log = [s] ∧ log.getLast? = some s ∧ s.grouped = true ∧
    s.site.target = target ∧ s.call.Concerns target ∧ s.call.cause target s.outcome = some e

theorem Smooth.append (smooth : Smooth log) (more_smooth : Smooth more) : Smooth (log ++ more) :=
  ⟨by rw [failures_append smooth.2, smooth.1, more_smooth.1]; rfl,
    List.forall_mem_append.2 ⟨smooth.2, more_smooth.2⟩⟩

theorem Smooth.breaks {e : EngineError} (smooth : Smooth log) (breaks : Breaks target more e) :
    Breaks target (log ++ more) e := by
  obtain ⟨s, failed, hlast, rest⟩ := breaks
  refine ⟨s, by rw [failures_append smooth.2, smooth.1, failed]; rfl, ?_, rest⟩
  rw [List.getLast?_append, hlast]
  rfl

/-- A job of a group goes on without a failure, or is about to stop at one. -/
def answering (duty : Duty) (target : Target) (pairs : List PortPair) : Ledger where
  stands log _ job :=
    Smooth log ∧ job.Answers (duty.beside target) (fun _ _ => True) ⟨pairs, none⟩ ∨
      ∃ e, job = .fail e ∧ Breaks target log e
  balanced log _ := Smooth log
  broken log _ e := Breaks target log e

theorem answering_sound (duty : Duty) (target : Target) (pairs : List PortPair) :
    (answering duty target pairs).Sound where
  nil := ⟨rfl, by simp⟩
  append := Smooth.append
  breaks := Smooth.breaks
  done := by
    intro log trail stands
    cases stands with
    | inl stands => exact stands.1
    | inr stands =>
        obtain ⟨e, stops, -⟩ := stands
        cases stops
  fail := by
    intro log trail e stands
    cases stands with
    | inl stands => exact stands.2.elim
    | inr stands =>
        obtain ⟨e, stops, breaks⟩ := stands
        cases stops
        exact breaks
  record := by
    intro log trail event next stands
    cases stands with
    | inl stands => exact .inl stands
    | inr stands =>
        obtain ⟨e, stops, -⟩ := stands
        cases stops
  call := by
    intro log trail site c next stands
    cases stands with
    | inl stands => exact ⟨stands.1, .inl ⟨⟨rfl, by simp⟩, stands.2⟩⟩
    | inr stands =>
        obtain ⟨e, stops, -⟩ := stands
        cases stops
  settle := by
    intro site c next stands outcome inventory
    cases stands with
    | inr stands =>
        obtain ⟨e, stops, -⟩ := stands
        cases stops
    | inl stands =>
        obtain ⟨⟨-, steady⟩, aimed, concerns, outcomes⟩ := stands.2
        obtain rfl : site.target = target := aimed
        have hnext := outcomes outcome
        have leaves : c.leaves = none := congrArg Known.leaving (steady [])
        split at hnext
        · next fails =>
          obtain ⟨cause, hcause, stops⟩ := hnext
          exact .inr
            ⟨cause, stops, _, failures_cons_of_fails fails, rfl, rfl, rfl, concerns, hcause⟩
        · next passes =>
          rw [Bool.not_eq_true] at passes
          refine .inl ⟨⟨failures_cons_of_passes passes, by simp [leaves]⟩, ?_⟩
          have same := hnext trivial
          rwa [steady] at same

/-- A group answers for its calls. -/
theorem concludes_group {jobs : List (Job Unit)} {pairs : List PortPair}
    (answers : ∀ job ∈ jobs, job.Answers (duty.beside target) (fun _ _ => True) ⟨pairs, none⟩)
    (config : Config) (w : World) :
    match (w.runTogether config jobs).1 with
    | .ok () => Smooth (w.settledTogether config jobs)
    | .error e => Breaks target (w.settledTogether config jobs) e := by
  obtain ⟨fresh, -, concludes⟩ := Ledger.runTogether (answering_sound duty target pairs) config
    (fun job hjob => .inl ⟨⟨rfl, by simp⟩, answers job hjob⟩) w
  cases hresult : (w.runTogether config jobs).1 with
  | ok value =>
      rw [hresult] at concludes
      exact concludes
  | error e =>
      rw [hresult] at concludes
      exact concludes

end Settlement

open Reconcile.Elastic

/-- The rules of the port can be derived, if it has any. -/
def Kind.Routable : (k : Kind) → k.Port → Prop
  | .l4, _ => True
  | .elastic, p => Reconcile.Elastic.Routable p

/-- The ports are those of the balancer. -/
structure Told (k : Kind) (name : String) (pairs : List PortPair) (ports : List k.Port) : Prop where
  pairs : ports.map Port.pair = pairs
  named : ∀ p ∈ ports, p.name = name
  routable : ∀ p ∈ ports, k.Routable p

/-- Only the ports of the balancer are described, and become more or fewer. -/
def Call.Minds (k : Kind) (name : String) : Call → Prop
  | .describe k' other => k' = k ∧ other = name
  | .create k' p | .registerPort k' p | .deletePort k' p => k' = k ∧ p.name = name
  | _ => True

/-- The balancer, or a port of it with one of the pairs. -/
def Target.Among (name : String) (scope : List PortPair) (target : Target) : Prop :=
  target.name = name ∧ ∀ pair, target.pair = some pair → pair ∈ scope

/-- The duty of an operation on a balancer, the ports of which have pairs in `scope`. -/
def minding (k : Kind) (name : String) (scope : List PortPair) : Duty where
  allowed c := provision.allowed c ∧ c.Minds k name
  aims := Target.Among name scope
  heard known c outcome :=
    match c, outcome with
    | .describe k' _, .answered ports => Told k' name known.pairs ports
    | .describe _ _, .refused _ => known.pairs = []
    | _, _ => True

/-- The cloud is in order and tells the truth, and what is known of the balancer is true. -/
structure World.Minded (k : Kind) (name : String) (known : Known) (w : World) : Prop where
  truthful : w.script.Truthful
  provisioned : Provisioned w.cloud.inventory
  stocked : w.cloud.inventory.Stocked k
  pairs : (w.cloud.inventory.ports k name).map Port.pair = known.pairs

namespace Inventory

variable {k : Kind} {name : String} {inv after : Inventory} {c : Call} {answer : c.Answer}

/-- What a call does to the pairs of the ports. -/
theorem pairs_apply (stocked : inv.Stocked k) (minds : c.Minds k name)
    (h : inv.apply c = .ok (answer, after)) (leaving : Option (List String)) :
    (after.ports k name).map Port.pair =
      (Known.after ⟨(inv.ports k name).map Port.pair, leaving⟩ c).pairs := by
  cases c with
  | create k' p =>
      obtain ⟨rfl, rfl⟩ := minds
      rw [(create_eq_ok h).2, ports_withPorts]
      rfl
  | registerPort k' p =>
      obtain ⟨rfl, rfl⟩ := minds
      obtain ⟨ports, hports, -, rfl⟩ := registerPort_eq_ok (of_map_ok h)
      rw [ports_withPorts, List.map_append]
      simp [Inventory.ports, hports, Known.after, Port.bare]
  | deletePort k' p =>
      obtain ⟨rfl, rfl⟩ := minds
      rw [deletePort_eq_ok h, ports_withPorts]
      have named : ∀ q ∈ inv.ports k' p.name, q.name = p.name := fun q hq =>
        (stocked.ports p.name).named hq
      simp only [Known.after, List.filter_map]
      refine congrArg _ (List.filter_congr fun q hq => ?_)
      simp [Port.same, named q hq, beq_eq_decide]
  | _ =>
      have turns := turns_apply (stocked.solid name) h
      generalize after.ports k name = ports at turns ⊢
      cases turns with
      | unchanged => rfl
      | revised named held selects revises => simp [held, revises.pair, Known.after]

end Inventory

section Runs

variable {k : Kind} {name : String} {scope pairs : List PortPair} {known : Known} {w : World}
  {c : Call}

/-- Calls that leave the pairs of the ports as they are, and the cloud in order. -/
def preserving (k : Kind) (name : String) (scope : List PortPair) : Contract where
  allowed c :=
    (minding k name scope).allowed c ∧ ∀ known : Known, (known.after c).pairs = known.pairs
  told _ _ := True

theorem preserving_keeps (k : Kind) (name : String) (scope pairs : List PortPair) :
    (preserving k name scope).Keeps fun cloud =>
      (Provisioned cloud.inventory ∧ cloud.inventory.Stocked k) ∧
        (cloud.inventory.ports k name).map Port.pair = pairs := by
  refine Contract.keeps_of_apply (fun inv => (Provisioned inv ∧ inv.Stocked k) ∧
    (inv.ports k name).map Port.pair = pairs) ?_ fun _ _ _ => trivial
  intro inv after c answer allowed h held
  obtain ⟨⟨provisioned, stocked⟩, hpairs⟩ := held
  have changes := Inventory.changes_apply h
  refine ⟨⟨⟨provisioned.stocked.changes changes, deployed_apply allowed.1.1 h provisioned⟩,
    stocked.changes changes⟩, ?_⟩
  rw [Inventory.pairs_apply stocked allowed.1.2 h none, allowed.2, hpairs]

/-- What a job of a group does keeps to the contract. -/
theorem Job.Answers.within {target : Target} {job : Job Unit}
    (answers : job.Answers ((minding k name scope).beside target) (fun _ _ => True)
      ⟨pairs, none⟩) : job.Within (preserving k name scope) fun _ => True := by
  induction job with
  | done value => trivial
  | fail e => trivial
  | record event next ih => exact ih answers
  | call site c next ih =>
      obtain ⟨⟨allowed, steady⟩, -, -, outcomes⟩ := answers
      have preserves (known : Known) : (known.after c).pairs = known.pairs := by
        have same : (Known.after ⟨known.pairs, none⟩ c).pairs = known.pairs := by rw [steady]
        exact same
      refine ⟨⟨allowed, preserves⟩, fun outcome _ => ?_⟩
      have hnext := outcomes outcome
      split at hnext
      · obtain ⟨cause, -, stops⟩ := hnext
        rw [stops]
        trivial
      · have rest := hnext trivial
        rw [steady] at rest
        exact ih outcome rest

namespace World.Minded

theorem sound (minded : World.Minded k name known w) (scope : List PortPair) :
    w.Sound (preserving k name scope) (fun cloud =>
      (Provisioned cloud.inventory ∧ cloud.inventory.Stocked k) ∧
        (cloud.inventory.ports k name).map Port.pair = known.pairs) w.calls :=
  .start ⟨⟨minded.provisioned, minded.stocked⟩, minded.pairs⟩ (minded.truthful.agrees _)

theorem truthful_left (minded : World.Minded k name known w) {after : World}
    (left : after.script ⊆ w.script) : after.script.Truthful :=
  fun entry hentry => minded.truthful entry (left hentry)

/-- A call that was answered. -/
theorem answered (minded : World.Minded k name known w)
    (allowed : (minding k name scope).allowed c) {limit : Nat} {answer : c.Answer}
    (answered : (w.await limit c).1 = .answered answer) :
    World.Minded k name (known.after c) (w.await limit c).2 ∧
      (minding k name scope).heard known c (.answered answer) := by
  have truthful : w.script.TruthfulAbout fun _ => True := fun entry hentry c _ =>
    minded.truthful entry hentry c
  have genuine := (truthful.take c.operation).1 c trivial
  have h := World.await_applied genuine answered
  have changes := Inventory.changes_apply h
  refine ⟨⟨minded.truthful_left (w.script_await limit c),
    ⟨minded.provisioned.stocked.changes changes,
      deployed_apply allowed.1 h minded.provisioned⟩, minded.stocked.changes changes, ?_⟩, ?_⟩
  · rw [Inventory.pairs_apply minded.stocked allowed.2 h known.leaving, minded.pairs]
  · cases c with
    | describe k' other =>
        obtain ⟨rfl, rfl⟩ := allowed.2
        have held := (Inventory.describe_eq_ok h).1
        refine ⟨held ▸ minded.pairs, fun p hp => ?_, fun p hp => ?_⟩
        · exact (minded.stocked.ports other).named (held ▸ hp)
        · cases k' with
          | l4 => trivial
          | elastic => exact (minded.provisioned.deployed other p (held ▸ hp)).routable
    | _ => trivial

/-- A call that was refused without harm. -/
theorem refused (minded : World.Minded k name known w)
    (allowed : (minding k name scope).allowed c) {site : Site} {limit : Nat} {e : ApiError}
    (refused : (w.await limit c).1 = .refused e)
    (harmless : c.harmless known.leaving e.code = true)
    (honest : Settlement.Honest k name
      ⟨site, c, (w.await limit c).1, (w.await limit c).2.cloud.inventory, false⟩) :
    World.Minded k name (known.after c) (w.await limit c).2 ∧
      (minding k name scope).heard known c (.refused e) := by
  have preserves : ∀ known : Known, (known.after c).pairs = known.pairs := by
    cases c with
    | create | registerPort | deletePort => cases harmless
    | _ => exact fun _ => rfl
  have awaited := (minded.sound scope).await (preserving_keeps k name scope known.pairs)
    limit (c := c) ⟨allowed, preserves⟩
  obtain ⟨⟨⟨provisioned, stocked⟩, hpairs⟩, -, -⟩ := awaited.1
  refine ⟨⟨minded.truthful_left (w.script_await limit c), provisioned, stocked,
    by rw [preserves, hpairs]⟩, ?_⟩
  cases c with
  | describe k' other =>
      obtain ⟨rfl, rfl⟩ := allowed.2
      have missing : e.code = k'.notFound := by simpa [Call.harmless] using harmless
      have gone := honest (by simp [Settlement.denies, Settlement.refusal, refused, missing])
      rw [gone] at hpairs
      exact hpairs.symm
  | _ => trivial

/-- A group, which leaves the pairs of the ports as they are. -/
theorem runTogether (minded : World.Minded k name ⟨pairs, none⟩ w) {target : Target}
    {jobs : List (Job Unit)} (answers : ∀ job ∈ jobs,
      job.Answers ((minding k name scope).beside target) (fun _ _ => True) ⟨pairs, none⟩)
    (config : Config) : World.Minded k name ⟨pairs, none⟩ (w.runTogether config jobs).2 := by
  have within : ∀ job ∈ jobs, job.Within (preserving k name scope) fun _ => True :=
    fun job hjob => (answers job hjob).within
  have ran := (minded.sound scope).runTogether
    (preserving_keeps k name scope pairs) config within
  obtain ⟨⟨⟨provisioned, stocked⟩, hpairs⟩, -, -⟩ := ran
  exact ⟨minded.truthful_left (w.script_runTogether config jobs), provisioned, stocked, hpairs⟩

end World.Minded

/-- A program that answers for its calls fails just if one of them does, and says why. -/
theorem Program.Answers.simulate {post : α → Known → Prop} {program : Program α}
    (answers : program.Answers (minding k name scope) post known)
    (minded : World.Minded k name known w) (config : Config)
    (honest : ∀ s ∈ program.settlements config w, s.Honest k name) :
    Settlement.Accounts (Target.Among name scope) known.leaving (program.settlements config w)
        (program.simulate config w).1 ∧
      Settlement.Covers w.calls (program.simulate config w).2.calls (program.settlements config w)
        (program.simulate config w).1 := by
  induction program generalizing known w with
  | done value => exact ⟨rfl, [], by simp [Program.simulate, settlements], fun _ _ => rfl⟩
  | fail e => exact answers.elim
  | record event next ih =>
      have recorded : World.Minded k name known (w.record event) :=
        ⟨minded.truthful, minded.provisioned, minded.stocked, minded.pairs⟩
      exact ih answers recorded honest
  | call site c next ih =>
      obtain ⟨allowed, aims, concerns, outcomes⟩ := answers
      obtain ⟨first, later⟩ := List.forall_mem_cons.1 honest
      have issued := (w.records_await (config.timeout site.limit) c).1
      have hnext := outcomes (w.await (config.timeout site.limit) c).1
      split at hnext
      · next fails =>
        obtain ⟨cause, hcause, stops⟩ := hnext
        simp only [settlements, Program.simulate, stops]
        exact ⟨⟨_, Settlement.failures_cons_of_fails fails, rfl, cause, aims, concerns,
          hcause, rfl⟩, [], by simp [issued], fun _ h => by cases h⟩
      · next passes =>
        rw [Bool.not_eq_true] at passes
        have heeded : World.Minded k name (known.after c)
              (w.await (config.timeout site.limit) c).2 ∧
            (minding k name scope).heard known c (w.await (config.timeout site.limit) c).1 := by
          cases outcome : (w.await (config.timeout site.limit) c).1 with
          | answered value => exact minded.answered allowed outcome
          | refused e =>
              rw [outcome, Call.fails, Bool.not_eq_false'] at passes
              exact minded.refused allowed outcome passes first
          | timedOut =>
              rw [outcome] at passes
              cases passes
        obtain ⟨accounts, covers⟩ := ih _ (hnext heeded.2) heeded.1 later
        rw [issued] at covers
        exact ⟨accounts.cons passes, covers.cons⟩
  | together jobs next ih =>
      obtain ⟨quiet, target, aims, group, fails, passes⟩ := answers
      obtain ⟨pairs, leaving⟩ := known
      obtain rfl : leaving = none := quiet
      have concludes := Settlement.concludes_group group config w
      obtain ⟨dropped, issued, none⟩ := w.calls_runTogether config jobs
      rw [settlements] at honest ⊢
      cases hresult : (w.runTogether config jobs).1 with
      | error e =>
          rw [hresult] at concludes
          obtain ⟨s, failed, hlast, grouped, rfl, concerns, hcause⟩ := concludes
          simp only [Program.simulate, hresult, fails, settlements, List.append_nil]
          exact ⟨⟨s, failed, hlast, e, aims, concerns, hcause, by rw [grouped]; rfl⟩,
            dropped, issued, fun _ h => by cases h⟩
      | ok value =>
          rw [hresult] at concludes honest
          rw [none hresult, List.append_nil] at issued
          simp only [Program.simulate, hresult]
          obtain ⟨accounts, covers⟩ := ih _ passes (minded.runTogether group config)
            fun s hs => honest s (List.mem_append_right _ hs)
          exact ⟨accounts.append concludes.1 concludes.2, covers.append issued⟩

end Runs

end CloudBalancer
