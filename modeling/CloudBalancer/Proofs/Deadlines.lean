import CloudBalancer.Proofs.Histories

/-!
How long runs take. Time only passes where everything waits, and never beyond the deadline of a call
that is under way; a deadline is as far from the moment when its call is issued as the limit allows
that it was made under. So a run takes no longer than the timeouts of its calls one after the other,
also where its calls overlap, are given up or are dropped with their group. And a call is given up
only if it had to wait.
-/

namespace CloudBalancer

theorem clockSeconds_le (seconds : UInt64) : clockSeconds seconds ≤ seconds.toNat := by
  unfold clockSeconds
  split <;> omega

namespace Config

variable (config : Config)

/-- The time that calls may take one after the other. -/
def allowance (calls : List Call) : Nat :=
  config.apiTimeoutSecs.toNat * (calls.filter (·.operation ≠ .awaitApplied)).length +
    config.securityGroupApplyTimeoutSecs.toNat *
      (calls.filter (·.operation = .awaitApplied)).length

theorem allowance_append (calls more : List Call) :
    config.allowance (calls ++ more) = config.allowance calls + config.allowance more := by
  simp only [allowance, List.filter_append, List.length_append, Nat.mul_add]
  omega

theorem timeout_le_allowance (c : Call) : config.timeout c.limit ≤ config.allowance [c] := by
  cases c
  all_goals simpa [Call.limit, timeout, allowance, Call.operation] using clockSeconds_le _

end Config

def Held.deadline : Held → Nat
  | .outgoing _ _ call _ => call.deadline
  | .returning _ _ call _ => call.deadline

/-- A call that was given up is one of those that have to wait. -/
def Settlement.Excused (script : Script) (s : Settlement) : Prop :=
  s.outcome = .timedOut → ¬ script.Immediate s.call.operation

section Runs

variable {config : Config} {start w after : World} {c : Call} {time : Nat} {more : List Call}

/-- A run that began at `start` and has got to `w` may take until that time. -/
def World.Allows (config : Config) (start w : World) (time : Nat) : Prop :=
  time + config.allowance start.calls ≤ start.now + config.allowance w.calls

theorem World.Allows.later (allows : start.Allows config w time)
    (calls : after.calls = w.calls ++ more) : start.Allows config after time := by
  unfold Allows at *
  rw [calls, config.allowance_append]
  omega

theorem World.Allows.sooner {sooner : Nat} (allows : start.Allows config w time)
    (le : sooner ≤ time) : start.Allows config w sooner := by
  unfold Allows at *
  omega

theorem World.Allows.issued (allows : start.Allows config w time)
    (calls : after.calls = w.calls ++ [c]) :
    start.Allows config after (time + config.timeout c.limit) := by
  have timeout := config.timeout_le_allowance c
  unfold Allows at *
  rw [calls, config.allowance_append]
  omega

/-- How far a run that began at `start` has got. -/
structure World.OnTime (config : Config) (start w : World) : Prop where
  now : start.Allows config w w.now
  script : w.script ⊆ start.script

/-- A job of the run waits for a call, for which there is time, and may go on. -/
structure World.Due (config : Config) (start w : World) (job : Held) : Prop where
  deadline : start.Allows config w job.deadline
  waits : ¬ start.script.Immediate job.call.operation
  pending : job.pending.Sited Site.Due

theorem World.Due.later {job : Held} (due : start.Due config w job)
    (calls : after.calls = w.calls ++ more) : start.Due config after job :=
  ⟨due.deadline.later calls, due.waits, due.pending⟩

/-- What is true of a call of the run once it has reached the cloud, got lost or been given up. -/
def Reached.Timely (config : Config) (start w : World) : Reached c → Prop
  | .settled outcome => outcome = .timedOut → ¬ start.script.Immediate c.operation
  | .returning call =>
    start.Allows config w call.deadline ∧ ¬ start.script.Immediate c.operation

theorem World.hold_timely {call : Returning c} (deadline : start.Allows config w call.deadline)
    (waits : ¬ start.script.Immediate c.operation) : (w.hold call).Timely config start w := by
  unfold hold
  split
  · exact fun _ => waits
  · exact ⟨deadline, waits⟩

theorem World.OnTime.reach (onTime : start.OnTime config w) {reply : Reply} {deadline : Nat}
    (allows : start.Allows config w deadline)
    (waits : ¬ reply.Immediate → ¬ start.script.Immediate c.operation) :
    start.OnTime config (w.reach c reply deadline).2 ∧
      (w.reach c reply deadline).1.Timely config start (w.reach c reply deadline).2 := by
  unfold World.reach
  split
  · next lost =>
    exact ⟨onTime, World.hold_timely allows (waits fun immediate => by simp [immediate.3] at lost)⟩
  · dsimp only
    split
    · refine ⟨⟨onTime.now, onTime.script⟩, ?_⟩
      cases (reply.answer w.cloud c).1 <;> rintro ⟨⟩
    · next late =>
      refine ⟨⟨onTime.now, onTime.script⟩, World.hold_timely allows (waits fun immediate => ?_)⟩
      exact late immediate.2

/-- What is true of a call of the run right after it was issued. -/
def Issued.Timely (config : Config) (start w : World) : Issued c → Prop
  | .outgoing call => start.Allows config w call.deadline ∧ ¬ start.script.Immediate c.operation
  | .reached call => call.Timely config start w

theorem World.OnTime.issue (onTime : start.OnTime config w) (c : Call) :
    start.OnTime config (w.issue (config.timeout c.limit) c).2 ∧
      (w.issue (config.timeout c.limit) c).1.Timely config start
        (w.issue (config.timeout c.limit) c).2 := by
  let issued : World :=
    { w with calls := w.calls ++ [c], script := (w.script.take c.operation).2 }
  have deadline : start.Allows config issued (w.now + config.timeout c.limit) :=
    onTime.now.issued rfl
  have still : start.OnTime config issued :=
    ⟨onTime.now.later rfl, fun entry left => onTime.script ((w.script.take_mem _).2 left)⟩
  have waits (h : ¬ (w.script.take c.operation).1.Immediate) :
      ¬ start.script.Immediate c.operation :=
    fun immediate => h (immediate.left onTime.script).take
  rw [World.issue]
  dsimp only
  split
  · exact still.reach deadline waits
  · next outgoing =>
    have away : ¬ start.script.Immediate c.operation :=
      waits fun immediate => outgoing immediate.1
    split
    · exact ⟨still, fun _ : Outcome.timedOut = .timedOut => away⟩
    · exact ⟨still, deadline, away⟩

theorem World.OnTime.arrive (onTime : start.OnTime config w) {call : Outgoing}
    (allows : start.Allows config w call.deadline)
    (waits : ¬ start.script.Immediate c.operation) :
    start.OnTime config (w.arrive c call).2 ∧
      (w.arrive c call).1.Timely config start (w.arrive c call).2 := by
  unfold World.arrive
  split
  · next inTime =>
    have still : start.OnTime config { w with now := call.arrival } :=
      ⟨allows.sooner inTime, onTime.script⟩
    exact still.reach allows fun _ => waits
  · exact ⟨⟨allows, onTime.script⟩, fun _ => waits⟩

theorem World.OnTime.finish (onTime : start.OnTime config w) {call : Returning c}
    (allows : start.Allows config w call.deadline) : start.OnTime config (w.finish call).2 := by
  unfold World.finish
  split
  · exact ⟨allows, onTime.script⟩
  · split
    · next inTime => exact ⟨allows.sooner inTime, onTime.script⟩
    · exact ⟨allows, onTime.script⟩

theorem World.OnTime.settle (onTime : start.OnTime config w) {reached : Reached c}
    (timely : reached.Timely config start w) :
    start.OnTime config (World.settle (reached, w)).2 ∧
      ((World.settle (reached, w)).1 = .timedOut → ¬ start.script.Immediate c.operation) := by
  cases reached with
  | settled outcome => exact ⟨onTime, timely⟩
  | returning call => exact ⟨onTime.finish timely.1, fun _ => timely.2⟩

theorem World.OnTime.await (onTime : start.OnTime config w) (c : Call) :
    start.OnTime config (w.await (config.timeout c.limit) c).2 ∧
      ((w.await (config.timeout c.limit) c).1 = .timedOut →
        ¬ start.script.Immediate c.operation) := by
  have issued := onTime.issue c
  unfold World.await
  split
  · next call after heq =>
    rw [heq] at issued
    obtain ⟨still, allows, waits⟩ := issued
    have arrived := still.arrive (c := c) allows waits
    exact arrived.1.settle arrived.2
  · next heq =>
    rw [heq] at issued
    exact issued.1.settle issued.2

def Standing.Timely (config : Config) (start w : World) : Standing → Prop
  | .ended _ => True
  | .held job => start.Due config w job

/-- A leg of the run that went as far as `w`, and what was settled in it. -/
structure World.Leg (config : Config) (start : World) (log : List Settlement)
    (standing : Standing) (w : World) : Prop where
  onTime : start.OnTime config w
  excused : ∀ s ∈ log, s.Excused start.script
  timely : standing.Timely config start w

theorem World.Leg.cons {log : List Settlement} {standing : Standing} {s : Settlement}
    (leg : start.Leg config log standing w) (excused : s.Excused start.script) :
    start.Leg config (s :: log) standing w :=
  ⟨leg.onTime, List.forall_mem_cons.2 ⟨excused, leg.excused⟩, leg.timely⟩

/-- Up to the next wait no time passes, and the wait has its deadline. -/
theorem Job.timely_advance {job : Job Unit} (due : job.Sited Site.Due)
    (onTime : start.OnTime config w) :
    start.Leg config (job.settlements config w) (job.advance config w).1
      (job.advance config w).2 := by
  induction job generalizing w with
  | done value => exact ⟨onTime, List.forall_mem_nil _, trivial⟩
  | fail e => exact ⟨onTime, List.forall_mem_nil _, trivial⟩
  | record event next ih => exact ih due ⟨onTime.now, onTime.script⟩
  | call site c next ih =>
      have timely := onTime.issue c
      rw [← show site.limit = c.limit from due.1] at timely
      rw [Job.settlements, Job.advance]
      cases issued : w.issue (config.timeout site.limit) c with
      | mk call after =>
          rw [issued] at timely
          cases call with
          | outgoing call =>
              obtain ⟨still, deadline, waits⟩ := timely
              exact ⟨still, List.forall_mem_nil _, deadline, waits, due⟩
          | reached call =>
              cases call with
              | returning call =>
                  obtain ⟨still, deadline, waits⟩ := timely
                  exact ⟨still, List.forall_mem_nil _, deadline, waits, due⟩
              | settled outcome => exact (ih outcome (due.2 outcome) timely.1).cons timely.2

/-- A job that goes on has waited until its deadline at most. -/
theorem World.OnTime.wake {job : Held} (onTime : start.OnTime config w)
    (due : start.Due config w job) :
    start.Leg config (w.settledByWake config job) (w.wake config job).1
      (w.wake config job).2 := by
  obtain ⟨deadline, waits, pending⟩ := due
  cases job with
  | outgoing site c call next =>
      have timely := onTime.arrive (c := c) deadline waits
      rw [World.settledByWake, World.wake]
      cases arrived : w.arrive c call with
      | mk call after =>
          rw [arrived] at timely
          cases call with
          | returning call =>
              obtain ⟨still, deadline, -⟩ := timely
              exact ⟨still, List.forall_mem_nil _, deadline, waits, pending⟩
          | settled outcome => exact (Job.timely_advance (pending.2 outcome) timely.1).cons timely.2
  | returning site c call next =>
      exact (Job.timely_advance (pending.2 _) (onTime.finish deadline)).cons fun _ => waits

theorem World.onTime_runHeld {held : List Held} (onTime : start.OnTime config w)
    (due : ∀ job ∈ held, start.Due config w job) :
    start.OnTime config (w.runHeld config held).2 ∧
      ∀ s ∈ w.settledByHeld config held, s.Excused start.script := by
  fun_induction World.runHeld config held w with
  | case1 held w none =>
      obtain rfl := Held.earliest_eq_none none
      rw [World.settledByHeld]
      exact ⟨onTime, List.forall_mem_nil _⟩
  | case2 held w before job after split e next woken =>
      have leg := World.OnTime.wake onTime (due job (by simp [Held.earliest_eq split]))
      rw [woken] at leg
      rw [World.settledByHeld_eq split, woken, List.append_nil]
      exact ⟨leg.onTime, leg.excused⟩
  | case3 held w before job after split next woken ih =>
      have leg := World.OnTime.wake onTime (due job (by simp [Held.earliest_eq split]))
      obtain ⟨issued, calls, -⟩ := w.issued_wake config job
      rw [woken] at leg calls
      rw [World.settledByHeld_eq split, woken]
      have rest := ih leg.onTime fun other hother =>
        (due other (by
          rw [Held.earliest_eq split]
          rcases List.mem_append.1 hother with hother | hother <;> simp [hother])).later calls
      exact ⟨rest.1, List.forall_mem_append.2 ⟨leg.excused, rest.2⟩⟩
  | case4 held w before job after split again next woken ih =>
      have leg := World.OnTime.wake onTime (due job (by simp [Held.earliest_eq split]))
      obtain ⟨issued, calls, -⟩ := w.issued_wake config job
      rw [woken] at leg calls
      rw [World.settledByHeld_eq split, woken]
      have rest := ih leg.onTime fun other hother => by
        rcases List.mem_append.1 hother with hother | hother
        · exact (due other (by simp [Held.earliest_eq split, hother])).later calls
        · rcases List.mem_cons.1 hother with rfl | hother
          · exact leg.timely
          · exact (due other (by simp [Held.earliest_eq split, hother])).later calls
      exact ⟨rest.1, List.forall_mem_append.2 ⟨leg.excused, rest.2⟩⟩

theorem World.onTime_startAll {jobs : List (Job Unit)} (due : ∀ job ∈ jobs, job.Sited Site.Due)
    (onTime : start.OnTime config w) :
    start.OnTime config (w.startAll config jobs).2 ∧
      (∀ s ∈ w.settledByStart config jobs, s.Excused start.script) ∧
      ∀ held, (w.startAll config jobs).1 = .ok held →
        ∀ job ∈ held, start.Due config (w.startAll config jobs).2 job := by
  induction jobs generalizing w with
  | nil =>
      refine ⟨onTime, List.forall_mem_nil _, fun held started => ?_⟩
      cases started
      exact List.forall_mem_nil _
  | cons job rest ih =>
      obtain ⟨hjob, hrest⟩ := List.forall_mem_cons.1 due
      have leg := Job.timely_advance hjob onTime
      rw [World.startAll, World.settledByStart]
      cases advanced : job.advance config w with
      | mk standing after =>
          rw [advanced] at leg
          obtain ⟨still, excused, due⟩ := ih hrest leg.onTime
          cases standing with
          | held waits =>
              refine ⟨still, List.forall_mem_append.2 ⟨leg.excused, excused⟩, ?_⟩
              intro held started
              cases others : (after.startAll config rest).1 with
              | error e => simp [others, Except.map] at started
              | ok held' =>
                  simp only [others, Except.map, Except.ok.injEq] at started
                  have calls := after.calls_historyByStart config rest
                  have first : start.Due config after waits := leg.timely
                  rw [← started]
                  exact List.forall_mem_cons.2 ⟨first.later calls, due held' others⟩
          | ended result =>
              cases result with
              | ok value =>
                  exact ⟨still, List.forall_mem_append.2 ⟨leg.excused, excused⟩, due⟩
              | error e =>
                  rw [List.append_nil]
                  refine ⟨leg.onTime, leg.excused, ?_⟩
                  rintro held ⟨⟩

theorem World.onTime_runTogether {jobs : List (Job Unit)} (due : ∀ job ∈ jobs, job.Sited Site.Due)
    (onTime : start.OnTime config w) :
    start.OnTime config (w.runTogether config jobs).2 ∧
      ∀ s ∈ w.settledTogether config jobs, s.Excused start.script := by
  obtain ⟨still, excused, due⟩ := World.onTime_startAll due onTime
  rw [World.runTogether, World.settledTogether]
  cases started : w.startAll config jobs with
  | mk result after =>
      rw [started] at still due
      cases result with
      | error e =>
          rw [List.append_nil]
          exact ⟨still, excused⟩
      | ok held =>
          have rest := World.onTime_runHeld still (due held rfl)
          exact ⟨rest.1, List.forall_mem_append.2 ⟨excused, rest.2⟩⟩

theorem Program.onTime_simulate {α : Type} {program : Program α} (due : program.Sited Site.Due)
    (onTime : start.OnTime config w) :
    start.OnTime config (program.simulate config w).2 ∧
      ∀ s ∈ program.settlements config w, s.Excused start.script := by
  induction program generalizing w with
  | done value => exact ⟨onTime, List.forall_mem_nil _⟩
  | fail e => exact ⟨onTime, List.forall_mem_nil _⟩
  | record event next ih => exact ih due ⟨onTime.now, onTime.script⟩
  | call site c next ih =>
      obtain ⟨still, waits⟩ := onTime.await c
      rw [← show site.limit = c.limit from due.1] at still waits
      have rest := ih (w.await (config.timeout site.limit) c).1 (due.2 _) still
      exact ⟨rest.1, List.forall_mem_cons.2 ⟨waits, rest.2⟩⟩
  | together jobs next ih =>
      obtain ⟨still, excused⟩ := World.onTime_runTogether due.1 onTime
      have rest := ih (w.runTogether config jobs).1 (due.2 _) still
      exact ⟨rest.1, List.forall_mem_append.2 ⟨excused, rest.2⟩⟩

end Runs

/-- A program whose calls are under the limits that they are due takes no longer than the timeouts
of the calls that it issues, and gives up no call that need not wait. -/
theorem Program.simulate_within_timeouts {α : Type} {program : Program α}
    (due : program.Sited Site.Due) (config : Config) (w : World) :
    ∃ issued, (program.simulate config w).2.calls = w.calls ++ issued ∧
      (program.simulate config w).2.now ≤ w.now + config.allowance issued ∧
      ∀ s ∈ program.settlements config w, s.Excused w.script := by
  have start : w.OnTime config w := ⟨Nat.le_refl _, List.Subset.refl _⟩
  obtain ⟨onTime, excused⟩ := Program.onTime_simulate due start
  have calls := program.calls_history config w
  have now := onTime.now
  rw [World.Allows, calls, config.allowance_append] at now
  exact ⟨_, calls, by omega, excused⟩

/-- A call whose reply does not wait is answered or refused at once, whatever its limit. -/
theorem World.issue_of_immediate_reply (limit : Nat) {w : World} {c : Call}
    (immediate : (w.script.take c.operation).1.Immediate) :
    ∃ outcome after, w.issue limit c = (.reached (.settled outcome), after) ∧
      outcome ≠ .timedOut ∧ after.now = w.now := by
  obtain ⟨before, after, answered⟩ := immediate
  simp only [issue, reach, before, after, answered, if_true, Bool.false_eq_true, if_false]
  refine ⟨_, _, rfl, ?_, rfl⟩
  cases (Reply.answer _ w.cloud c).1 <;> rintro ⟨⟩

/-- Whatever is undertaken ends in every world. Each of its calls is made under the limit that it is
due, and it takes no longer than the timeouts of the calls that it issues. Operations whose replies
do not wait are never given up, and a call that meets such a reply is settled when it is issued, at
no cost of time and under any limit. -/
theorem Undertaking.ends_within_timeouts (undertaking : Undertaking) (config : Config) (w : World) :
    undertaking.program.Sited Site.Due ∧
    ∃ result after issued, undertaking.program.simulate config w = (result, after) ∧
      after.calls = w.calls ++ issued ∧
      after.now ≤ w.now +
        (config.apiTimeoutSecs.toNat * (issued.filter (·.operation ≠ .awaitApplied)).length +
          config.securityGroupApplyTimeoutSecs.toNat *
            (issued.filter (·.operation = .awaitApplied)).length) ∧
      (∀ s ∈ undertaking.program.settlements config w, s.outcome = .timedOut →
        ¬ w.script.Immediate s.call.operation) ∧
      ∀ (v : World) (limit : Nat) (c : Call), (v.script.take c.operation).1.Immediate →
        ∃ outcome after, v.issue limit c = (.reached (.settled outcome), after) ∧
          outcome ≠ .timedOut ∧ after.now = v.now := by
  obtain ⟨issued, calls, now, excused⟩ :=
    Program.simulate_within_timeouts undertaking.due_program config w
  exact ⟨undertaking.due_program, _, _, issued, rfl, calls, now, excused,
    fun _ limit _ => World.issue_of_immediate_reply limit⟩

end CloudBalancer
