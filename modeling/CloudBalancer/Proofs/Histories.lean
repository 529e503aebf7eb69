import CloudBalancer.Proofs.Settlements

/-!
When calls are issued and when they come to their end, in one sequence. A job issues a call only
when the one before has come to its end; while it waits, other jobs of its group may issue theirs.
-/

namespace CloudBalancer

/-- What happens to a call. -/
inductive Moment
  | issued (c : Call)
  | settled (s : Settlement)

namespace Moment

def call : Moment → Call
  | .issued c => c
  | .settled s => s.call

def issue? : Moment → Option Call
  | .issued c => some c
  | .settled _ => none

end Moment

/-- A call that is settled before anything else happens. -/
def Settlement.moments (s : Settlement) : List Moment := [.issued s.call, .settled s]

/-- What happens while a job goes on until it ends or has to wait. -/
def Job.history (config : Config) : Job Unit → World → List Moment
  | .done (), _ => []
  | .fail _, _ => []
  | .record event next, w => next.history config (w.record event)
  | .call site c next, w =>
    .issued c ::
      match w.issue (config.timeout site.limit) c with
      | (.outgoing _, _) => []
      | (.reached (.returning _), _) => []
      | (.reached (.settled outcome), w) =>
        .settled ⟨site, c, outcome, w.cloud.inventory, true⟩ :: (next outcome).history config w

namespace World

/-- What happens when a held job goes on. -/
def historyByWake (w : World) (config : Config) : Held → List Moment
  | .outgoing site c call next =>
    match w.arrive c call with
    | (.returning _, _) => []
    | (.settled outcome, w) =>
      .settled ⟨site, c, outcome, w.cloud.inventory, true⟩ :: (next outcome).history config w
  | .returning site c call next =>
    let (outcome, w) := w.finish call
    .settled ⟨site, c, outcome, w.cloud.inventory, true⟩ :: (next outcome).history config w

/-- What happens until a group of held jobs has ended. -/
def historyByHeld (config : Config) (held : List Held) (w : World) : List Moment :=
  match _split : Held.earliest held with
  | none => []
  | some (before, job, after) =>
    w.historyByWake config job ++
      match _woken : w.wake config job with
      | (.ended (.error _), _) => []
      | (.ended (.ok ()), next) => historyByHeld config (before ++ after) next
      | (.held again, next) => historyByHeld config (before ++ again :: after) next
termination_by Held.totalWeight held + 2 * w.script.length
decreasing_by
  all_goals
    have descent := w.weight_wake config job
    rw [_woken] at descent
    simp only [Standing.weight] at descent
    simp only [Held.earliest_eq _split, Held.totalWeight_append, Held.totalWeight]
    omega

/-- What happens while jobs are started. -/
def historyByStart (config : Config) : List (Job Unit) → World → List Moment
  | [], _ => []
  | job :: rest, w =>
    job.history config w ++
      match job.advance config w with
      | (.ended (.error _), _) => []
      | (_, w) => historyByStart config rest w

/-- What happens while jobs run side by side. -/
def historyTogether (config : Config) (jobs : List (Job Unit)) (w : World) : List Moment :=
  w.historyByStart config jobs ++
    match w.startAll config jobs with
    | (.error _, _) => []
    | (.ok held, w) => w.historyByHeld config held

end World

/-- What happens while a program runs. -/
def Program.history {α : Type} (config : Config) : Program α → World → List Moment
  | .done _, _ => []
  | .fail _, _ => []
  | .record event next, w => next.history config (w.record event)
  | .call site c next, w =>
    .issued c ::
      .settled ⟨site, c, (w.await (config.timeout site.limit) c).1,
        (w.await (config.timeout site.limit) c).2.cloud.inventory, false⟩ ::
      (next (w.await (config.timeout site.limit) c).1).history config
        (w.await (config.timeout site.limit) c).2
  | .together jobs next, w =>
    w.historyTogether config jobs ++
      (next (w.runTogether config jobs).1).history config (w.runTogether config jobs).2

theorem World.historyByHeld_eq {config : Config} {held before after : List Held} {job : Held}
    (split : Held.earliest held = some (before, job, after)) (w : World) :
    w.historyByHeld config held = w.historyByWake config job ++
      match w.wake config job with
      | (.ended (.error _), _) => []
      | (.ended (.ok ()), next) => next.historyByHeld config (before ++ after)
      | (.held again, next) => next.historyByHeld config (before ++ again :: after) := by
  conv => lhs; unfold World.historyByHeld
  split
  · next none => simp [split] at none
  · next h =>
    cases split.symm.trans h
    rcases w.wake config job with ⟨(e | value) | again, next⟩ <;> rfl

section Stretches

variable (config : Config)

/-- A job goes on call by call: each is settled before the next is issued, and the last one may be
left to be waited for. -/
theorem Job.history_eq (job : Job Unit) (w : World) :
    job.history config w = (job.settlements config w).flatMap Settlement.moments ++
      (job.advance config w).1.waiting.map .issued := by
  induction job generalizing w with
  | done value => rfl
  | fail e => rfl
  | record event next ih => exact ih (w.record event)
  | call site c next ih =>
      rw [history, settlements, Job.advance]
      rcases w.issue (config.timeout site.limit) c with ⟨call | outcome | call, after⟩
      · rfl
      · exact congrArg (Moment.issued c :: .settled _ :: ·) (ih outcome after)
      · rfl

/-- The call that a held job waits for was issued before. -/
theorem World.historyByWake_eq (w : World) (job : Held) :
    .issued job.call :: w.historyByWake config job =
      (w.settledByWake config job).flatMap Settlement.moments ++
        (w.wake config job).1.waiting.map .issued := by
  cases job with
  | outgoing site c call next =>
      unfold World.historyByWake World.settledByWake World.wake
      dsimp only
      rcases w.arrive c call with ⟨outcome | call, after⟩
      · exact congrArg (Moment.issued c :: .settled _ :: ·) (Job.history_eq config _ after)
      · rfl
  | returning site c call next =>
      exact congrArg (Moment.issued c :: .settled _ :: ·) (Job.history_eq config _ _)

end Stretches

section Issues

variable (config : Config)

theorem filterMap_issue?_moments (log : List Settlement) :
    (log.flatMap Settlement.moments).filterMap Moment.issue? = log.map Settlement.call := by
  induction log with
  | nil => rfl
  | cons s rest ih => exact congrArg (s.call :: ·) ih

theorem filterMap_issue?_issued (calls : List Call) :
    (calls.map Moment.issued).filterMap Moment.issue? = calls := by
  simp [List.filterMap_map, Function.comp_def, Moment.issue?]

theorem Job.calls_history (job : Job Unit) (w : World) :
    (job.advance config w).2.calls =
      w.calls ++ (job.history config w).filterMap Moment.issue? := by
  rw [job.calls_advance, job.history_eq, List.filterMap_append, filterMap_issue?_moments,
    filterMap_issue?_issued]

theorem World.calls_historyByWake (job : Held) (w : World) :
    (w.wake config job).2.calls =
      w.calls ++ (w.historyByWake config job).filterMap Moment.issue? := by
  obtain ⟨issued, calls, settled⟩ := w.issued_wake config job
  have told := congrArg (List.filterMap Moment.issue?) (w.historyByWake_eq config job)
  rw [List.filterMap_append, filterMap_issue?_moments, filterMap_issue?_issued, ← settled] at told
  rw [calls, List.cons.inj told |>.2]

theorem World.calls_historyByHeld (held : List Held) (w : World) :
    (w.runHeld config held).2.calls =
      w.calls ++ (w.historyByHeld config held).filterMap Moment.issue? := by
  fun_induction World.runHeld config held w with
  | case1 held w none =>
      obtain rfl := Held.earliest_eq_none none
      rw [World.historyByHeld]
      exact (List.append_nil _).symm
  | case2 held w before job after split e next woken =>
      have calls := w.calls_historyByWake config job
      rw [woken] at calls
      rw [World.historyByHeld_eq split, woken, List.append_nil]
      exact calls
  | case3 held w before job after split next woken ih
  | case4 held w before job after split again next woken ih =>
      have calls := w.calls_historyByWake config job
      rw [woken] at calls
      rw [World.historyByHeld_eq split, woken, ih, calls, List.append_assoc, List.filterMap_append]

theorem World.calls_historyByStart (jobs : List (Job Unit)) (w : World) :
    (w.startAll config jobs).2.calls =
      w.calls ++ (w.historyByStart config jobs).filterMap Moment.issue? := by
  induction jobs generalizing w with
  | nil => exact (List.append_nil _).symm
  | cons job rest ih =>
      have calls := job.calls_history config w
      rw [World.startAll, World.historyByStart, List.filterMap_append]
      rcases advanced : job.advance config w with ⟨(e | value) | waiting, after⟩
      all_goals rw [advanced] at calls
      · rw [calls, List.filterMap_nil, List.append_nil]
      · exact (ih after).trans (by rw [calls, List.append_assoc])
      · exact (ih after).trans (by rw [calls, List.append_assoc])

theorem World.calls_historyTogether (jobs : List (Job Unit)) (w : World) :
    (w.runTogether config jobs).2.calls =
      w.calls ++ (w.historyTogether config jobs).filterMap Moment.issue? := by
  have calls := w.calls_historyByStart config jobs
  rw [World.runTogether, World.historyTogether, List.filterMap_append]
  rcases started : w.startAll config jobs with ⟨e | held, after⟩
  all_goals rw [started] at calls
  · rw [calls, List.filterMap_nil, List.append_nil]
  · exact (after.calls_historyByHeld config held).trans (by rw [calls, List.append_assoc])

/-- The calls of a run are on record in the order in which they are issued. -/
theorem Program.calls_history {α : Type} (program : Program α) (w : World) :
    (program.simulate config w).2.calls =
      w.calls ++ (program.history config w).filterMap Moment.issue? := by
  induction program generalizing w with
  | done value => exact (List.append_nil _).symm
  | fail e => exact (List.append_nil _).symm
  | record event next ih => exact ih (w.record event)
  | call site c next ih =>
      rw [simulate, ih, (w.records_await (config.timeout site.limit) c).1, List.append_assoc]
      rfl
  | together jobs next ih =>
      rw [simulate, ih, w.calls_historyTogether, history, List.append_assoc, List.filterMap_append]

end Issues

end CloudBalancer
