import CloudBalancer.Simulation.World

/-!
Running programs in a world where calls wait. The jobs of a group start one after the other, each
going on until it has to wait; then time moves to the next moment at which a waiting call arrives,
is answered or is given up, and its job goes on. The group ends with its first failure, where all
other jobs stop as they are, or when every job is done.

Every wait uses up a scripted reply, so a group comes to its end: `weight_wake` is the descent.
-/

namespace CloudBalancer

/-- A job that waits for a call of its own. -/
inductive Held
  | outgoing (site : Site) (c : Call) (call : Outgoing) (next : Outcome c.Answer → Job Unit)
  | returning (site : Site) (c : Call) (call : Returning c) (next : Outcome c.Answer → Job Unit)

/-- Where a job stands: at its end, or waiting. -/
inductive Standing
  | ended (result : Except EngineError Unit)
  | held (job : Held)

namespace Held

/-- When the wait is over, one way or the other. -/
def wakesAt : Held → Nat
  | .outgoing _ _ call _ => min call.arrival call.deadline
  | .returning _ _ call _ =>
    match call.arrival with
    | none => call.deadline
    | some (time, _) => min time call.deadline

/-- The number of waits that the call has still before it. -/
def weight : Held → Nat
  | .outgoing .. => 2
  | .returning .. => 1

/-- The number of waits that a group of held jobs has still before it. -/
def totalWeight : List Held → Nat
  | [] => 0
  | job :: rest => job.weight + totalWeight rest

theorem totalWeight_append (before after : List Held) :
    totalWeight (before ++ after) = totalWeight before + totalWeight after := by
  induction before with
  | nil => simp [totalWeight]
  | cons job rest ih => simp [totalWeight, ih, Nat.add_assoc]

/-- The held job that goes on first, with those before and after it. -/
def earliest : List Held → Option (List Held × Held × List Held)
  | [] => none
  | job :: rest =>
    match earliest rest with
    | none => some ([], job, [])
    | some (before, first, after) =>
      if job.wakesAt ≤ first.wakesAt then some ([], job, rest)
      else some (job :: before, first, after)

theorem earliest_eq {held before after : List Held} {first : Held}
    (h : earliest held = some (before, first, after)) : held = before ++ first :: after := by
  induction held generalizing before with
  | nil => simp [earliest] at h
  | cons job rest ih =>
    unfold earliest at h
    split at h
    · next hrest =>
      cases h
      cases rest with
      | nil => rfl
      | cons =>
        simp only [earliest] at hrest
        split at hrest <;> (try split at hrest) <;> cases hrest
    · next hrest =>
      split at h
      · cases h; rfl
      · cases h; simp [ih hrest]

end Held

namespace Job

/-- Runs a job until it ends or has to wait. -/
def advance (config : Config) : Job Unit → World → Standing × World
  | .done (), w => (.ended (.ok ()), w)
  | .fail error, w => (.ended (.error error), w)
  | .record event next, w => next.advance config (w.record event)
  | .call site c next, w =>
    match w.issue (config.timeout site.limit) c with
    | (.outgoing flight, w) => (.held (.outgoing site c flight next), w)
    | (.reached (.returning flight), w) => (.held (.returning site c flight next), w)
    | (.reached (.settled outcome), w) => (next outcome).advance config w

end Job

namespace World

/-- Lets time pass until a held job goes on, and runs it until it ends or has to wait again. -/
def wake (w : World) (config : Config) : Held → Standing × World
  | .outgoing site c call next =>
    match w.arrive c call with
    | (.returning call, w) => (.held (.returning site c call next), w)
    | (.settled outcome, w) => (next outcome).advance config w
  | .returning _ _ call next =>
    let (outcome, w) := w.finish call
    (next outcome).advance config w

end World

/-- Waits that can still be: those under way, and two for every reply of the script. -/
def Standing.weight : Standing → Nat
  | .ended _ => 0
  | .held job => job.weight

theorem Script.length_take (script : Script) (op : Operation) :
    (script.take op).2.length ≤ script.length ∧
      ((script.take op).1.beforeSecs ≠ 0 ∨ (script.take op).1.hang = true ∨
        (script.take op).1.afterSecs ≠ 0 → (script.take op).2.length < script.length) := by
  induction script with
  | nil => simp [Script.take]
  | cons entry rest ih =>
    unfold Script.take
    split
    · simp
    · simp only [List.length_cons]
      exact ⟨by omega, fun h => by have := ih.2 h; omega⟩

namespace World

theorem script_reach (w : World) (c : Call) (reply : Reply) (deadline : Nat) :
    (w.reach c reply deadline).2.script = w.script := by
  unfold reach
  split
  · rfl
  · dsimp only
    split <;> rfl

theorem script_arrive (w : World) (c : Call) (call : Outgoing) :
    (w.arrive c call).2.script = w.script := by
  unfold arrive
  split
  · exact script_reach ..
  · rfl

theorem script_finish (w : World) {c : Call} (call : Returning c) :
    (w.finish call).2.script = w.script := by
  unfold finish
  split
  · rfl
  · split <;> rfl

theorem settled_reach {w : World} {c : Call} {reply : Reply} {deadline : Nat}
    (hang : reply.hang = false) (after : reply.afterSecs = 0) :
    ∃ outcome, (w.reach c reply deadline).1 = .settled outcome := by
  simp [reach, hang, after]

/-- A call uses up a reply wherever it has to wait. -/
theorem length_issue (w : World) (limit : Nat) (c : Call) :
    (w.issue limit c).2.script.length ≤ w.script.length ∧
      ((∀ outcome, (w.issue limit c).1 ≠ .reached (.settled outcome)) →
        (w.issue limit c).2.script.length < w.script.length) := by
  obtain ⟨hle, hlt⟩ := Script.length_take w.script c.operation
  unfold issue
  dsimp only
  split
  · next hbefore =>
    simp only [script_reach]
    refine ⟨hle, fun h => hlt ?_⟩
    rcases Bool.eq_false_or_eq_true (w.script.take c.operation).1.hang with hang | hang
    · exact .inr (.inl hang)
    · refine .inr (.inr fun after => ?_)
      obtain ⟨outcome, h'⟩ := settled_reach hang after
      exact h outcome (by rw [h'])
  · next hbefore =>
    split
    · exact ⟨hle, fun _ => hlt (.inl hbefore)⟩
    · exact ⟨hle, fun _ => hlt (.inl hbefore)⟩

end World

theorem Job.weight_advance (config : Config) (job : Job Unit) (w : World) :
    (job.advance config w).1.weight + 2 * (job.advance config w).2.script.length ≤
      2 * w.script.length := by
  induction job generalizing w with
  | done value => simp [advance, Standing.weight]
  | fail error => simp [advance, Standing.weight]
  | record event next ih => exact ih (w.record event)
  | call site c next ih =>
    have hw := World.length_issue w (config.timeout site.limit) c
    unfold advance
    split
    · next heq =>
      have := hw.2 (by simp [heq])
      simp only [heq] at this
      simp only [Standing.weight, Held.weight]
      omega
    · next heq =>
      have := hw.2 (by simp [heq])
      simp only [heq] at this
      simp only [Standing.weight, Held.weight]
      omega
    · next outcome w' heq =>
      have h₁ := hw.1
      simp only [heq] at h₁
      have := ih outcome w'
      omega

theorem World.weight_wake (w : World) (config : Config) (job : Held) :
    (w.wake config job).1.weight + 2 * (w.wake config job).2.script.length <
      job.weight + 2 * w.script.length := by
  cases job with
  | outgoing site c call next =>
    have hs := script_arrive w c call
    unfold wake
    dsimp only
    split
    · next heq =>
      simp only [heq] at hs
      simp [Standing.weight, Held.weight, hs]
    · next outcome w' heq =>
      simp only [heq] at hs
      have := Job.weight_advance config (next outcome) w'
      simp only [Held.weight]
      rw [hs] at this
      omega
  | returning site c call next =>
    have hs := script_finish w call
    have := Job.weight_advance config (next (w.finish call).1) (w.finish call).2
    simp only [wake, Held.weight]
    rw [hs] at this
    omega

namespace World

/-- Runs held jobs to the end of their group. -/
def runHeld (config : Config) (held : List Held) (w : World) : Except EngineError Unit × World :=
  match _split : Held.earliest held with
  | none => (.ok (), w)
  | some (before, job, after) =>
    match _woken : w.wake config job with
    | (.ended (.error e), next) => (.error e, next)
    | (.ended (.ok ()), next) => runHeld config (before ++ after) next
    | (.held again, next) => runHeld config (before ++ again :: after) next
termination_by Held.totalWeight held + 2 * w.script.length
decreasing_by
  all_goals
    have descent := w.weight_wake config job
    rw [_woken] at descent
    simp only [Standing.weight] at descent
    simp only [Held.earliest_eq _split, Held.totalWeight_append, Held.totalWeight]
    omega

/-- Starts jobs one after the other; the first failure keeps the others from starting. -/
def startAll (config : Config) : List (Job Unit) → World → Except EngineError (List Held) × World
  | [], w => (.ok [], w)
  | job :: rest, w =>
    match job.advance config w with
    | (.ended (.error e), w) => (.error e, w)
    | (.ended (.ok ()), w) => startAll config rest w
    | (.held job, w) =>
      let (started, w) := startAll config rest w
      (started.map (job :: ·), w)

/-- Runs jobs side by side. -/
def runTogether (config : Config) (jobs : List (Job Unit)) (w : World) :
    Except EngineError Unit × World :=
  match startAll config jobs w with
  | (.error e, w) => (.error e, w)
  | (.ok held, w) => runHeld config held w

end World

/-- Runs a program in a world where calls may wait. -/
def Program.simulate {α : Type} (config : Config) :
    Program α → World → Except EngineError α × World
  | .done value, w => (.ok value, w)
  | .fail error, w => (.error error, w)
  | .record event next, w => next.simulate config (w.record event)
  | .call site c next, w =>
    (next (w.await (config.timeout site.limit) c).1).simulate config
      (w.await (config.timeout site.limit) c).2
  | .together jobs next, w =>
    (next (w.runTogether config jobs).1).simulate config (w.runTogether config jobs).2

end CloudBalancer
