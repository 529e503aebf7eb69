import CloudBalancer.Proofs.Passage

/-!
Runs in stages. A program that goes on with another one does so in the world that the first has
left, with what is left of the script. So what is learnt from an answer on the way can be put to
use for the rest of the run.
-/

namespace CloudBalancer

variable {α β : Type} {w : World} {config : Config}

namespace World

theorem script_reached (w : World) (c : Call) (reply : Reply) (deadline : Nat) :
    (w.reach c reply deadline).2.script ⊆ w.script := by
  rw [script_reach]
  exact List.Subset.refl _

theorem script_issue (w : World) (limit : Nat) (c : Call) :
    (w.issue limit c).2.script ⊆ w.script := by
  have left := (w.script.take_mem c.operation).2
  unfold issue
  dsimp only
  split
  · exact List.Subset.trans (script_reached ..) left
  · split <;> exact left

theorem script_await (w : World) (limit : Nat) (c : Call) :
    (w.await limit c).2.script ⊆ w.script := by
  rw [(w.await_awaited limit c).script]
  exact (w.script.take_mem c.operation).2

theorem script_advance (config : Config) (job : Job Unit) (w : World) :
    (job.advance config w).2.script ⊆ w.script := by
  induction job generalizing w with
  | done value => exact List.Subset.refl _
  | fail e => exact List.Subset.refl _
  | record event next ih => exact ih (w.record event)
  | call site c next ih =>
      have issued := w.script_issue (config.timeout site.limit) c
      unfold Job.advance
      split
      case h_3 heq =>
        rw [heq] at issued
        exact List.Subset.trans (ih _ _) issued
      all_goals
        next heq =>
        rwa [heq] at issued

theorem script_wake (w : World) (config : Config) (job : Held) :
    (w.wake config job).2.script ⊆ w.script := by
  cases job with
  | outgoing site c call next =>
      have arrived := w.script_arrive c call
      unfold wake
      dsimp only
      split
      · next heq =>
        rw [heq] at arrived
        exact arrived ▸ List.Subset.refl _
      · next heq =>
        rw [heq] at arrived
        exact arrived ▸ script_advance config _ _
  | returning site c call next =>
      have finished := w.script_finish call
      exact finished ▸ script_advance config _ _

theorem script_runHeld (config : Config) (held : List Held) (w : World) :
    (w.runHeld config held).2.script ⊆ w.script := by
  fun_induction World.runHeld config held w with
  | case1 held w none => exact List.Subset.refl _
  | case2 held w before job after split e next woken =>
      have woke := w.script_wake config job
      rwa [woken] at woke
  | case3 held w before job after split next woken ih =>
      have woke := w.script_wake config job
      rw [woken] at woke
      exact List.Subset.trans ih woke
  | case4 held w before job after split again next woken ih =>
      have woke := w.script_wake config job
      rw [woken] at woke
      exact List.Subset.trans ih woke

theorem script_startAll (config : Config) (jobs : List (Job Unit)) (w : World) :
    (w.startAll config jobs).2.script ⊆ w.script := by
  induction jobs generalizing w with
  | nil => exact List.Subset.refl _
  | cons job rest ih =>
      have advanced := script_advance config job w
      unfold startAll
      split
      · next heq =>
        rwa [heq] at advanced
      all_goals
        next heq =>
        rw [heq] at advanced
        exact List.Subset.trans (ih _) advanced

theorem script_runTogether (config : Config) (jobs : List (Job Unit)) (w : World) :
    (w.runTogether config jobs).2.script ⊆ w.script := by
  have started := script_startAll config jobs w
  unfold runTogether
  split
  · next heq =>
    rwa [heq] at started
  · next heq =>
    rw [heq] at started
    exact List.Subset.trans (script_runHeld ..) started

end World

namespace Program

/-- A run uses replies up and adds none. -/
theorem script_simulate (config : Config) (program : Program α) (w : World) :
    (program.simulate config w).2.script ⊆ w.script := by
  induction program generalizing w with
  | done value => exact List.Subset.refl _
  | fail e => exact List.Subset.refl _
  | record event next ih => exact ih (w.record event)
  | call site c next ih =>
      exact List.Subset.trans (ih _ _) (w.script_await (config.timeout site.limit) c)
  | together jobs next ih => exact List.Subset.trans (ih _ _) (w.script_runTogether config jobs)

theorem simulate_bind (config : Config) (program : Program α) (f : α → Program β) (w : World) :
    (program >>= f).simulate config w =
      match program.simulate config w with
      | (.ok value, after) => (f value).simulate config after
      | (.error e, after) => (.error e, after) := by
  show (program.bind f).simulate config w = _
  induction program generalizing w with
  | done value => rfl
  | fail e => rfl
  | record event next ih => exact ih (w.record event)
  | call site c next ih => exact ih _ _
  | together jobs next ih => exact ih _ _

theorem simulate_handle (config : Config) (program : Program α)
    (handler : EngineError → Program α) (w : World) :
    (program.handle handler).simulate config w =
      match program.simulate config w with
      | (.ok value, after) => (.ok value, after)
      | (.error e, after) => (handler e).simulate config after := by
  induction program generalizing w with
  | done value => rfl
  | fail e => rfl
  | record event next ih => exact ih (w.record event)
  | call site c next ih => exact ih _ _
  | together jobs next ih => exact ih _ _

/-- What a program within a contract comes to, if it comes to a value. -/
theorem Within.value {contract : Contract} {Good : Cloud → Prop} {former : List Call}
    {post : α → Prop} {program : Program α} (h : program.Within contract post)
    (sound : w.Sound contract Good former) (keeps : contract.Keeps Good) (config : Config)
    {value : α} (hvalue : (program.simulate config w).1 = .ok value) : post value := by
  induction program generalizing w with
  | done v =>
      obtain rfl := Except.ok.inj hvalue
      exact h
  | fail e => cases hvalue
  | record event next ih =>
      have recorded : (w.record event).Sound contract Good former :=
        ⟨sound.good, sound.script, sound.calls⟩
      exact ih h recorded hvalue
  | call site c next ih =>
      have awaited := sound.await keeps (config.timeout site.limit) h.1
      exact ih _ (h.2 _ awaited.2) awaited.1 hvalue
  | together jobs next ih => exact ih _ (h.2 _) (sound.runTogether keeps config h.1) hvalue

theorem ofJob_bind (job : Job α) (f : α → Job β) :
    ofJob (job >>= f) = ofJob job >>= fun value => ofJob (f value) := by
  show ofJob (job.bind f) = (ofJob job).bind fun value => ofJob (f value)
  induction job with
  | done value => rfl
  | fail e => rfl
  | record event next ih => exact congrArg (Program.record event) ih
  | call site c next ih => exact congrArg (Program.call site c) (funext ih)

@[simp]
theorem ofJob_ofExcept (result : Except EngineError α) :
    ofJob (Job.ofExcept result) = Program.ofExcept result := by
  cases result <;> rfl

/-- From a world with `before`, the program comes to a value and a world with `after`, or it fails
and leaves a world with `failed`. -/
def Leads (config : Config) (before : World → Prop) (program : Program α)
    (after : α → World → Prop) (failed : World → Prop) : Prop :=
  ∀ w, before w →
    match program.simulate config w with
    | (.ok value, next) => after value next
    | (.error _, next) => failed next

namespace Leads

variable {before failed : World → Prop} {middle : α → World → Prop} {after : β → World → Prop}

theorem bind {program : Program α} {f : α → Program β}
    (h : program.Leads config before middle failed)
    (hf : ∀ value, (f value).Leads config (middle value) after failed) :
    (program >>= f).Leads config before after failed := by
  intro w hw
  have first := h w hw
  rw [simulate_bind]
  cases hfirst : program.simulate config w with
  | mk result next =>
      rw [hfirst] at first
      cases result with
      | ok value => exact hf value next first
      | error e => exact first

theorem bindJob {job : Job α} {f : α → Job β} (h : (ofJob job).Leads config before middle failed)
    (hf : ∀ value, (ofJob (f value)).Leads config (middle value) after failed) :
    (ofJob (job >>= f)).Leads config before after failed := by
  rw [ofJob_bind]
  exact h.bind hf

theorem ofExcept {result : Except EngineError α}
    (ok : ∀ value, result = .ok value → ∀ w, before w → middle value w)
    (error : ∀ w, before w → failed w) :
    (Program.ofExcept result).Leads config before middle failed := by
  intro w hw
  cases result with
  | ok value => exact ok value rfl w hw
  | error e => exact error w hw

theorem pure {value : α} (h : ∀ w, before w → middle value w) :
    (Pure.pure value : Program α).Leads config before middle failed :=
  h

/-- A call whose failure is attributed to a target. -/
theorem remote {limit : Limit} {c : Call} {middle : c.Answer → World → Prop} (target : Target)
    (answered : ∀ w, before w → ∀ answer,
      (w.await (config.timeout limit) c).1 = .answered answer →
        middle answer (w.await (config.timeout limit) c).2)
    (unanswered : ∀ w, before w → failed (w.await (config.timeout limit) c).2) :
    (ofJob (Job.remote limit target c)).Leads config before middle failed := by
  intro w hw
  have answered := answered w hw
  have unanswered := unanswered w hw
  simp only [Job.remote, ofJob, simulate]
  cases houtcome : (w.await (config.timeout limit) c).1 with
  | answered answer => exact answered answer houtcome
  | refused e => exact unanswered
  | timedOut => exact unanswered

theorem imp {program : Program α} {weaker : α → World → Prop}
    (h : program.Leads config before middle failed)
    (himp : ∀ value w, middle value w → weaker value w) :
    program.Leads config before weaker failed := by
  intro w hw
  have ended := h w hw
  split
  · next heq =>
    rw [heq] at ended
    exact himp _ _ ended
  · next heq =>
    rw [heq] at ended
    exact ended

/-- What the program leaves, if it leaves the same however it ends. -/
theorem final {program : Program α} {last : World → Prop}
    (h : program.Leads config before (fun _ => last) last) (hw : before w) :
    last (program.simulate config w).2 := by
  have ended := h w hw
  cases hprogram : program.simulate config w with
  | mk result next =>
      rw [hprogram] at ended
      cases result <;> exact ended

end Leads

section Immediate

/-- A job that need not wait does the same on its own. -/
theorem simulate_of_ended {job : Job Unit} {result : Except EngineError Unit} {after : World}
    (h : job.advance config w = (.ended result, after)) :
    (ofJob job).simulate config w = (result, after) := by
  induction job generalizing w with
  | done value =>
      cases h
      rfl
  | fail e =>
      cases h
      rfl
  | record event next ih => exact ih h
  | call site c next ih =>
      unfold Job.advance at h
      split at h
      · cases h
      · cases h
      · next outcome settled issued =>
        have awaited : w.await (config.timeout site.limit) c = (outcome, settled) := by
          unfold World.await
          rw [issued]
          rfl
        show (ofJob (next (w.await (config.timeout site.limit) c).1)).simulate config
          (w.await (config.timeout site.limit) c).2 = _
        rw [awaited]
        exact ih outcome h

/-- A first job that need not wait is over before the others of its group begin. -/
theorem Leads.group {before middle failed : World → Prop} {after : Unit → World → Prop}
    {wrap : EngineError → EngineError} {job : Job Unit} {rest : List (Job Unit)}
    (ends : ∀ w, before w → ∃ result after, job.advance config w = (.ended result, after))
    (first : (ofJob job).Leads config before (fun _ => middle) failed)
    (others : (Program.group wrap rest).Leads config middle after failed) :
    (Program.group wrap (job :: rest)).Leads config before after failed := by
  intro w hw
  obtain ⟨result, next, hadvance⟩ := ends w hw
  have ended := first w hw
  rw [simulate_of_ended hadvance] at ended
  cases result with
  | ok _ =>
      have started := others next ended
      simpa only [Program.group, simulate, World.runTogether, World.startAll, hadvance] using
        started
  | error e =>
      simpa only [Program.group, simulate, World.runTogether, World.startAll, hadvance] using ended

end Immediate

end Program

/-- The reply to a call that need not wait for it. -/
structure Reply.Immediate (reply : Reply) : Prop where
  before : reply.beforeSecs = 0
  after : reply.afterSecs = 0
  answered : reply.hang = false

/-- No call of the operation has to wait. -/
def Script.Immediate (op : Operation) (script : Script) : Prop :=
  ∀ entry ∈ script, entry.1 = op → entry.2.Immediate

theorem Script.Immediate.take {script : Script} {op : Operation} (h : script.Immediate op) :
    (script.take op).1.Immediate := by
  rcases (script.take_mem op).1 with unscripted | ⟨entry, hentry, hop, htaken⟩
  · rw [unscripted]
    exact ⟨rfl, rfl, rfl⟩
  · rw [htaken]
    exact h entry hentry hop

theorem Script.Immediate.left {script left : Script} {op : Operation} (h : script.Immediate op)
    (subset : left ⊆ script) : left.Immediate op :=
  fun entry hentry => h entry (subset hentry)

/-- A call that need not wait is settled when it is issued. -/
theorem World.issue_of_immediate (limit : Nat) {c : Call}
    (immediate : w.script.Immediate c.operation) :
    ∃ outcome after, w.issue limit c = (.reached (.settled outcome), after) := by
  obtain ⟨before, after, answered⟩ := immediate.take
  simp [issue, reach, before, after, answered]

theorem Script.TruthfulAbout.left {script left : Script} {about : Call → Prop}
    (truthful : script.TruthfulAbout about) (subset : left ⊆ script) :
    Script.TruthfulAbout about left :=
  fun entry hentry => truthful entry (subset hentry)

namespace Reconcile

variable {k : Kind} {name : String}

/-- To record a failure changes nothing in the cloud. -/
theorem cloud_reporting (config : Config) (name : String) (program : Program Status) (w : World) :
    ((reporting name program).simulate config w).2.cloud = (program.simulate config w).2.cloud := by
  rw [reporting, Program.simulate_handle]
  split
  · next h => rw [h]
  · next h => rw [h]; rfl

/-- What a description of an existing balancer comes to, if the call is answered. -/
def ofDescription (k : Kind) (name : String) :
    Outcome (List k.Port) → Except EngineError (List k.Port)
  | .answered [] => .error (.vanished name)
  | .answered ports => .ok ports
  | .refused e =>
    .error (if e.code = k.notFound then .vanished name
      else .remote (.describe k) (.balancer name) e)
  | .timedOut => .error (.timeout (.describe k) (.balancer name))

theorem simulate_describeExisting (k : Kind) (name : String) (config : Config) (w : World) :
    (Program.ofJob (describeExisting k name)).simulate config w =
      (ofDescription k name (w.await (config.timeout .api) (.describe k name)).1,
        (w.await (config.timeout .api) (.describe k name)).2) := by
  show Program.simulate config (Program.ofJob (Job.bind _ _)) _ = _
  simp only [describe, Job.remoteUnless, Job.bind, bind, Program.ofJob, Program.simulate]
  rcases (w.await (config.timeout .api) (.describe k name)).1 with (_ | ⟨first, rest⟩) | e | _
  · rfl
  · rfl
  · simp only [ofDescription]
    split <;> rfl
  · rfl

/-- A description that is not made up says what there is. -/
theorem ports_of_describeExisting {about : Call → Prop}
    (truthful : w.script.TruthfulAbout about) (habout : about (.describe k name))
    {ports : List k.Port} {after : World}
    (h : (Program.ofJob (describeExisting k name)).simulate config w = (.ok ports, after)) :
    after.cloud.inventory.ports k name = ports ∧ ports ≠ [] := by
  rw [simulate_describeExisting, Prod.mk.injEq] at h
  obtain ⟨hports, rfl⟩ := h
  have genuine := (truthful.take (Call.describe k name).operation).1 _ habout
  rcases answered : (w.await (config.timeout .api) (.describe k name)).1
    with (_ | ⟨first, rest⟩) | e | _
  all_goals rw [answered] at hports; cases hports
  obtain ⟨held, unchanged⟩ := Inventory.describe_eq_ok (World.await_applied genuine answered)
  exact ⟨unchanged ▸ held, List.cons_ne_nil first rest⟩

end Reconcile

end CloudBalancer
