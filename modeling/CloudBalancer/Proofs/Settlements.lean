import CloudBalancer.Proofs.Interleaving

/-!
How the calls of a run come to their end. The settlements of a run are its calls that were answered,
refused or given up, in the order in which their outcomes came back to the program. A call of a job
whose group has ended before has no outcome: it is dropped.

The jobs of a group take turns, and go on from one wait to the next without being interrupted. So
what holds of such stretches, and of one after the other, holds of a group: `Ledger` says what is
needed for that.
-/

namespace CloudBalancer

/-- A call that has come to its end. -/
structure Settlement where
  site : Site
  call : Call
  outcome : Outcome call.Answer
  /-- What was in the cloud by then. -/
  inventory : Inventory
  /-- Whether the call was made by a job of a group. -/
  grouped : Bool

/-- The calls that are settled while a job goes on until it ends or has to wait. -/
def Job.settlements (config : Config) : Job Unit → World → List Settlement
  | .done (), _ => []
  | .fail _, _ => []
  | .record event next, w => next.settlements config (w.record event)
  | .call site c next, w =>
    match w.issue (config.timeout site.limit) c with
    | (.outgoing _, _) => []
    | (.reached (.returning _), _) => []
    | (.reached (.settled outcome), w) =>
      ⟨site, c, outcome, w.cloud.inventory, true⟩ :: (next outcome).settlements config w

namespace World

/-- The calls that are settled when a held job goes on. -/
def settledByWake (w : World) (config : Config) : Held → List Settlement
  | .outgoing site c call next =>
    match w.arrive c call with
    | (.returning _, _) => []
    | (.settled outcome, w) =>
      ⟨site, c, outcome, w.cloud.inventory, true⟩ :: (next outcome).settlements config w
  | .returning site c call next =>
    let (outcome, w) := w.finish call
    ⟨site, c, outcome, w.cloud.inventory, true⟩ :: (next outcome).settlements config w

/-- The calls that are settled until a group of held jobs has ended. -/
def settledByHeld (config : Config) (held : List Held) (w : World) : List Settlement :=
  match _split : Held.earliest held with
  | none => []
  | some (before, job, after) =>
    w.settledByWake config job ++
      match _woken : w.wake config job with
      | (.ended (.error _), _) => []
      | (.ended (.ok ()), next) => settledByHeld config (before ++ after) next
      | (.held again, next) => settledByHeld config (before ++ again :: after) next
termination_by Held.totalWeight held + 2 * w.script.length
decreasing_by
  all_goals
    have descent := w.weight_wake config job
    rw [_woken] at descent
    simp only [Standing.weight] at descent
    simp only [Held.earliest_eq _split, Held.totalWeight_append, Held.totalWeight]
    omega

/-- The calls that are settled while jobs are started. -/
def settledByStart (config : Config) : List (Job Unit) → World → List Settlement
  | [], _ => []
  | job :: rest, w =>
    job.settlements config w ++
      match job.advance config w with
      | (.ended (.error _), _) => []
      | (_, w) => settledByStart config rest w

/-- The calls that are settled while jobs run side by side. -/
def settledTogether (config : Config) (jobs : List (Job Unit)) (w : World) : List Settlement :=
  w.settledByStart config jobs ++
    match w.startAll config jobs with
    | (.error _, _) => []
    | (.ok held, w) => w.settledByHeld config held

end World

/-- The calls that are settled while a program runs. -/
def Program.settlements {α : Type} (config : Config) : Program α → World → List Settlement
  | .done _, _ => []
  | .fail _, _ => []
  | .record event next, w => next.settlements config (w.record event)
  | .call site c next, w =>
    ⟨site, c, (w.await (config.timeout site.limit) c).1,
        (w.await (config.timeout site.limit) c).2.cloud.inventory, false⟩ ::
      (next (w.await (config.timeout site.limit) c).1).settlements config
        (w.await (config.timeout site.limit) c).2
  | .together jobs next, w =>
    w.settledTogether config jobs ++
      (next (w.runTogether config jobs).1).settlements config (w.runTogether config jobs).2

section Records

variable {w : World} {c : Call}

/-- Calls and events are on record only for those who issue and record them. -/
theorem World.records_reach (w : World) (c : Call) (reply : Reply) (deadline : Nat) :
    (w.reach c reply deadline).2.calls = w.calls ∧
      (w.reach c reply deadline).2.events = w.events := by
  obtain ⟨cloud, hreach, -⟩ := w.reach_eq c reply deadline
  rw [hreach]
  exact ⟨rfl, rfl⟩

theorem World.records_issue (w : World) (limit : Nat) (c : Call) :
    (w.issue limit c).2.calls = w.calls ++ [c] ∧ (w.issue limit c).2.events = w.events := by
  rw [World.issue]
  dsimp only
  split
  · exact World.records_reach { w with calls := w.calls ++ [c], script := _ } ..
  · split <;> exact ⟨rfl, rfl⟩

theorem World.records_arrive (w : World) (c : Call) (call : Outgoing) :
    (w.arrive c call).2.calls = w.calls ∧ (w.arrive c call).2.events = w.events := by
  rw [World.arrive]
  split
  · exact World.records_reach { w with now := call.arrival } ..
  · exact ⟨rfl, rfl⟩

theorem World.records_finish (w : World) (call : Returning c) :
    (w.finish call).2.calls = w.calls ∧ (w.finish call).2.events = w.events := by
  obtain ⟨now, hfinish⟩ := w.finish_eq call
  rw [hfinish]
  exact ⟨rfl, rfl⟩

theorem World.records_await (w : World) (limit : Nat) (c : Call) :
    (w.await limit c).2.calls = w.calls ++ [c] ∧ (w.await limit c).2.events = w.events := by
  have settled {reached : Reached c} {after : World} (calls : after.calls = w.calls ++ [c])
      (events : after.events = w.events) :
      (World.settle (reached, after)).2.calls = w.calls ++ [c] ∧
        (World.settle (reached, after)).2.events = w.events := by
    cases reached with
    | settled outcome => exact ⟨calls, events⟩
    | returning call =>
        obtain ⟨hcalls, hevents⟩ := after.records_finish call
        exact ⟨hcalls.trans calls, hevents.trans events⟩
  have issued := w.records_issue limit c
  rw [World.await]
  split
  · next call after heq =>
    rw [heq] at issued
    obtain ⟨hcalls, hevents⟩ := after.records_arrive c call
    exact settled (hcalls.trans issued.1) (hevents.trans issued.2)
  · next heq =>
    rw [heq] at issued
    exact settled issued.1 issued.2

end Records

theorem World.settledByHeld_eq {config : Config} {held before after : List Held} {job : Held}
    (split : Held.earliest held = some (before, job, after)) (w : World) :
    w.settledByHeld config held = w.settledByWake config job ++
      match w.wake config job with
      | (.ended (.error _), _) => []
      | (.ended (.ok ()), next) => next.settledByHeld config (before ++ after)
      | (.held again, next) => next.settledByHeld config (before ++ again :: after) := by
  conv => lhs; unfold World.settledByHeld
  split
  · next none => simp [split] at none
  · next h =>
    cases split.symm.trans h
    rcases w.wake config job with ⟨(e | value) | again, next⟩ <;> rfl

/-- A failure is reported without asking anything of the cloud. -/
theorem Program.settlements_reporting (name : String) (program : Program Status) (config : Config)
    (w : World) :
    (Reconcile.reporting name program).settlements config w = program.settlements config w := by
  show (program.handle _).settlements config w = _
  induction program generalizing w with
  | done value => rfl
  | fail e => rfl
  | record event next ih => exact ih (w.record event)
  | call site c next ih => exact congrArg _ (ih _ _)
  | together jobs next ih => exact congrArg _ (ih _ _)

/-- What the job still has to do once its call has come to an end, and that call. -/
def Held.pending : Held → Job Unit
  | .outgoing site c _ next => .call site c next
  | .returning site c _ next => .call site c next

section Accounting

variable (config : Config)

def Held.call : Held → Call
  | .outgoing _ c _ _ => c
  | .returning _ c _ _ => c

/-- The call that a job waits for. -/
def Standing.waiting : Standing → List Call
  | .ended _ => []
  | .held job => [job.call]

theorem Job.calls_advance (job : Job Unit) (w : World) :
    (job.advance config w).2.calls =
      w.calls ++ ((job.settlements config w).map Settlement.call ++
        (job.advance config w).1.waiting) := by
  induction job generalizing w with
  | done value => exact (List.append_nil _).symm
  | fail e => exact (List.append_nil _).symm
  | record event next ih => exact ih (w.record event)
  | call site c next ih =>
      have records := (w.records_issue (config.timeout site.limit) c).1
      rw [Job.advance, Job.settlements]
      cases issued : w.issue (config.timeout site.limit) c with
      | mk call after =>
          rw [issued] at records
          cases call with
          | outgoing call => exact records
          | reached call =>
              cases call with
              | returning call => exact records
              | settled outcome =>
                  refine (ih outcome after).trans ?_
                  rw [records, List.append_assoc]
                  rfl

/-- How a held job goes on: it still waits for its call, or does what is next for the outcome. -/
inductive World.Wakes (w : World) (job : Held) : Prop
  | waits (again : Held) (after : World) (woken : w.wake config job = (.held again, after))
    (log : w.settledByWake config job = []) (pending : again.pending = job.pending)
    (call : again.call = job.call) (calls : after.calls = w.calls)
    (events : after.events = w.events)
  | goes (site : Site) (c : Call) (next : Outcome c.Answer → Job Unit) (outcome : Outcome c.Answer)
    (after : World) (woken : w.wake config job = (next outcome).advance config after)
    (log : w.settledByWake config job =
      ⟨site, c, outcome, after.cloud.inventory, true⟩ :: (next outcome).settlements config after)
    (pending : job.pending = .call site c next) (call : job.call = c)
    (calls : after.calls = w.calls) (events : after.events = w.events)

theorem World.wakes (w : World) (job : Held) : w.Wakes config job := by
  cases job with
  | outgoing site c call next =>
      have records := w.records_arrive c call
      rcases arrived : w.arrive c call with ⟨outcome | call, after⟩
      all_goals rw [arrived] at records
      · exact .goes site c next outcome after (by simp only [World.wake, arrived])
          (by simp only [World.settledByWake, arrived]) rfl rfl records.1 records.2
      · exact .waits (.returning site c call next) after (by simp only [World.wake, arrived])
          (by simp only [World.settledByWake, arrived]) rfl rfl records.1 records.2
  | returning site c call next =>
      have records := w.records_finish call
      exact .goes site c next _ _ rfl rfl rfl rfl records.1 records.2

/-- A held job that goes on settles its call and whatever else it issues, but for the call that it
waits for next. -/
theorem World.issued_wake (job : Held) (w : World) :
    ∃ issued, (w.wake config job).2.calls = w.calls ++ issued ∧
      job.call :: issued = (w.settledByWake config job).map Settlement.call ++
        (w.wake config job).1.waiting := by
  cases w.wakes config job with
  | waits again after woken log pending call calls events =>
      rw [woken, log]
      exact ⟨[], calls.trans (List.append_nil _).symm, congrArg ([·]) call.symm⟩
  | goes site c next outcome after woken log pending call calls events =>
      rw [woken, log, call, Job.calls_advance, calls]
      exact ⟨_, rfl, rfl⟩

theorem World.calls_wake (job : Held) (w : World) :
    ((w.wake config job).2.calls ++ [job.call]).Perm
      (w.calls ++ ((w.settledByWake config job).map Settlement.call ++
        (w.wake config job).1.waiting)) := by
  obtain ⟨issued, calls, settled⟩ := w.issued_wake config job
  rw [calls, ← settled, List.append_assoc]
  exact (List.perm_append_singleton _ _).append_left w.calls

/-- Accounts of one stretch and of the rest of a group make up an account of both. -/
theorem perm_resume {α : Type}
    {start between final calls settled more dropped waiting before after : List α}
    (stretch : (between ++ calls).Perm (start ++ (settled ++ waiting)))
    (rest : (final ++ (before ++ waiting ++ after)).Perm (between ++ (more ++ dropped))) :
    (final ++ (before ++ calls ++ after)).Perm (start ++ (settled ++ more ++ dropped)) := by
  classical
  refine List.perm_iff_count.2 fun c => ?_
  have counted := stretch.count_eq c
  have counted_rest := rest.count_eq c
  simp only [List.count_append] at counted counted_rest ⊢
  omega

/-- Every call that was issued is settled in the end, unless the group fails and drops it. -/
theorem World.calls_runHeld (held : List Held) (w : World) :
    ∃ dropped, ((w.runHeld config held).2.calls ++ held.map Held.call).Perm
        (w.calls ++ ((w.settledByHeld config held).map Settlement.call ++ dropped)) ∧
      ((w.runHeld config held).1 = .ok () → dropped = []) := by
  fun_induction World.runHeld config held w with
  | case1 held w none =>
      obtain rfl := Held.earliest_eq_none none
      rw [World.settledByHeld]
      exact ⟨[], .refl _, fun _ => rfl⟩
  | case2 held w before job after split e next woken =>
      have wakes := w.calls_wake config job
      rw [woken] at wakes
      rw [World.settledByHeld_eq split, Held.earliest_eq split, woken]
      simp only [List.map_append, List.map_cons]
      rw [List.append_cons (before.map Held.call)]
      exact ⟨before.map Held.call ++ after.map Held.call,
        perm_resume wakes (by simp [Standing.waiting]), fun h => by cases h⟩
  | case3 held w before job after split next woken ih =>
      obtain ⟨dropped, perm, none⟩ := ih
      have wakes := w.calls_wake config job
      rw [woken] at wakes
      rw [World.settledByHeld_eq split, Held.earliest_eq split, woken]
      simp only [List.map_append, List.map_cons] at perm ⊢
      rw [List.append_cons (before.map Held.call)]
      exact ⟨dropped, perm_resume wakes (by simpa [Standing.waiting] using perm), none⟩
  | case4 held w before job after split again next woken ih =>
      obtain ⟨dropped, perm, none⟩ := ih
      have wakes := w.calls_wake config job
      rw [woken] at wakes
      rw [World.settledByHeld_eq split, Held.earliest_eq split, woken]
      simp only [List.map_append, List.map_cons] at perm ⊢
      rw [List.append_cons (before.map Held.call)]
      exact ⟨dropped, perm_resume wakes (by simpa [Standing.waiting] using perm), none⟩

/-- Where all jobs were started, those that have not ended wait for their calls. -/
theorem World.calls_startAll (jobs : List (Job Unit)) (w : World) :
    ∃ waiting, (w.startAll config jobs).2.calls.Perm
        (w.calls ++ ((w.settledByStart config jobs).map Settlement.call ++ waiting)) ∧
      ∀ held, (w.startAll config jobs).1 = .ok held → waiting = held.map Held.call := by
  induction jobs generalizing w with
  | nil =>
      refine ⟨[], by simp [startAll, settledByStart], ?_⟩
      intro held started
      cases started
      rfl
  | cons job rest ih =>
      have advances := job.calls_advance config w
      rw [World.startAll, World.settledByStart]
      cases advanced : job.advance config w with
      | mk standing after =>
          rw [advanced] at advances
          obtain ⟨waiting, perm, started⟩ := ih after
          have both : (after.startAll config rest).2.calls.Perm (w.calls ++
              ((job.settlements config w ++ after.settledByStart config rest).map
                Settlement.call ++ (standing.waiting ++ waiting))) := by
            refine perm.trans ?_
            rw [advances]
            simp only [List.map_append, List.append_assoc]
            exact ((List.perm_append_comm_assoc ..).append_left _).append_left _
          cases standing with
          | held waits =>
              refine ⟨waits.call :: waiting, both, fun held all => ?_⟩
              cases others : (after.startAll config rest).1 with
              | error e => simp [others, Except.map] at all
              | ok held' =>
                  simp only [others, Except.map, Except.ok.injEq] at all
                  rw [← all, started held' others]
                  rfl
          | ended result =>
              cases result with
              | ok value => exact ⟨waiting, both, started⟩
              | error e =>
                  exact ⟨[], .of_eq (by simpa [Standing.waiting] using advances),
                    fun _ h => by cases h⟩

/-- Every call that a group has issued is settled in the end, unless the group fails. -/
theorem World.calls_runTogether (jobs : List (Job Unit)) (w : World) :
    ∃ dropped, (w.runTogether config jobs).2.calls.Perm
        (w.calls ++ ((w.settledTogether config jobs).map Settlement.call ++ dropped)) ∧
      ((w.runTogether config jobs).1 = .ok () → dropped = []) := by
  obtain ⟨waiting, perm, started⟩ := w.calls_startAll config jobs
  rw [World.runTogether, World.settledTogether]
  cases hstart : w.startAll config jobs with
  | mk result after =>
      rw [hstart] at perm started
      cases result with
      | error e =>
          rw [List.append_nil]
          exact ⟨waiting, perm, fun h => by cases h⟩
      | ok held =>
          obtain ⟨dropped, ran, none⟩ := after.calls_runHeld config held
          rw [started held rfl] at perm
          refine ⟨dropped, ?_, none⟩
          have stretch : (after.calls ++ []).Perm (w.calls ++
              ((w.settledByStart config jobs).map Settlement.call ++ held.map Held.call)) := by
            simpa using perm
          have rest : ((after.runHeld config held).2.calls ++ ([] ++ held.map Held.call ++ [])).Perm
              (after.calls ++ ((after.settledByHeld config held).map Settlement.call ++
                dropped)) := by
            simpa using ran
          rw [List.map_append]
          simpa using perm_resume stretch rest

end Accounting

/-- What may be said of what is settled and recorded in a stretch: while it is under way, with what
is left of its job, and when it ends well or with a failure. -/
structure Ledger where
  stands : List Settlement → List AuditEvent → Job Unit → Prop
  balanced : List Settlement → List AuditEvent → Prop
  broken : List Settlement → List AuditEvent → EngineError → Prop

namespace Ledger

/-- What is said of stretches is true of every stretch, and of one after the other. -/
structure Sound (ledger : Ledger) : Prop where
  nil : ledger.balanced [] []
  append : ∀ {log more trail further}, ledger.balanced log trail → ledger.balanced more further →
    ledger.balanced (log ++ more) (trail ++ further)
  breaks : ∀ {log more trail further e}, ledger.balanced log trail →
    ledger.broken more further e → ledger.broken (log ++ more) (trail ++ further) e
  done : ∀ {log trail}, ledger.stands log trail (.done ()) → ledger.balanced log trail
  fail : ∀ {log trail e}, ledger.stands log trail (.fail e) → ledger.broken log trail e
  record : ∀ {log trail event next}, ledger.stands log trail (.record event next) →
    ledger.stands log (trail ++ [event]) next
  call : ∀ {log trail site c next}, ledger.stands log trail (.call site c next) →
    ledger.balanced log trail ∧ ledger.stands [] [] (.call site c next)
  settle : ∀ {site c next}, ledger.stands [] [] (.call site c next) →
    ∀ outcome inventory, ledger.stands [⟨site, c, outcome, inventory, true⟩] [] (next outcome)

/-- What is true of a stretch by how it ended. -/
def Closes (ledger : Ledger) (log : List Settlement) (trail : List AuditEvent) : Standing → Prop
  | .ended (.ok ()) => ledger.balanced log trail
  | .ended (.error e) => ledger.broken log trail e
  | .held job => ledger.balanced log trail ∧ ledger.stands [] [] job.pending

/-- What is true of a group by how it ended. -/
def Concludes (ledger : Ledger) (log : List Settlement) (trail : List AuditEvent) :
    Except EngineError Unit → Prop
  | .ok () => ledger.balanced log trail
  | .error e => ledger.broken log trail e

/-- What is true of jobs that were started, by what became of them. -/
def Opens (ledger : Ledger) (log : List Settlement) (trail : List AuditEvent) :
    Except EngineError (List Held) → Prop
  | .ok held => ledger.balanced log trail ∧ ∀ job ∈ held, ledger.stands [] [] job.pending
  | .error e => ledger.broken log trail e

variable {ledger : Ledger} (sound : ledger.Sound) (config : Config)
  {log more : List Settlement} {trail further : List AuditEvent}

include sound

theorem Closes.after {standing : Standing} (balanced : ledger.balanced log trail)
    (closes : ledger.Closes more further standing) :
    ledger.Closes (log ++ more) (trail ++ further) standing := by
  cases standing with
  | ended result =>
      cases result with
      | ok value => exact sound.append balanced closes
      | error e => exact sound.breaks balanced closes
  | held job => exact ⟨sound.append balanced closes.1, closes.2⟩

theorem Concludes.after {result : Except EngineError Unit} (balanced : ledger.balanced log trail)
    (concludes : ledger.Concludes more further result) :
    ledger.Concludes (log ++ more) (trail ++ further) result := by
  cases result with
  | ok value => exact sound.append balanced concludes
  | error e => exact sound.breaks balanced concludes

theorem Opens.after {started : Except EngineError (List Held)}
    (balanced : ledger.balanced log trail) (opens : ledger.Opens more further started) :
    ledger.Opens (log ++ more) (trail ++ further) started := by
  cases started with
  | ok held => exact ⟨sound.append balanced opens.1, opens.2⟩
  | error e => exact sound.breaks balanced opens

omit sound in
theorem Opens.hold {started : Except EngineError (List Held)} {job : Held}
    (waits : ledger.stands [] [] job.pending) (opens : ledger.Opens log trail started) :
    ledger.Opens log trail (started.map (job :: ·)) := by
  cases started with
  | ok held => exact ⟨opens.1, List.forall_mem_cons.2 ⟨waits, opens.2⟩⟩
  | error e => exact opens

theorem advance {job : Job Unit} (stands : ledger.stands log trail job) (w : World) :
    ∃ fresh, (job.advance config w).2.events = w.events ++ fresh ∧
      ledger.Closes (log ++ job.settlements config w) (trail ++ fresh)
        (job.advance config w).1 := by
  induction job generalizing log trail w with
  | done value =>
      refine ⟨[], (List.append_nil _).symm, ?_⟩
      show ledger.balanced (log ++ []) (trail ++ [])
      simpa using sound.done stands
  | fail e =>
      refine ⟨[], (List.append_nil _).symm, ?_⟩
      show ledger.broken (log ++ []) (trail ++ []) e
      simpa using sound.fail stands
  | record event next ih =>
      obtain ⟨fresh, hevents, closes⟩ := ih (sound.record stands) (w.record event)
      rw [List.append_assoc] at closes
      exact ⟨event :: fresh, by rw [Job.advance, hevents]; simp [World.record], closes⟩
  | call site c next ih =>
      obtain ⟨balanced, waits⟩ := sound.call stands
      have records := (w.records_issue (config.timeout site.limit) c).2
      rw [Job.advance, Job.settlements]
      rcases issued : w.issue (config.timeout site.limit) c with ⟨call | outcome | call, after⟩
      · rw [issued] at records
        exact ⟨[], by simpa using records, by simpa using balanced, waits⟩
      · rw [issued] at records
        obtain ⟨fresh, hevents, closes⟩ :=
          ih outcome (sound.settle waits outcome after.cloud.inventory) after
        refine ⟨fresh, by rw [hevents, records], ?_⟩
        exact Closes.after sound balanced closes
      · rw [issued] at records
        exact ⟨[], by simpa using records, by simpa using balanced, waits⟩

theorem wake {job : Held} (waits : ledger.stands [] [] job.pending) (w : World) :
    ∃ fresh, (w.wake config job).2.events = w.events ++ fresh ∧
      ledger.Closes (w.settledByWake config job) fresh (w.wake config job).1 := by
  cases w.wakes config job with
  | waits again after woken log pending call calls events =>
      rw [woken, log]
      exact ⟨[], events.trans (List.append_nil _).symm, sound.nil, pending ▸ waits⟩
  | goes site c next outcome after woken log pending call calls events =>
      rw [pending] at waits
      obtain ⟨fresh, hevents, closes⟩ :=
        advance sound config (sound.settle waits outcome after.cloud.inventory) after
      rw [woken, log]
      exact ⟨fresh, by rw [hevents, events], closes⟩

theorem runHeld (held : List Held) (w : World)
    (waits : ∀ job ∈ held, ledger.stands [] [] job.pending) :
    ∃ fresh, (w.runHeld config held).2.events = w.events ++ fresh ∧
      ledger.Concludes (w.settledByHeld config held) fresh (w.runHeld config held).1 := by
  fun_induction World.runHeld config held w with
  | case1 held w none =>
      obtain rfl := Held.earliest_eq_none none
      rw [World.settledByHeld]
      exact ⟨[], (List.append_nil _).symm, sound.nil⟩
  | case2 held w before job after split e next woken =>
      obtain ⟨fresh, hevents, closes⟩ :=
        wake sound config (waits job (by simp [Held.earliest_eq split])) w
      rw [World.settledByHeld_eq split, woken, List.append_nil]
      rw [woken] at hevents closes
      exact ⟨fresh, hevents, closes⟩
  | case3 held w before job after split next woken ih =>
      have hheld := Held.earliest_eq split
      obtain ⟨fresh, hevents, closes⟩ :=
        wake sound config (waits job (by simp [hheld])) w
      rw [woken] at hevents closes
      obtain ⟨rest, hrest, concludes⟩ := ih fun other hother => waits other (by
        rw [hheld]
        exact (List.sublist_cons_self ..).append_left before |>.subset hother)
      rw [World.settledByHeld_eq split, woken]
      exact ⟨fresh ++ rest, by rw [hrest, hevents, List.append_assoc],
        Concludes.after sound closes concludes⟩
  | case4 held w before job after split again next woken ih =>
      have hheld := Held.earliest_eq split
      obtain ⟨fresh, hevents, closes⟩ :=
        wake sound config (waits job (by simp [hheld])) w
      rw [woken] at hevents closes
      obtain ⟨rest, hrest, concludes⟩ := ih fun other hother => by
        rcases List.mem_append.1 hother with hother | hother
        · exact waits other (by simp [hheld, hother])
        · rcases List.mem_cons.1 hother with rfl | hother
          · exact closes.2
          · exact waits other (by simp [hheld, hother])
      rw [World.settledByHeld_eq split, woken]
      exact ⟨fresh ++ rest, by rw [hrest, hevents, List.append_assoc],
        Concludes.after sound closes.1 concludes⟩

theorem startAll {jobs : List (Job Unit)} (stands : ∀ job ∈ jobs, ledger.stands [] [] job)
    (w : World) :
    ∃ fresh, (w.startAll config jobs).2.events = w.events ++ fresh ∧
      ledger.Opens (w.settledByStart config jobs) fresh (w.startAll config jobs).1 := by
  induction jobs generalizing w with
  | nil => exact ⟨[], (List.append_nil _).symm, sound.nil, fun _ hjob => by cases hjob⟩
  | cons job rest ih =>
      obtain ⟨fresh, hevents, closes⟩ :=
        advance sound config (stands job List.mem_cons_self) w
      have others : ∀ job ∈ rest, ledger.stands [] [] job := fun j hj => stands j (.tail job hj)
      rw [World.startAll, World.settledByStart]
      rcases advanced : job.advance config w with ⟨(e | value) | waiting, after⟩
      all_goals rw [advanced] at hevents closes
      · refine ⟨fresh, hevents, ?_⟩
        show ledger.broken (job.settlements config w ++ []) fresh e
        simpa [Closes] using closes
      all_goals
        obtain ⟨more, hmore, opens⟩ := ih others after
        refine ⟨fresh ++ more, hmore.trans (by rw [hevents, List.append_assoc]), ?_⟩
      · exact Opens.after sound closes opens
      · exact Opens.after sound closes.1 (opens.hold closes.2)

/-- What is said of stretches is true of groups. -/
theorem runTogether {jobs : List (Job Unit)} (stands : ∀ job ∈ jobs, ledger.stands [] [] job)
    (w : World) :
    ∃ fresh, (w.runTogether config jobs).2.events = w.events ++ fresh ∧
      ledger.Concludes (w.settledTogether config jobs) fresh (w.runTogether config jobs).1 := by
  obtain ⟨fresh, hevents, opens⟩ := startAll sound config stands w
  rw [World.runTogether, World.settledTogether]
  rcases hstart : w.startAll config jobs with ⟨e | held, after⟩
  all_goals rw [hstart] at hevents opens
  · exact ⟨fresh, hevents, by simpa [Opens, Concludes] using opens⟩
  · obtain ⟨more, hmore, concludes⟩ := runHeld sound config held after opens.2
    exact ⟨fresh ++ more, by rw [hmore, hevents, List.append_assoc],
      Concludes.after sound opens.1 concludes⟩

end Ledger

end CloudBalancer
