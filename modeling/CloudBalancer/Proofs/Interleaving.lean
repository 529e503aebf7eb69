import CloudBalancer.Proofs.Commutation
import CloudBalancer.Proofs.Sites
import CloudBalancer.Proofs.Stages

/-!
Runs in a world where calls may wait, but not for too long, and are answered by the cloud itself.
Then it does not matter in which order the jobs of a group go on, if these keep apart and would all
be done without waiting. What carries the argument is what the jobs still have to do: done one after
the other they always come to the same, wherever they stand.
-/

namespace CloudBalancer

variable {α : Type} {config : Config} {w : World} {c : Call}

/-- The reply leaves the answer to the cloud, and it comes in time. -/
structure Reply.Timely (config : Config) (c : Call) (reply : Reply) : Prop where
  answered : reply.hang = false
  unfailing : reply.error = none
  genuine : reply.madeUp? c = none
  inTime : clockSeconds reply.beforeSecs + clockSeconds reply.afterSecs ≤
    config.timeout c.limit

/-- Each of the calls is answered by the cloud itself, in time, and without a failure that was
waiting for it. -/
structure World.Patient (config : Config) (asked : Call → Prop) (w : World) : Prop where
  prompt : ∀ c, asked c → w.cloud.failures.lookup c.operation = none
  timely : ∀ entry ∈ w.script, ∀ c, asked c → c.operation = entry.1 → entry.2.Timely config c

theorem clockSeconds_pos {seconds : UInt64} (h : seconds ≠ 0) : 0 < clockSeconds seconds := by
  unfold clockSeconds
  split
  · refine Nat.pos_of_ne_zero fun none => h ?_
    exact UInt64.toNat_inj.1 none
  · omega

theorem Script.timely_take {script : Script} {asked : Call → Prop}
    (timely : ∀ entry ∈ script, ∀ c, asked c → c.operation = entry.1 → entry.2.Timely config c)
    (hc : asked c) : (script.take c.operation).1.Timely config c := by
  rcases (script.take_mem c.operation).1 with unscripted | ⟨entry, hentry, hop, htaken⟩
  · rw [unscripted]
    exact ⟨rfl, rfl, Reply.madeUp?_eq_none rfl rfl rfl rfl c, Nat.zero_le _⟩
  · rw [htaken]
    exact timely entry hentry c hc hop.symm

namespace World

variable {asked : Call → Prop}

/-- The world once the cloud has performed a call. -/
structure Performs (w : World) (c : Call) (after : World) : Prop where
  inventory : after.cloud.inventory = (w.cloud.inventory.answer c).2
  failures : after.cloud.failures = w.cloud.failures
  script : after.script = w.script
  calls : after.calls = w.calls

theorem Patient.left {after : World} (patient : w.Patient config asked)
    (failures : after.cloud.failures = w.cloud.failures) (script : after.script ⊆ w.script) :
    after.Patient config asked :=
  ⟨fun c hc => failures ▸ patient.prompt c hc,
    fun entry hentry => patient.timely entry (script hentry)⟩

theorem Performs.patient {after : World} (performs : w.Performs c after)
    (patient : w.Patient config asked) : after.Patient config asked :=
  patient.left performs.failures (performs.script ▸ List.Subset.refl _)

end World

theorem Cloud.perform_answer {cloud : Cloud} (prompt : cloud.failures.lookup c.operation = none) :
    Outcome.ofExcept (cloud.perform c).1 = (cloud.inventory.answer c).1 ∧
      (cloud.perform c).2.inventory = (cloud.inventory.answer c).2 ∧
      (cloud.perform c).2.failures = cloud.failures := by
  simp only [Cloud.perform, prompt, Inventory.answer]
  cases cloud.inventory.apply c <;> exact ⟨rfl, rfl, rfl⟩

/-- A call has reached the cloud and was performed. Its answer is there, or it is on its way and
will be there in time. -/
inductive Reached.Arrives (outcome : Outcome c.Answer) : Reached c → Prop
  | settled : Arrives outcome (.settled outcome)
  | returning {call : Returning c} {time : Nat} {result : Except ApiError c.Answer}
    (arrival : call.arrival = some (time, result)) (inTime : time ≤ call.deadline)
    (answers : Outcome.ofExcept result = outcome) : Arrives outcome (.returning call)

theorem World.reach_of_timely {reply : Reply} {deadline : Nat} (timely : reply.Timely config c)
    (prompt : w.cloud.failures.lookup c.operation = none)
    (inTime : w.now + clockSeconds reply.afterSecs ≤ deadline) :
    (w.reach c reply deadline).1.Arrives (w.cloud.inventory.answer c).1 ∧
      w.Performs c (w.reach c reply deadline).2 := by
  have answers : reply.answer w.cloud c = w.cloud.perform c := by
    simp only [Reply.answer, timely.unfailing, timely.genuine]
  obtain ⟨outcome, inventory, failures⟩ := Cloud.perform_answer prompt
  unfold World.reach
  simp only [timely.answered, answers]
  split
  · contradiction
  split
  · refine ⟨?_, inventory, failures, rfl, rfl⟩
    rw [outcome]
    exact .settled
  · next waits =>
    have later : w.now < deadline :=
      Nat.lt_of_lt_of_le (Nat.lt_add_of_pos_right (clockSeconds_pos waits)) inTime
    refine ⟨?_, inventory, failures, rfl, rfl⟩
    simp only [World.hold]
    rw [if_neg (Nat.not_le.2 later)]
    exact .returning rfl inTime outcome

namespace World

variable {asked : Call → Prop}

/-- The world once a call has been issued. -/
structure Issues (w : World) (c : Call) (after : World) : Prop where
  cloud : after.cloud = w.cloud
  script : after.script ⊆ w.script
  calls : after.calls = w.calls ++ [c]

theorem Issues.patient {after : World} (issues : w.Issues c after)
    (patient : w.Patient config asked) : after.Patient config asked :=
  patient.left (by rw [issues.cloud]) issues.script

end World

/-- The call on its way will be there, and its answer will be back, in time. -/
structure Outgoing.Timely (config : Config) (c : Call) (call : Outgoing) : Prop where
  reply : call.reply.Timely config c
  inTime : call.arrival + clockSeconds call.reply.afterSecs ≤ call.deadline

/-- A call has been issued and is on its way, or has reached the cloud and was performed. -/
inductive Issued.Arrives (config : Config) (w : World) (c : Call) : Issued c × World → Prop
  | outgoing {call : Outgoing} {after : World} (issues : w.Issues c after)
    (timely : call.Timely config c) : Arrives config w c (.outgoing call, after)
  | reached {call : Reached c} {logged after : World} (issues : w.Issues c logged)
    (performs : logged.Performs c after)
    (arrives : call.Arrives (w.cloud.inventory.answer c).1) :
    Arrives config w c (.reached call, after)

section Waits

variable {asked : Call → Prop} (patient : w.Patient config asked) (hc : asked c)

include patient hc

theorem World.issue_of_patient :
    Issued.Arrives config w c (w.issue (config.timeout c.limit) c) := by
  have timely := Script.timely_take patient.timely hc
  have prompt := patient.prompt c hc
  let logged : World :=
    { w with calls := w.calls ++ [c], script := (w.script.take c.operation).2 }
  have issues : w.Issues c logged := ⟨rfl, (w.script.take_mem c.operation).2, rfl⟩
  have inTime := timely.inTime
  unfold World.issue
  dsimp only
  split
  · next unhurried =>
    have within : logged.now + clockSeconds (w.script.take c.operation).1.afterSecs ≤
        w.now + config.timeout c.limit := by
      show w.now + _ ≤ _
      omega
    obtain ⟨arrives, performs⟩ := World.reach_of_timely (w := logged) timely prompt within
    exact .reached issues performs arrives
  · next waits =>
    have positive := clockSeconds_pos waits
    rw [if_neg (by omega)]
    exact .outgoing issues ⟨timely, by dsimp only; omega⟩

/-- An outgoing call arrives. -/
theorem World.arrive_of_timely {call : Outgoing} (timely : call.Timely config c) :
    (w.arrive c call).1.Arrives (w.cloud.inventory.answer c).1 ∧
      w.Performs c (w.arrive c call).2 := by
  have inTime := timely.inTime
  unfold World.arrive
  rw [if_pos (by omega)]
  obtain ⟨arrives, performs⟩ := World.reach_of_timely (w := { w with now := call.arrival })
    timely.reply (patient.prompt c hc) inTime
  exact ⟨arrives, performs.inventory, performs.failures, performs.script, performs.calls⟩

end Waits

/-- A call that waits for its answer gets it. -/
theorem World.finish_of_arrives {call : Returning c} {outcome : Outcome c.Answer}
    (arrives : (Reached.returning call).Arrives outcome) (w : World) :
    ∃ time, w.finish call = (outcome, { w with now := time }) := by
  cases arrives with
  | @returning _ time result arrival inTime answers =>
      refine ⟨time, ?_⟩
      simp only [World.finish, arrival, if_pos inTime, answers]

/-- A call is answered by the cloud as it is. -/
theorem World.await_of_patient {asked : Call → Prop} (patient : w.Patient config asked)
    (hc : asked c) :
    (w.await (config.timeout c.limit) c).1 = (w.cloud.inventory.answer c).1 ∧
      (w.await (config.timeout c.limit) c).2.cloud.inventory = (w.cloud.inventory.answer c).2 ∧
      (w.await (config.timeout c.limit) c).2.calls = w.calls ++ [c] ∧
      (w.await (config.timeout c.limit) c).2.Patient config asked := by
  have settles {before after : World} {call : Reached c} {outcome : Outcome c.Answer}
      (arrives : call.Arrives outcome) (performs : before.Performs c after)
      (issues : w.Issues c before) :
      (World.settle (call, after)).1 = outcome ∧
        (World.settle (call, after)).2.cloud.inventory = (w.cloud.inventory.answer c).2 ∧
        (World.settle (call, after)).2.calls = w.calls ++ [c] ∧
        (World.settle (call, after)).2.Patient config asked := by
    have inventory := performs.inventory
    rw [issues.cloud] at inventory
    have calls := performs.calls.trans issues.calls
    have left := performs.patient (issues.patient patient)
    cases call with
    | settled value =>
        cases arrives
        exact ⟨rfl, inventory, calls, left⟩
    | returning call =>
        obtain ⟨time, hfinish⟩ := World.finish_of_arrives arrives after
        simp only [World.settle, hfinish]
        exact ⟨trivial, inventory, calls, left.left rfl (List.Subset.refl _)⟩
  have issued := World.issue_of_patient patient hc
  unfold World.await
  cases issued' : w.issue (config.timeout c.limit) c with
  | mk call after =>
      rw [issued'] at issued
      cases issued with
      | @outgoing call _ issues timely =>
          obtain ⟨arrives, performs⟩ :=
            World.arrive_of_timely (issues.patient patient) hc timely
          rw [issues.cloud] at arrives
          exact settles arrives performs issues
      | reached issues performs arrives => exact settles arrives performs issues

/-- Jobs side by side, with the calls of theirs that have been issued and not been performed yet.
Done one after the other, what is left of the jobs comes to `final`, and its calls are what is left
of `goal`. -/
structure Tracks (config : Config) (asked : Call → Prop) (goal : List Call) (final : Inventory)
    (jobs : List (Job Unit)) (underway : List Call) (w : World) : Prop where
  patient : w.Patient config asked
  effect : effectTogether jobs w.cloud.inventory = (.ok (), final)
  asks : ∀ c ∈ askedTogether jobs w.cloud.inventory, asked c
  calls : (w.calls ++ askedTogether jobs w.cloud.inventory).Perm (goal ++ underway)
  separate : jobs.Pairwise Job.Separate
  due : ∀ job ∈ jobs, job.Sited Site.Due

namespace Held

/-- What the job still has to do. -/
def rest : Held → Job Unit
  | .outgoing site c _ next => .call site c next
  | .returning _ _ call next =>
    match call.arrival with
    | some (_, result) => next (.ofExcept result)
    | none => next .timedOut

/-- The call of the job that has not been performed yet. -/
def underway : Held → List Call
  | .outgoing _ c _ _ => [c]
  | .returning .. => []

theorem earliest_eq_none {held : List Held} (h : earliest held = none) : held = [] := by
  cases held with
  | nil => rfl
  | cons job rest =>
      unfold earliest at h
      split at h
      · cases h
      · split at h <;> cases h

/-- The job does not wait in vain. -/
def Timely (config : Config) : Held → Prop
  | .outgoing _ c call _ => call.Timely config c
  | .returning _ _ call _ =>
    ∃ time result, call.arrival = some (time, result) ∧ time ≤ call.deadline

end Held

namespace Tracks

variable {asked : Call → Prop} {goal underway : List Call} {final : Inventory}
  {before after : List (Job Unit)} {site : Site} {next : Outcome c.Answer → Job Unit}

theorem replace {job other : Job Unit} (separate : (before ++ job :: after).Pairwise Job.Separate)
    (left : ∀ first, Job.Separate first job → Job.Separate first other)
    (right : ∀ last, Job.Separate job last → Job.Separate other last) :
    (before ++ other :: after).Pairwise Job.Separate := by
  obtain ⟨hbefore, hrest, across⟩ := List.pairwise_append.1 separate
  obtain ⟨hjob, hafter⟩ := List.pairwise_cons.1 hrest
  refine List.pairwise_append.2 ⟨hbefore, List.pairwise_cons.2
    ⟨fun last hlast => right last (hjob last hlast), hafter⟩, fun first hfirst last hlast => ?_⟩
  rcases List.mem_cons.1 hlast with rfl | hlast
  · exact left first (across first hfirst job List.mem_cons_self)
  · exact across first hfirst last (.tail job hlast)

theorem replace_due {job other : Job Unit}
    (due : ∀ first ∈ before ++ job :: after, first.Sited Site.Due) (hother : other.Sited Site.Due) :
    ∀ first ∈ before ++ other :: after, first.Sited Site.Due := by
  obtain ⟨hbefore, hrest⟩ := List.forall_mem_append.1 due
  exact List.forall_mem_append.2
    ⟨hbefore, List.forall_mem_cons.2 ⟨hother, (List.forall_mem_cons.1 hrest).2⟩⟩

/-- The calls of the others change places with the first call of a job. -/
theorem commutes (tracks : Tracks config asked goal final (before ++ .call site c next :: after)
    underway w) : ∀ job ∈ before, job.Makes c.Commutes := by
  intro job hjob
  have separate := (List.pairwise_append.1 tracks.separate).2.2 job hjob _ List.mem_cons_self
  exact separate.mono fun c' makes => makes.first.symm

theorem asks_first (tracks : Tracks config asked goal final (before ++ .call site c next :: after)
    underway w) : asked c :=
  tracks.asks c ((together_call tracks.commutes tracks.effect).2.mem_iff.2 List.mem_cons_self)

theorem due_first (tracks : Tracks config asked goal final
    (before ++ .call site c next :: after) underway w) :
    (Job.call site c next).Sited Site.Due :=
  tracks.due _ (List.mem_append_right before List.mem_cons_self)

theorem issue {logged : World} (tracks : Tracks config asked goal final
    (before ++ .call site c next :: after) underway w) (issues : w.Issues c logged) :
    Tracks config asked goal final (before ++ .call site c next :: after) (c :: underway)
      logged := by
  obtain ⟨patient, effect, asks, calls, separate, due⟩ := tracks
  refine ⟨issues.patient patient, issues.cloud ▸ effect, issues.cloud ▸ asks, ?_, separate, due⟩
  rw [issues.calls, issues.cloud, List.append_assoc, List.singleton_append]
  exact (List.perm_middle.trans (calls.cons c)).trans List.perm_middle.symm

/-- A call that was issued is performed, and its job has the answer. -/
theorem perform {performed : World} (tracks : Tracks config asked goal final
    (before ++ .call site c next :: after) (c :: underway) w) (performs : w.Performs c performed) :
    Tracks config asked goal final (before ++ next (w.cloud.inventory.answer c).1 :: after)
      underway performed := by
  obtain ⟨effect, calls⟩ := together_call tracks.commutes tracks.effect
  rw [← performs.inventory] at effect calls
  refine ⟨performs.patient tracks.patient, effect, fun c' hc' => ?_, ?_, ?_,
    replace_due tracks.due (tracks.due_first.2 _)⟩
  · exact tracks.asks c' (calls.mem_iff.2 (.tail c hc'))
  · rw [performs.calls]
    have counted := ((calls.append_left w.calls).symm.trans tracks.calls).trans List.perm_middle
    exact (List.perm_middle.symm.trans counted).cons_inv
  · exact replace tracks.separate (fun first h => h.mono fun c' makes => makes.after _)
      fun last h => h.after _

/-- What is left of some of the jobs may be put in another way. -/
theorem restate {jobs others : List (Job Unit)}
    (tracks : Tracks config asked goal final (before ++ jobs) underway w)
    (same : ∀ inv, effectTogether jobs inv = effectTogether others inv ∧
      askedTogether jobs inv = askedTogether others inv)
    (separate : (before ++ others).Pairwise Job.Separate)
    (due : ∀ job ∈ before ++ others, job.Sited Site.Due) :
    Tracks config asked goal final (before ++ others) underway w := by
  obtain ⟨patient, effect, asks, calls, -, -⟩ := tracks
  obtain ⟨heffect, hasked⟩ := together_append same before w.cloud.inventory
  exact ⟨patient, heffect ▸ effect, hasked ▸ asks, hasked ▸ calls, separate, due⟩

theorem moved {later : World} (tracks : Tracks config asked goal final before underway w)
    (cloud : later.cloud = w.cloud) (script : later.script = w.script)
    (calls : later.calls = w.calls) : Tracks config asked goal final before underway later := by
  obtain ⟨patient, effect, asks, counted, separate, due⟩ := tracks
  refine ⟨patient.left (by rw [cloud]) (script ▸ List.Subset.refl _), ?_, ?_, ?_, separate, due⟩
  · rwa [cloud]
  · rwa [cloud]
  · rwa [calls, cloud]

end Tracks

/-- A job of a group goes on without failing: it is done, or waits again. -/
def Standing.Tracked (config : Config) (asked : Call → Prop) (goal : List Call) (final : Inventory)
    (before after : List (Job Unit)) (underway : List Call) : Standing × World → Prop
  | (.ended result, w) =>
    result = .ok () ∧ Tracks config asked goal final (before ++ after) underway w
  | (.held job, w) => job.Timely config ∧
    Tracks config asked goal final (before ++ job.rest :: after) (job.underway ++ underway) w

section Groups

variable {asked : Call → Prop} {goal underway : List Call} {final : Inventory}
  {before after : List (Job Unit)}

theorem rest_returning (config : Config) {site : Site} {call : Returning c}
    {outcome : Outcome c.Answer} (arrives : (Reached.returning call).Arrives outcome)
    (next : Outcome c.Answer → Job Unit) :
    (Held.returning site c call next).rest = next outcome ∧
      (Held.returning site c call next).Timely config := by
  cases arrives with
  | @returning _ time result arrival inTime answers =>
      refine ⟨?_, time, result, arrival, inTime⟩
      simp only [Held.rest, arrival, answers]

theorem Job.advance_tracked (job : Job Unit)
    (tracks : Tracks config asked goal final (before ++ job :: after) underway w) :
    Standing.Tracked config asked goal final before after underway (job.advance config w) := by
  induction job generalizing w with
  | done value =>
      have others := (List.sublist_cons_self (Job.done value) after).append_left before
      exact ⟨rfl, tracks.restate (fun _ => ⟨rfl, rfl⟩) (tracks.separate.sublist others)
        fun other hother => tracks.due other (others.subset hother)⟩
  | fail e => exact absurd tracks.effect together_fail
  | record event next ih =>
      have due : (Job.record event next).Sited Site.Due :=
        tracks.due _ (List.mem_append_right before List.mem_cons_self)
      have tracks : Tracks config asked goal final (before ++ next :: after) underway w :=
        tracks.restate (fun _ => ⟨rfl, rfl⟩)
          (Tracks.replace tracks.separate (fun _ => id) fun _ => id)
          (Tracks.replace_due tracks.due due)
      exact ih (tracks.moved rfl rfl rfl)
  | call site c next ih =>
      have issued := World.issue_of_patient tracks.patient tracks.asks_first
      unfold Job.advance
      rw [show site.limit = c.limit from tracks.due_first.1]
      cases hissue : w.issue (config.timeout c.limit) c with
      | mk call left =>
          rw [hissue] at issued
          cases issued with
          | outgoing issues timely => exact ⟨timely, tracks.issue issues⟩
          | @reached call logged left issues performs arrives =>
              have performed := (tracks.issue issues).perform performs
              rw [issues.cloud] at performed
              cases call with
              | settled outcome =>
                  cases arrives
                  exact ih _ performed
              | returning call =>
                  obtain ⟨hrest, timely⟩ := rest_returning config arrives next
                  exact ⟨timely, hrest ▸ performed⟩

theorem World.wake_tracked {job : Held} (timely : job.Timely config)
    (tracks : Tracks config asked goal final (before ++ job.rest :: after)
      (job.underway ++ underway) w) :
    Standing.Tracked config asked goal final before after underway (w.wake config job) := by
  cases job with
  | outgoing site c call next =>
      obtain ⟨arrives, performs⟩ :=
        World.arrive_of_timely tracks.patient tracks.asks_first timely
      have performed := tracks.perform performs
      unfold World.wake
      dsimp only
      cases harrive : w.arrive c call with
      | mk reached left =>
          rw [harrive] at arrives performed
          cases reached with
          | settled outcome =>
              cases arrives
              exact Job.advance_tracked _ performed
          | returning call =>
              obtain ⟨hrest, timely⟩ := rest_returning config arrives next
              exact ⟨timely, hrest ▸ performed⟩
  | returning site c call next =>
      obtain ⟨time, result, arrival, inTime⟩ := timely
      obtain ⟨time, hfinish⟩ := World.finish_of_arrives (.returning arrival inTime rfl) w
      simp only [Held.rest, arrival] at tracks
      simp only [World.wake, hfinish]
      exact Job.advance_tracked _ (tracks.moved rfl rfl rfl)

theorem Tracks.reorder {jobs : List (Job Unit)} {calls : List Call}
    (tracks : Tracks config asked goal final jobs underway w) (perm : underway.Perm calls) :
    Tracks config asked goal final jobs calls w :=
  ⟨tracks.patient, tracks.effect, tracks.asks, tracks.calls.trans (perm.append_left goal),
    tracks.separate, tracks.due⟩

/-- What is left when a group is done. -/
structure Concluded (config : Config) (asked : Call → Prop) (goal : List Call) (final : Inventory)
    (w : World) : Prop where
  patient : w.Patient config asked
  inventory : w.cloud.inventory = final
  calls : w.calls.Perm goal

theorem World.runHeld_tracked {held : List Held} (timely : ∀ job ∈ held, job.Timely config)
    (tracks : Tracks config asked goal final (held.map Held.rest) (held.flatMap Held.underway) w) :
    (w.runHeld config held).1 = .ok () ∧
      Concluded config asked goal final (w.runHeld config held).2 := by
  have split {held before after : List Held} {job : Held} {w : World}
      (hsplit : Held.earliest held = some (before, job, after))
      (tracks : Tracks config asked goal final (held.map Held.rest)
        (held.flatMap Held.underway) w) :
      Tracks config asked goal final (before.map Held.rest ++ job.rest :: after.map Held.rest)
        (job.underway ++ (before ++ after).flatMap Held.underway) w := by
    obtain rfl := Held.earliest_eq hsplit
    rw [List.map_append, List.map_cons] at tracks
    refine tracks.reorder ?_
    simp only [List.flatMap_append, List.flatMap_cons]
    exact (List.perm_append_comm_assoc ..)
  fun_induction World.runHeld config held w with
  | case1 held w none =>
      obtain rfl := Held.earliest_eq_none none
      obtain ⟨patient, effect, -, calls, -, -⟩ := tracks
      refine ⟨rfl, patient, ?_, by simpa [askedTogether] using calls⟩
      simpa [effectTogether] using effect
  | case2 held w before job after hsplit e next woken =>
      have tracked := World.wake_tracked (timely job (by simp [Held.earliest_eq hsplit]))
        (split hsplit tracks)
      rw [woken] at tracked
      cases tracked.1
  | case3 held w before job after hsplit next woken ih =>
      have hheld := Held.earliest_eq hsplit
      have tracked := World.wake_tracked (timely job (by simp [hheld])) (split hsplit tracks)
      rw [woken] at tracked
      refine ih (fun other hother => timely other ?_) (by simpa using tracked.2)
      rw [hheld]
      exact (List.sublist_cons_self ..).append_left before |>.subset hother
  | case4 held w before job after hsplit again next woken ih =>
      have hheld := Held.earliest_eq hsplit
      have tracked := World.wake_tracked (timely job (by simp [hheld])) (split hsplit tracks)
      rw [woken] at tracked
      refine ih (fun other hother => ?_) ?_
      · rcases List.mem_append.1 hother with hother | hother
        · exact timely other (by simp [hheld, hother])
        · rcases List.mem_cons.1 hother with rfl | hother
          · exact tracked.1
          · exact timely other (by simp [hheld, hother])
      · rw [List.map_append, List.map_cons]
        refine tracked.2.reorder ?_
        simp only [List.flatMap_append, List.flatMap_cons]
        exact (List.perm_append_comm_assoc ..)

/-- Jobs are started, each until it has to wait. -/
theorem World.startAll_tracked (jobs : List (Job Unit))
    (tracks : Tracks config asked goal final (before ++ jobs) underway w) :
    ∃ held left, w.startAll config jobs = (.ok held, left) ∧
      (∀ job ∈ held, job.Timely config) ∧
      Tracks config asked goal final (before ++ held.map Held.rest)
        (held.flatMap Held.underway ++ underway) left := by
  induction jobs generalizing before underway w with
  | nil => exact ⟨[], w, rfl, fun _ hjob => (by cases hjob), by simpa using tracks⟩
  | cons job rest ih =>
      have tracked := job.advance_tracked tracks
      unfold World.startAll
      cases hadvance : job.advance config w with
      | mk standing left =>
          rw [hadvance] at tracked
          cases standing with
          | ended result =>
              obtain ⟨rfl, tracks⟩ := tracked
              exact ih tracks
          | held job =>
              obtain ⟨waits, tracks⟩ := tracked
              have tracks : Tracks config asked goal final ((before ++ [job.rest]) ++ rest)
                  (job.underway ++ underway) left := by simpa using tracks
              obtain ⟨held, last, hstart, timely, tracks⟩ := ih tracks
              refine ⟨job :: held, last, by simp [hstart, Except.map], ?_, ?_⟩
              · intro other hother
                rcases List.mem_cons.1 hother with rfl | hother
                · exact waits
                · exact timely other hother
              · refine Tracks.reorder (by simpa using tracks) ?_
                simp only [List.flatMap_cons, List.append_assoc]
                exact List.perm_append_comm_assoc ..

/-- Jobs that keep apart come to the same side by side as one after the other. -/
theorem World.runTogether_of_patient {jobs : List (Job Unit)} (patient : w.Patient config asked)
    (separate : jobs.Pairwise Job.Separate) (due : ∀ job ∈ jobs, job.Sited Site.Due)
    (effect : effectTogether jobs w.cloud.inventory = (.ok (), final))
    (asks : ∀ c ∈ askedTogether jobs w.cloud.inventory, asked c) :
    (w.runTogether config jobs).1 = .ok () ∧
      Concluded config asked (w.calls ++ askedTogether jobs w.cloud.inventory) final
        (w.runTogether config jobs).2 := by
  have tracks : Tracks config asked (w.calls ++ askedTogether jobs w.cloud.inventory) final
      ([] ++ jobs) [] w :=
    ⟨patient, effect, asks, by simp, separate, due⟩
  obtain ⟨held, left, hstart, timely, tracks⟩ := World.startAll_tracked jobs tracks
  unfold World.runTogether
  rw [hstart]
  exact World.runHeld_tracked timely (by simpa using tracks)

end Groups

namespace Program

variable {β : Type}

/-- The calls that a program makes if each is answered at once. -/
def asked : Program α → Inventory → List Call
  | .done _, _ => []
  | .fail _, _ => []
  | .record _ next, inv => next.asked inv
  | .call _ c next, inv => c :: (next (inv.answer c).1).asked (inv.answer c).2
  | .together jobs next, inv =>
    askedTogether jobs inv ++
      (next (effectTogether jobs inv).1).asked (effectTogether jobs inv).2

/-- The jobs of each group keep apart, and with a group the whole program fails. -/
def Orderly : Program α → Prop
  | .done _ => True
  | .fail _ => True
  | .record _ next => next.Orderly
  | .call _ _ next => ∀ outcome, (next outcome).Orderly
  | .together jobs next => jobs.Pairwise Job.Separate ∧ (∀ result, (next result).Orderly) ∧
      ∀ e inv, ∃ e', ((next (.error e)).effect inv).1 = .error e'

theorem effect_call (site : Site) (c : Call) (next : Outcome c.Answer → Program α)
    (inv : Inventory) :
    (Program.call site c next).effect inv = (next (inv.answer c).1).effect (inv.answer c).2 := by
  simp only [effect, Inventory.answer]
  cases inv.apply c <;> rfl

/-- A program comes to the same, by the same calls, however long these have to wait. -/
theorem simulate_of_patient {program : Program α} (orderly : program.Orderly)
    (due : program.Sited Site.Due) {asks : Call → Prop} (patient : w.Patient config asks)
    (asked : ∀ c ∈ program.asked w.cloud.inventory, asks c) {value : α} {final : Inventory}
    (effect : program.effect w.cloud.inventory = (.ok value, final)) :
    (program.simulate config w).1 = .ok value ∧
      (program.simulate config w).2.cloud.inventory = final ∧
      (program.simulate config w).2.calls.Perm
        (w.calls ++ program.asked w.cloud.inventory) := by
  induction program generalizing w with
  | done v =>
      obtain ⟨hvalue, rfl⟩ := Prod.mk.inj effect
      exact ⟨hvalue, rfl, by simp [Program.asked, simulate]⟩
  | fail e => cases effect
  | record event next ih =>
      have recorded : (w.record event).Patient config asks :=
        patient.left rfl (List.Subset.refl _)
      exact ih orderly due recorded asked effect
  | call site c next ih =>
      obtain ⟨outcome, inventory, calls, left⟩ :=
        World.await_of_patient patient (asked c List.mem_cons_self)
      rw [← show site.limit = c.limit from due.1] at outcome inventory calls left
      rw [effect_call, ← outcome, ← inventory] at effect
      have asked' : ∀ c' ∈ (next (w.await (config.timeout site.limit) c).1).asked
          (w.await (config.timeout site.limit) c).2.cloud.inventory, asks c' := by
        rw [outcome, inventory]
        exact fun c' hc' => asked c' (.tail c hc')
      obtain ⟨hvalue, hfinal, hcalls⟩ := ih _ (orderly _) (due.2 _) left asked' effect
      refine ⟨hvalue, hfinal, hcalls.trans ?_⟩
      simp [calls, outcome, inventory, Program.asked]
  | together jobs next ih =>
      obtain ⟨separate, rest, fails⟩ := orderly
      simp only [Program.effect] at effect
      rcases hgroup : effectTogether jobs w.cloud.inventory with ⟨e | ⟨⟩, middle⟩
      · obtain ⟨e', failed⟩ := fails e middle
        rw [hgroup, Prod.ext_iff, failed] at effect
        cases effect.1
      · have hasked : (Program.together jobs next).asked w.cloud.inventory =
            askedTogether jobs w.cloud.inventory ++ (next (.ok ())).asked middle := by
          simp only [Program.asked, hgroup]
        rw [hasked] at asked
        rw [hgroup] at effect
        obtain ⟨outcome, left, inventory, calls⟩ := World.runTogether_of_patient patient separate
          due.1 hgroup fun c hc => asked c (List.mem_append_left _ hc)
        rw [← outcome, ← inventory] at effect
        have asked' : ∀ c ∈ (next (w.runTogether config jobs).1).asked
            (w.runTogether config jobs).2.cloud.inventory, asks c := by
          rw [outcome, inventory]
          exact fun c hc => asked c (List.mem_append_right _ hc)
        obtain ⟨hvalue, hfinal, hcalls⟩ := ih _ (rest _) (due.2 _) left asked' effect
        refine ⟨hvalue, hfinal, hcalls.trans ?_⟩
        rw [hasked, ← List.append_assoc, outcome, inventory]
        exact calls.append_right _

namespace Orderly

theorem ofJob (job : Job α) : (Program.ofJob job).Orderly := by
  induction job with
  | done value => trivial
  | fail e => trivial
  | record event next ih => exact ih
  | call site c next ih => exact ih

theorem ofExcept (result : Except EngineError α) : (Program.ofExcept result).Orderly := by
  cases result <;> trivial

theorem bind {program : Program α} {f : α → Program β} (h : program.Orderly)
    (hf : ∀ value, (f value).Orderly) : (program >>= f).Orderly := by
  show (program.bind f).Orderly
  induction program with
  | done value => exact hf value
  | fail e => trivial
  | record event next ih => exact ih h
  | call site c next ih => exact fun outcome => ih outcome (h outcome)
  | together jobs next ih =>
      obtain ⟨separate, rest, fails⟩ := h
      refine ⟨separate, fun result => ih result (rest result), fun e inv => ?_⟩
      obtain ⟨e', failed⟩ := fails e inv
      refine ⟨e', ?_⟩
      show ((next (.error e) >>= f).effect inv).1 = _
      rw [effect_bind]
      rcases hnext : (next (.error e)).effect inv with ⟨result, after⟩
      rw [hnext] at failed
      obtain rfl : result = .error e' := failed
      rfl

theorem group {jobs : List (Job Unit)} (wrap : EngineError → EngineError)
    (separate : jobs.Pairwise Job.Separate) : (Program.group wrap jobs).Orderly := by
  refine ⟨separate, fun result => ?_, fun e inv => ⟨wrap e, rfl⟩⟩
  cases result <;> trivial

theorem forEach {ι : Type} {items : List ι} {step : ι → Program Unit}
    (h : ∀ item ∈ items, (step item).Orderly) : (Program.forEach items step).Orderly := by
  induction items with
  | nil => trivial
  | cons item rest ih =>
      rw [Program.forEach_cons]
      exact (h item List.mem_cons_self).bind fun _ => ih fun i hi => h i (.tail item hi)

theorem reporting {program : Program Status} (name : String) (h : program.Orderly) :
    (Reconcile.reporting name program).Orderly := by
  induction program with
  | done value => trivial
  | fail e => trivial
  | record event next ih => exact ih h
  | call site c next ih => exact fun outcome => ih outcome (h outcome)
  | together jobs next ih =>
      obtain ⟨separate, rest, fails⟩ := h
      refine ⟨separate, fun result => ih result (rest result), fun e inv => ?_⟩
      obtain ⟨e', failed⟩ := fails e inv
      exact ⟨e', by rw [← failed]; exact congrArg Prod.fst (Reconcile.effect_reporting name _ inv)⟩

end Orderly

end Program

end CloudBalancer
