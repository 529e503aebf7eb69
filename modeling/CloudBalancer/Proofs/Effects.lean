import CloudBalancer.Engine.Program

/-!
What a program comes to where nothing goes wrong on the way: every call is answered at once, and
no failure waits in the cloud. Then calls and events can be forgotten, and a program is a function
of the inventory. The equations for sequences let a run be followed step by step.
-/

namespace CloudBalancer

variable {α β : Type}

namespace Job

/-- The result of a job and what it leaves of the inventory, each call being answered at once. -/
def effect : Job α → Inventory → Except EngineError α × Inventory
  | .done value, inv => (.ok value, inv)
  | .fail error, inv => (.error error, inv)
  | .record _ next, inv => next.effect inv
  | .call _ c next, inv =>
    match inv.apply c with
    | .ok (answer, after) => (next (.answered answer)).effect after
    | .error e => (next (.refused e)).effect inv

@[simp]
theorem effect_pure (value : α) (inv : Inventory) :
    (pure value : Job α).effect inv = (.ok value, inv) := rfl

@[simp]
theorem effect_ofExcept (result : Except EngineError α) (inv : Inventory) :
    (Job.ofExcept result).effect inv = (result, inv) := by
  cases result <;> rfl

theorem effect_bind (job : Job α) (f : α → Job β) (inv : Inventory) :
    (job >>= f).effect inv =
      match job.effect inv with
      | (.ok value, after) => (f value).effect after
      | (.error e, after) => (.error e, after) := by
  show (job.bind f).effect inv = _
  induction job generalizing inv with
  | done value => rfl
  | fail e => rfl
  | record event next ih => exact ih inv
  | call site c next ih =>
      simp only [Job.bind, effect]
      cases inv.apply c with
      | ok answered => exact ih _ _
      | error e => exact ih _ _

theorem effect_bind_ok {job : Job α} {f : α → Job β} {inv after : Inventory} {value : α}
    (h : job.effect inv = (.ok value, after)) :
    (job >>= f).effect inv = (f value).effect after := by
  rw [effect_bind, h]

theorem effect_bind_error {job : Job α} {f : α → Job β} {inv after : Inventory} {e : EngineError}
    (h : job.effect inv = (.error e, after)) :
    (job >>= f).effect inv = (.error e, after) := by
  rw [effect_bind, h]

theorem effect_remote_ok {limit : Limit} {c : Call} {inv after : Inventory} {answer : c.Answer}
    (target : Target) (h : inv.apply c = .ok (answer, after)) :
    (Job.remote limit target c).effect inv = (.ok answer, after) := by
  simp [remote, effect, h]

theorem effect_remote_error {limit : Limit} {c : Call} {inv : Inventory} {e : ApiError}
    (target : Target) (h : inv.apply c = .error e) :
    (Job.remote limit target c).effect inv = (.error (.remote c.operation target e), inv) := by
  simp [remote, effect, h]

theorem effect_remoteUnless_ok {limit : Limit} {c : Call} {inv after : Inventory}
    {answer : c.Answer} (harmless : ErrorCode) (target : Target)
    (h : inv.apply c = .ok (answer, after)) :
    (Job.remoteUnless harmless limit target c).effect inv = (.ok (some answer), after) := by
  simp [remoteUnless, effect, h]

theorem effect_remoteUnless_harmless {limit : Limit} {c : Call} {inv : Inventory} {e : ApiError}
    (target : Target) (h : inv.apply c = .error e) :
    (Job.remoteUnless e.code limit target c).effect inv = (.ok none, inv) := by
  simp [remoteUnless, effect, h]

instance : LawfulMonad Job := by
  refine LawfulMonad.mk' Job ?_ (fun value f => rfl) ?_
  · intro α job
    show job.bind (fun value => .done value) = job
    induction job with
    | done value => rfl
    | fail e => rfl
    | record event next ih => simp only [Job.bind, ih]
    | call site c next ih => simp only [Job.bind, ih]
  · intro α β γ job f g
    show (job.bind f).bind g = job.bind fun value => (f value).bind g
    induction job with
    | done value => rfl
    | fail e => rfl
    | record event next ih => simp only [Job.bind, ih]
    | call site c next ih => simp only [Job.bind, ih]

/-- What follows an optional step. -/
theorem effect_unless {c : Prop} [Decidable c] {job : Job Unit} {f : Unit → Job β}
    {inv after : Inventory} (skipped : c → inv = after)
    (done : ¬ c → job.effect inv = (.ok (), after)) :
    (if c then f () else job >>= f).effect inv = (f ()).effect after := by
  split
  · next h => rw [skipped h]
  · next h => rw [effect_bind_ok (done h)]

theorem forEach_cons {ι : Type} (item : ι) (rest : List ι) (step : ι → Job Unit) :
    Job.forEach (item :: rest) step = (step item >>= fun _ => Job.forEach rest step) := rfl

/-- Each step of a loop takes `Inv`, of the items done and those to come, one item on, or fails
with `Failed`. -/
theorem effect_forEach_cases {ι : Type} {step : ι → Job Unit}
    (Inv : List ι → List ι → Inventory → Prop) (Failed : Inventory → Prop)
    (hstep : ∀ done item rest inv, Inv done (item :: rest) inv →
      (∃ after, (step item).effect inv = (.ok (), after) ∧ Inv (done ++ [item]) rest after) ∨
        ∃ e after, (step item).effect inv = (.error e, after) ∧ Failed after)
    {done items : List ι} {inv : Inventory} (h : Inv done items inv) :
    (∃ after, (Job.forEach items step).effect inv = (.ok (), after) ∧
        Inv (done ++ items) [] after) ∨
      ∃ e after, (Job.forEach items step).effect inv = (.error e, after) ∧ Failed after := by
  induction items generalizing done inv with
  | nil => exact .inl ⟨inv, rfl, by rwa [List.append_nil]⟩
  | cons item rest ih =>
      rw [forEach_cons]
      rcases hstep done item rest inv h with ⟨after, heffect, hinv⟩ | ⟨e, after, heffect, hfailed⟩
      · rw [effect_bind_ok heffect, List.append_cons]
        exact ih hinv
      · exact .inr ⟨e, after, effect_bind_error heffect, hfailed⟩

theorem effect_forEach {ι : Type} {step : ι → Job Unit}
    (Inv : List ι → List ι → Inventory → Prop)
    (hstep : ∀ done item rest inv, Inv done (item :: rest) inv →
      ∃ after, (step item).effect inv = (.ok (), after) ∧ Inv (done ++ [item]) rest after)
    {items : List ι} {inv : Inventory} (h : Inv [] items inv) :
    ∃ after, (Job.forEach items step).effect inv = (.ok (), after) ∧ Inv items [] after := by
  have outcome := effect_forEach_cases Inv (fun _ => False)
    (fun done item rest inv h => .inl (hstep done item rest inv h)) h
  simpa using outcome

end Job

/-- Jobs side by side, none of which ever waits. -/
def effectTogether : List (Job Unit) → Inventory → Except EngineError Unit × Inventory
  | [], inv => (.ok (), inv)
  | job :: rest, inv =>
    match job.effect inv with
    | (.ok (), after) => effectTogether rest after
    | (.error e, after) => (.error e, after)

namespace Program

/-- The result of a program and what it leaves of the inventory, each call being answered at
once. -/
def effect : Program α → Inventory → Except EngineError α × Inventory
  | .done value, inv => (.ok value, inv)
  | .fail error, inv => (.error error, inv)
  | .record _ next, inv => next.effect inv
  | .call _ c next, inv =>
    match inv.apply c with
    | .ok (answer, after) => (next (.answered answer)).effect after
    | .error e => (next (.refused e)).effect inv
  | .together jobs next, inv =>
    (next (effectTogether jobs inv).1).effect (effectTogether jobs inv).2

@[simp]
theorem effect_pure (value : α) (inv : Inventory) :
    (pure value : Program α).effect inv = (.ok value, inv) := rfl

@[simp]
theorem effect_ofExcept (result : Except EngineError α) (inv : Inventory) :
    (Program.ofExcept result).effect inv = (result, inv) := by
  cases result <;> rfl

theorem effect_bind (program : Program α) (f : α → Program β) (inv : Inventory) :
    (program >>= f).effect inv =
      match program.effect inv with
      | (.ok value, after) => (f value).effect after
      | (.error e, after) => (.error e, after) := by
  show (program.bind f).effect inv = _
  induction program generalizing inv with
  | done value => rfl
  | fail e => rfl
  | record event next ih => exact ih inv
  | call site c next ih =>
      simp only [Program.bind, effect]
      cases inv.apply c with
      | ok answered => exact ih _ _
      | error e => exact ih _ _
  | together jobs next ih => exact ih _ _

theorem effect_bind_ok {program : Program α} {f : α → Program β} {inv after : Inventory}
    {value : α} (h : program.effect inv = (.ok value, after)) :
    (program >>= f).effect inv = (f value).effect after := by
  rw [effect_bind, h]

theorem effect_bind_error {program : Program α} {f : α → Program β} {inv after : Inventory}
    {e : EngineError} (h : program.effect inv = (.error e, after)) :
    (program >>= f).effect inv = (.error e, after) := by
  rw [effect_bind, h]

@[simp]
theorem effect_ofJob (job : Job α) (inv : Inventory) : (ofJob job).effect inv = job.effect inv := by
  induction job generalizing inv with
  | done value => rfl
  | fail e => rfl
  | record event next ih => exact ih inv
  | call site c next ih =>
      simp only [ofJob, effect, Job.effect]
      cases inv.apply c with
      | ok answered => exact ih _ _
      | error e => exact ih _ _

/-- A program that begins with a job. -/
theorem effect_lift_ok {job : Job α} {f : α → Program β} {inv after : Inventory} {value : α}
    (h : job.effect inv = (.ok value, after)) :
    ((liftM job : Program α) >>= f).effect inv = (f value).effect after :=
  effect_bind_ok ((effect_ofJob job inv).trans h)

theorem effect_lift_error {job : Job α} {f : α → Program β} {inv after : Inventory}
    {e : EngineError} (h : job.effect inv = (.error e, after)) :
    ((liftM job : Program α) >>= f).effect inv = (.error e, after) :=
  effect_bind_error ((effect_ofJob job inv).trans h)

theorem effect_handle (program : Program α) (handler : EngineError → Program α)
    (inv : Inventory) :
    (program.handle handler).effect inv =
      match program.effect inv with
      | (.ok value, after) => (.ok value, after)
      | (.error e, after) => (handler e).effect after := by
  induction program generalizing inv with
  | done value => rfl
  | fail e => rfl
  | record event next ih => exact ih inv
  | call site c next ih =>
      simp only [handle, effect]
      cases inv.apply c with
      | ok answered => exact ih _ _
      | error e => exact ih _ _
  | together jobs next ih => exact ih _ _

/-- A group of jobs in its effect is a sequence of them. -/
theorem effect_group_cons_ok {wrap : EngineError → EngineError} {job : Job Unit}
    {rest : List (Job Unit)} {inv after : Inventory} (h : job.effect inv = (.ok (), after)) :
    (Program.group wrap (job :: rest)).effect inv = (Program.group wrap rest).effect after := by
  simp [group, effect, effectTogether, h]

@[simp]
theorem effect_group_nil (wrap : EngineError → EngineError) (inv : Inventory) :
    (Program.group wrap []).effect inv = (.ok (), inv) := rfl

theorem forEach_cons {ι : Type} (item : ι) (rest : List ι) (step : ι → Program Unit) :
    Program.forEach (item :: rest) step =
      (step item >>= fun _ => Program.forEach rest step) := rfl

theorem effect_forEach {ι : Type} {step : ι → Program Unit}
    (Inv : List ι → List ι → Inventory → Prop)
    (hstep : ∀ done item rest inv, Inv done (item :: rest) inv →
      ∃ after, (step item).effect inv = (.ok (), after) ∧ Inv (done ++ [item]) rest after)
    {done items : List ι} {inv : Inventory} (h : Inv done items inv) :
    ∃ after, (Program.forEach items step).effect inv = (.ok (), after) ∧
      Inv (done ++ items) [] after := by
  induction items generalizing done inv with
  | nil => exact ⟨inv, rfl, by rwa [List.append_nil]⟩
  | cons item rest ih =>
      obtain ⟨after, heffect, hinv⟩ := hstep done item rest inv h
      rw [forEach_cons, effect_bind_ok heffect, List.append_cons]
      exact ih hinv

end Program

section Keeps

variable {Good : Inventory → Prop}

/-- What every call that succeeds keeps, a whole job keeps. -/
theorem Job.effect_keeps (keeps : ∀ {inv after : Inventory} {c : Call} {answer : c.Answer},
    inv.apply c = .ok (answer, after) → Good inv → Good after) (job : Job α) {inv : Inventory}
    (good : Good inv) : Good (job.effect inv).2 := by
  induction job generalizing inv with
  | done value => exact good
  | fail e => exact good
  | record event next ih => exact ih good
  | call site c next ih =>
      unfold effect
      split
      · next happly => exact ih _ (keeps happly good)
      · exact ih _ good

theorem effectTogether_keeps (keeps : ∀ {inv after : Inventory} {c : Call} {answer : c.Answer},
    inv.apply c = .ok (answer, after) → Good inv → Good after) (jobs : List (Job Unit))
    {inv : Inventory} (good : Good inv) : Good (effectTogether jobs inv).2 := by
  induction jobs generalizing inv with
  | nil => exact good
  | cons job rest ih =>
      have first := job.effect_keeps keeps good
      unfold effectTogether
      split
      · next heffect =>
        rw [heffect] at first
        exact ih first
      · next heffect => rwa [heffect] at first

theorem Program.effect_keeps (keeps : ∀ {inv after : Inventory} {c : Call} {answer : c.Answer},
    inv.apply c = .ok (answer, after) → Good inv → Good after) (program : Program α)
    {inv : Inventory} (good : Good inv) : Good (program.effect inv).2 := by
  induction program generalizing inv with
  | done value => exact good
  | fail e => exact good
  | record event next ih => exact ih good
  | call site c next ih =>
      unfold effect
      split
      · next happly => exact ih _ (keeps happly good)
      · exact ih _ good
  | together jobs next ih => exact ih _ (effectTogether_keeps keeps jobs good)

end Keeps

namespace Session

variable {s : Session} {c : Call}

theorem perform_ok (prompt : s.cloud.failures = []) {answer : c.Answer} {after : Inventory}
    (h : s.cloud.inventory.apply c = .ok (answer, after)) :
    s.perform c = (.answered answer,
      { s with cloud := { s.cloud with calls := s.cloud.calls ++ [c], inventory := after } }) := by
  simp [perform, Cloud.perform, prompt, h, Outcome.ofExcept]

theorem perform_error (prompt : s.cloud.failures = []) {e : ApiError}
    (h : s.cloud.inventory.apply c = .error e) :
    s.perform c = (.refused e,
      { s with cloud := { s.cloud with calls := s.cloud.calls ++ [c] } }) := by
  simp [perform, Cloud.perform, prompt, h, Outcome.ofExcept]

end Session

/-- A run that ended as `outcome` has its effect, and leaves no failure waiting. -/
structure HasEffect (outcome : Except EngineError α × Session)
    (effect : Except EngineError α × Inventory) : Prop where
  result : outcome.1 = effect.1
  inventory : outcome.2.cloud.inventory = effect.2
  prompt : outcome.2.cloud.failures = []

theorem Job.run_hasEffect (job : Job α) {s : Session} (prompt : s.cloud.failures = []) :
    HasEffect (job.run s) (job.effect s.cloud.inventory) := by
  induction job generalizing s with
  | done value => exact ⟨rfl, rfl, prompt⟩
  | fail e => exact ⟨rfl, rfl, prompt⟩
  | record event next ih => exact ih prompt
  | call site c next ih =>
      simp only [run, effect]
      cases h : s.cloud.inventory.apply c with
      | ok answered =>
          rw [s.perform_ok prompt h]
          exact ih _ prompt
      | error e =>
          rw [s.perform_error prompt h]
          exact ih _ prompt

theorem runTogether_hasEffect (jobs : List (Job Unit)) {s : Session}
    (prompt : s.cloud.failures = []) :
    HasEffect (runTogether jobs s) (effectTogether jobs s.cloud.inventory) := by
  induction jobs generalizing s with
  | nil => exact ⟨rfl, rfl, prompt⟩
  | cons job rest ih =>
      have first := job.run_hasEffect prompt
      unfold runTogether effectTogether
      cases hrun : job.run s with
      | mk result s' =>
          cases heffect : job.effect s.cloud.inventory with
          | mk expected after =>
              rw [hrun, heffect] at first
              obtain ⟨hresult, hinventory, hprompt⟩ := first
              dsimp only at hresult hinventory hprompt
              subst hresult hinventory
              cases result with
              | ok done => exact ih hprompt
              | error e => exact ⟨rfl, rfl, hprompt⟩

theorem Program.run_hasEffect (program : Program α) {s : Session}
    (prompt : s.cloud.failures = []) :
    HasEffect (program.run s) (program.effect s.cloud.inventory) := by
  induction program generalizing s with
  | done value => exact ⟨rfl, rfl, prompt⟩
  | fail e => exact ⟨rfl, rfl, prompt⟩
  | record event next ih => exact ih prompt
  | call site c next ih =>
      simp only [run, effect]
      cases h : s.cloud.inventory.apply c with
      | ok answered =>
          rw [s.perform_ok prompt h]
          exact ih _ prompt
      | error e =>
          rw [s.perform_error prompt h]
          exact ih _ prompt
  | together jobs next ih =>
      obtain ⟨hresult, hinventory, hprompt⟩ := runTogether_hasEffect jobs prompt
      simp only [run, effect]
      rw [← hresult, ← hinventory]
      exact ih _ hprompt

end CloudBalancer
