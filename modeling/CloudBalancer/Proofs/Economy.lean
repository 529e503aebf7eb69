import CloudBalancer.Proofs.Interleaving
import CloudBalancer.Proofs.Restarts
import CloudBalancer.Proofs.Steadiness

/-!
Programs that waste no call. Of the calls that are to change balancers each succeeds, and there is
a balancer that it changes; the upkeep of security groups is not counted. As nothing disturbs the
program, this is said along its effect: a sequence of steps wastes nothing if each step does not
where the steps before it have led.
-/

namespace CloudBalancer

variable {α β : Type}

/-- Whether a call is there to change balancers. -/
def Call.changesBalancers : Call → Bool
  | .authorize _ _ | .revoke _ _ => false
  | c => c.isMutating

namespace Inventory

/-- There is a balancer in which the inventories differ. -/
def Differs (inv after : Inventory) : Prop :=
  ∃ k name, after.ports k name ≠ inv.ports k name

/-- The call succeeds and changes a balancer. -/
def Gains (inv : Inventory) (c : Call) : Prop :=
  ∃ answer after, inv.apply c = .ok (answer, after) ∧ inv.Differs after

/-- What tells balancers in order apart is written down. -/
theorem Differs.allPorts {inv after : Inventory} (differs : inv.Differs after)
    (stocked : ∀ k, inv.Stocked k) (stocked' : ∀ k, after.Stocked k) :
    ∃ k, (after.table k).allPorts ≠ (inv.table k).allPorts := by
  obtain ⟨k, name, ports⟩ := differs
  refine ⟨k, fun same => ports ?_⟩
  have table : after.table k = inv.table k := by
    rw [← (stocked' k).ofPorts_allPorts, same, (stocked k).ofPorts_allPorts]
  rw [Inventory.ports, table, Inventory.ports]

end Inventory

open Inventory

/-- The job wastes no call in an undisturbed run. -/
def Job.Thrifty : Job α → Inventory → Prop
  | .done _, _ => True
  | .fail _, _ => True
  | .record _ next, inv => next.Thrifty inv
  | .call _ c next, inv => (c.changesBalancers = true → inv.Gains c) ∧
    (next (inv.answer c).1).Thrifty (inv.answer c).2

def ThriftyTogether : List (Job Unit) → Inventory → Prop
  | [], _ => True
  | job :: rest, inv => job.Thrifty inv ∧
    ∀ after, job.effect inv = (.ok (), after) → ThriftyTogether rest after

def Program.Thrifty : Program α → Inventory → Prop
  | .done _, _ => True
  | .fail _, _ => True
  | .record _ next, inv => next.Thrifty inv
  | .call _ c next, inv => (c.changesBalancers = true → inv.Gains c) ∧
    (next (inv.answer c).1).Thrifty (inv.answer c).2
  | .together jobs next, inv => ThriftyTogether jobs inv ∧
    (next (effectTogether jobs inv).1).Thrifty (effectTogether jobs inv).2

/-- Calls that are not there to change balancers. -/
def groundwork : Contract where
  allowed c := c.changesBalancers = false
  told _ _ := True

namespace Job.Thrifty

variable {inv after : Inventory}

theorem of_within {job : Job α} {post : α → Prop} (within : job.Within groundwork post)
    (inv : Inventory) : job.Thrifty inv := by
  induction job generalizing inv with
  | done value => trivial
  | fail e => trivial
  | record event next ih => exact ih within inv
  | call site c next ih =>
      obtain ⟨spared, rest⟩ := within
      have heard : ∀ outcome : Outcome c.Answer, groundwork.Heard c outcome := by
        intro outcome
        cases outcome <;> trivial
      exact ⟨fun changes => by simp [show c.changesBalancers = false from spared] at changes,
        ih _ (rest _ (heard _)) _⟩

theorem bind {job : Job α} {f : α → Job β} (h : job.Thrifty inv)
    (hf : ∀ value after, job.effect inv = (.ok value, after) → (f value).Thrifty after) :
    (job >>= f).Thrifty inv := by
  show (job.bind f).Thrifty inv
  induction job generalizing inv with
  | done value => exact hf value inv rfl
  | fail e => trivial
  | record event next ih => exact ih h hf
  | call site c next ih =>
      rw [effect_call] at hf
      exact ⟨h.1, ih _ h.2 hf⟩

theorem bind_ok {job : Job α} {f : α → Job β} {value : α} (h : job.Thrifty inv)
    (heffect : job.effect inv = (.ok value, after)) (hf : (f value).Thrifty after) :
    (job >>= f).Thrifty inv := by
  refine h.bind fun value' after' heffect' => ?_
  obtain ⟨⟨⟩, ⟨⟩⟩ := heffect.symm.trans heffect'
  exact hf

theorem ofExcept (result : Except EngineError α) (inv : Inventory) :
    (Job.ofExcept result).Thrifty inv := by
  cases result <;> trivial

/-- To record what has been done takes no call. -/
theorem logged {job : Job α} {event : α → AuditEvent} (h : job.Thrifty inv) :
    (job >>= fun value => Job.log (event value)).Thrifty inv :=
  h.bind fun _ _ _ => trivial

/-- An optional step and what follows it. -/
theorem optional {c : Prop} [Decidable c] {job : Job Unit} {f : Unit → Job β}
    (skipped : c → inv = after) (h : ¬ c → job.Thrifty inv)
    (done : ¬ c → job.effect inv = (.ok (), after)) (hf : (f ()).Thrifty after) :
    (if c then f () else job >>= f).Thrifty inv := by
  split
  · next hc => exact skipped hc ▸ hf
  · next hc => exact (h hc).bind_ok (done hc) hf

theorem answer_ok {c : Call} {answer : c.Answer} (happly : inv.apply c = .ok (answer, after)) :
    inv.answer c = (.answered answer, after) := by
  rw [Inventory.answer, happly]

theorem remote {limit : Limit} {c : Call} (target : Target) (gains : inv.Gains c) :
    (Job.remote limit target c).Thrifty inv := by
  obtain ⟨answer, after, happly, -⟩ := id gains
  refine ⟨fun _ => gains, ?_⟩
  rw [answer_ok happly]
  trivial

theorem remoteUnless {limit : Limit} {c : Call} (harmless : ErrorCode) (target : Target)
    (gains : inv.Gains c) :
    (Job.remoteUnless harmless limit target c).Thrifty inv := by
  obtain ⟨answer, after, happly, -⟩ := id gains
  refine ⟨fun _ => gains, ?_⟩
  rw [answer_ok happly]
  trivial

/-- Each step of a loop wastes nothing and takes `Inv` one item on. -/
theorem forEach {ι : Type} {step : ι → Job Unit} (Inv : List ι → List ι → Inventory → Prop)
    (hstep : ∀ done item rest inv, Inv done (item :: rest) inv →
      (step item).Thrifty inv ∧
        ∃ after, (step item).effect inv = (.ok (), after) ∧ Inv (done ++ [item]) rest after)
    {done items : List ι} (h : Inv done items inv) : (Job.forEach items step).Thrifty inv := by
  induction items generalizing done inv with
  | nil => trivial
  | cons item rest ih =>
      obtain ⟨thrifty, after, heffect, hinv⟩ := hstep done item rest inv h
      exact thrifty.bind_ok heffect (ih hinv)

end Job.Thrifty

theorem ThriftyTogether.cons {job : Job Unit} {rest : List (Job Unit)} {inv after : Inventory}
    (h : job.Thrifty inv) (heffect : job.effect inv = (.ok (), after))
    (others : ThriftyTogether rest after) : ThriftyTogether (job :: rest) inv := by
  refine ⟨h, fun after' heffect' => ?_⟩
  obtain ⟨⟨⟩, ⟨⟩⟩ := heffect.symm.trans heffect'
  exact others

namespace Program.Thrifty

variable {inv after : Inventory}

theorem bind {program : Program α} {f : α → Program β} (h : program.Thrifty inv)
    (hf : ∀ value after, program.effect inv = (.ok value, after) → (f value).Thrifty after) :
    (program >>= f).Thrifty inv := by
  show (program.bind f).Thrifty inv
  induction program generalizing inv with
  | done value => exact hf value inv rfl
  | fail e => trivial
  | record event next ih => exact ih h hf
  | call site c next ih =>
      rw [effect_call] at hf
      exact ⟨h.1, ih _ h.2 hf⟩
  | together jobs next ih => exact ⟨h.1, ih _ h.2 hf⟩

theorem bind_ok {program : Program α} {f : α → Program β} {value : α} (h : program.Thrifty inv)
    (heffect : program.effect inv = (.ok value, after)) (hf : (f value).Thrifty after) :
    (program >>= f).Thrifty inv := by
  refine h.bind fun value' after' heffect' => ?_
  obtain ⟨⟨⟩, ⟨⟩⟩ := heffect.symm.trans heffect'
  exact hf

theorem ofJob {job : Job α} (h : job.Thrifty inv) : (Program.ofJob job).Thrifty inv := by
  induction job generalizing inv with
  | done value => trivial
  | fail e => trivial
  | record event next ih => exact ih h
  | call site c next ih =>
      exact ⟨h.1, ih _ h.2⟩

/-- A program that begins with a job. -/
theorem lift_ok {job : Job α} {f : α → Program β} {value : α} (h : job.Thrifty inv)
    (heffect : job.effect inv = (.ok value, after)) (hf : (f value).Thrifty after) :
    ((liftM job : Program α) >>= f).Thrifty inv :=
  (ofJob h).bind_ok ((effect_ofJob job inv).trans heffect) hf

theorem ofExcept (result : Except EngineError α) (inv : Inventory) :
    (Program.ofExcept result).Thrifty inv := by
  cases result <;> trivial

theorem group (wrap : EngineError → EngineError) {jobs : List (Job Unit)}
    (h : ThriftyTogether jobs inv) : (Program.group wrap jobs).Thrifty inv := by
  refine ⟨h, ?_⟩
  dsimp only
  split <;> trivial

theorem forEach {ι : Type} {step : ι → Program Unit} (Inv : List ι → List ι → Inventory → Prop)
    (hstep : ∀ done item rest inv, Inv done (item :: rest) inv →
      (step item).Thrifty inv ∧
        ∃ after, (step item).effect inv = (.ok (), after) ∧ Inv (done ++ [item]) rest after)
    {done items : List ι} (h : Inv done items inv) : (Program.forEach items step).Thrifty inv := by
  induction items generalizing done inv with
  | nil => trivial
  | cons item rest ih =>
      obtain ⟨thrifty, after, heffect, hinv⟩ := hstep done item rest inv h
      exact thrifty.bind_ok heffect (ih hinv)

/-- To record a failure takes no call. -/
theorem reporting (name : String) {program : Program Status} (h : program.Thrifty inv) :
    (Reconcile.reporting name program).Thrifty inv := by
  show (program.handle _).Thrifty inv
  induction program generalizing inv with
  | done value => trivial
  | fail e => trivial
  | record event next ih => exact ih h
  | call site c next ih =>
      exact ⟨h.1, ih _ h.2⟩
  | together jobs next ih => exact ⟨h.1, ih _ h.2⟩

end Program.Thrifty

namespace Cloud

variable {cloud : Cloud} {calls : List Call}

theorem performAll_append (cloud : Cloud) (calls more : List Call) :
    cloud.performAll (calls ++ more) = (cloud.performAll calls).performAll more :=
  List.foldl_append ..

/-- One after the other, each call that is there to change balancers does so. -/
def Worthwhile : Cloud → List Call → Prop
  | _, [] => True
  | cloud, c :: rest => (c.changesBalancers = true → cloud.inventory.Gains c) ∧
    (cloud.perform c).2.Worthwhile rest

theorem Worthwhile.append {more : List Call} (h : cloud.Worthwhile calls)
    (further : (cloud.performAll calls).Worthwhile more) : cloud.Worthwhile (calls ++ more) := by
  induction calls generalizing cloud with
  | nil => exact further
  | cons c rest ih => exact ⟨h.1, ih h.2 further⟩

theorem Worthwhile.gains (h : cloud.Worthwhile calls) {before : List Call} {c : Call}
    (issued : before ++ [c] <+: calls) (changes : c.changesBalancers = true) :
    (cloud.performAll before).inventory.Gains c := by
  induction calls generalizing cloud before with
  | nil => simp at issued
  | cons first rest ih =>
      cases before with
      | nil =>
          obtain ⟨rfl, -⟩ := List.cons_prefix_cons.1 issued
          exact h.1 changes
      | cons first' before =>
          obtain ⟨rfl, later⟩ := List.cons_prefix_cons.1 issued
          exact ih h.2 later

theorem calls_perform (cloud : Cloud) (c : Call) :
    (cloud.perform c).2.calls = cloud.calls ++ [c] := by
  unfold perform
  dsimp only
  split
  · rfl
  · split <;> rfl

theorem calls_performAll (cloud : Cloud) (calls : List Call) :
    (cloud.performAll calls).calls = cloud.calls ++ calls := by
  induction calls generalizing cloud with
  | nil => exact (List.append_nil _).symm
  | cons c rest ih =>
      show ((cloud.perform c).2.performAll rest).calls = _
      rw [ih, calls_perform, List.append_assoc, List.singleton_append]

/-- A cloud in which nothing is waiting to fail, with the balancers in order. -/
structure Orderly (cloud : Cloud) : Prop where
  prompt : cloud.failures = []
  stocked : ∀ k, cloud.inventory.Stocked k

theorem Orderly.perform (orderly : cloud.Orderly) (c : Call) : (cloud.perform c).2.Orderly := by
  have waiting : cloud.failures.lookup c.operation = none := by rw [orderly.prompt]; rfl
  obtain ⟨-, -, failures⟩ := perform_answer waiting
  refine ⟨failures.trans orderly.prompt, fun k => ?_⟩
  rcases cloud.perform_inventory c with unchanged | ⟨answer, happly⟩
  · exact unchanged ▸ orderly.stocked k
  · exact (orderly.stocked k).changes (changes_apply happly)

theorem Orderly.performAll (orderly : cloud.Orderly) (calls : List Call) :
    (cloud.performAll calls).Orderly :=
  List.foldlRecOn calls _ orderly fun _ orderly c _ => orderly.perform c

/-- The call succeeds, and what is written down about balancers changes with it. -/
def Alters (cloud : Cloud) (c : Call) : Prop :=
  ∃ answer after, cloud.perform c = (.ok answer, after) ∧
    (after.snapshot.l4 ≠ cloud.snapshot.l4 ∨ after.snapshot.elastic ≠ cloud.snapshot.elastic)

theorem Orderly.alters {c : Call} (orderly : cloud.Orderly) (gains : cloud.inventory.Gains c) :
    cloud.Alters c := by
  obtain ⟨answer, inventory, happly, differs⟩ := gains
  have performed : cloud.perform c =
      (.ok answer, { cloud with calls := cloud.calls ++ [c], inventory }) := by
    simp [Cloud.perform, orderly.prompt, happly]
  obtain ⟨k, ports⟩ := differs.allPorts orderly.stocked fun k =>
    (orderly.stocked k).changes (changes_apply happly)
  refine ⟨answer, _, performed, ?_⟩
  cases k with
  | l4 => exact .inl ports
  | elastic => exact .inr ports

end Cloud

/-- How one session goes on to another by calls that are worthwhile. -/
def Session.Spends (s later : Session) : Prop :=
  ∃ issued, later.cloud = s.cloud.performAll issued ∧ s.cloud.Worthwhile issued

namespace Session.Spends

variable {s between later : Session}

theorem refl (s : Session) : s.Spends s := ⟨[], rfl, trivial⟩

theorem trans (first : s.Spends between) (second : between.Spends later) : s.Spends later := by
  obtain ⟨calls, hbetween, worthwhile⟩ := first
  obtain ⟨more, hlater, further⟩ := second
  rw [hbetween] at hlater further
  exact ⟨calls ++ more, hlater.trans (Cloud.performAll_append ..).symm, worthwhile.append further⟩

theorem perform {c : Call} (gains : c.changesBalancers = true → s.cloud.inventory.Gains c) :
    s.Spends (s.perform c).2 :=
  ⟨[c], rfl, gains, trivial⟩

end Session.Spends

theorem Session.perform_answer {s : Session} (prompt : s.cloud.failures = []) (c : Call) :
    (s.perform c).1 = (s.cloud.inventory.answer c).1 ∧
      (s.perform c).2.cloud.inventory = (s.cloud.inventory.answer c).2 ∧
      (s.perform c).2.cloud.failures = [] := by
  have waiting : s.cloud.failures.lookup c.operation = none := by rw [prompt]; rfl
  obtain ⟨outcome, inventory, failures⟩ := Cloud.perform_answer waiting
  exact ⟨outcome, inventory, failures.trans prompt⟩

theorem Job.Thrifty.spends {job : Job α} {s : Session} (prompt : s.cloud.failures = [])
    (thrifty : job.Thrifty s.cloud.inventory) : s.Spends (job.run s).2 := by
  induction job generalizing s with
  | done value => exact .refl s
  | fail e => exact .refl s
  | record event next ih => exact ih (s := s.record event) prompt thrifty
  | call site c next ih =>
      obtain ⟨gains, rest⟩ := thrifty
      obtain ⟨outcome, inventory, prompt'⟩ := Session.perform_answer prompt c
      rw [← outcome, ← inventory] at rest
      exact (Session.Spends.perform gains).trans (ih _ prompt' rest)

theorem ThriftyTogether.spends {jobs : List (Job Unit)} {s : Session}
    (prompt : s.cloud.failures = []) (thrifty : ThriftyTogether jobs s.cloud.inventory) :
    s.Spends (runTogether jobs s).2 := by
  induction jobs generalizing s with
  | nil => exact .refl s
  | cons job rest ih =>
      obtain ⟨first, others⟩ := thrifty
      have spends := first.spends prompt
      have outcome := job.run_hasEffect prompt
      unfold runTogether
      cases hrun : job.run s with
      | mk result later =>
          rw [hrun] at spends outcome
          cases result with
          | error e => exact spends
          | ok value =>
              have heffect : job.effect s.cloud.inventory = (.ok (), later.cloud.inventory) :=
                Prod.ext outcome.result.symm outcome.inventory.symm
              exact spends.trans (ih outcome.prompt (others _ heffect))

theorem Program.Thrifty.spends {program : Program α} {s : Session} (prompt : s.cloud.failures = [])
    (thrifty : program.Thrifty s.cloud.inventory) : s.Spends (program.run s).2 := by
  induction program generalizing s with
  | done value => exact .refl s
  | fail e => exact .refl s
  | record event next ih => exact ih (s := s.record event) prompt thrifty
  | call site c next ih =>
      obtain ⟨gains, rest⟩ := thrifty
      obtain ⟨outcome, inventory, prompt'⟩ := Session.perform_answer prompt c
      rw [← outcome, ← inventory] at rest
      exact (Session.Spends.perform gains).trans (ih _ prompt' rest)
  | together jobs next ih =>
      obtain ⟨group, rest⟩ := thrifty
      have outcome := runTogether_hasEffect jobs prompt
      rw [← outcome.result, ← outcome.inventory] at rest
      exact (group.spends prompt).trans (ih _ outcome.prompt rest)

/-- Of the calls that a thrifty program makes, each that is to change balancers does. -/
theorem Program.Thrifty.alters {program : Program α} {s : Session} (orderly : s.cloud.Orderly)
    (thrifty : program.Thrifty s.cloud.inventory) :
    ∃ issued, (program.run s).2.cloud = s.cloud.performAll issued ∧
      (program.run s).2.cloud.calls = s.cloud.calls ++ issued ∧
      ∀ before c, before ++ [c] <+: issued → c.changesBalancers = true →
        (s.cloud.performAll before).Alters c := by
  obtain ⟨issued, performed, worthwhile⟩ := thrifty.spends orderly.prompt
  refine ⟨issued, performed, ?_, fun before c hbefore changes => ?_⟩
  · rw [performed, Cloud.calls_performAll]
  · exact (orderly.performAll before).alters (worthwhile.gains hbefore changes)

end CloudBalancer
