import CloudBalancer.Proofs.Effects
import CloudBalancer.Simulation.Group

/-!
What a program may ask of a cloud, whatever becomes of its calls. A contract says which calls are
allowed and what their answers may be relied on for; a program is within it if it makes no other
calls as long as that is true of the answers. Then a property of clouds that allowed calls keep is
kept by the program wherever calls get lost, fail, are late or are answered and given up.
-/

namespace CloudBalancer

variable {α β : Type}

structure Contract where
  allowed : Call → Prop
  told : (c : Call) → c.Answer → Prop

/-- What may be relied on once a call has come to an end. -/
def Contract.Heard (contract : Contract) (c : Call) : Outcome c.Answer → Prop
  | .answered value => contract.told c value
  | .refused _ => True
  | .timedOut => True

variable {contract : Contract}

/-- A job makes allowed calls only, and what it comes to satisfies `post`. -/
def Job.Within (contract : Contract) (post : α → Prop) : Job α → Prop
  | .done value => post value
  | .fail _ => True
  | .record _ next => next.Within contract post
  | .call _ c next => contract.allowed c ∧
      ∀ outcome, contract.Heard c outcome → (next outcome).Within contract post

def Program.Within (contract : Contract) (post : α → Prop) : Program α → Prop
  | .done value => post value
  | .fail _ => True
  | .record _ next => next.Within contract post
  | .call _ c next => contract.allowed c ∧
      ∀ outcome, contract.Heard c outcome → (next outcome).Within contract post
  | .together jobs next => (∀ job ∈ jobs, job.Within contract fun _ => True) ∧
      ∀ result, (next result).Within contract post

namespace Job.Within

variable {post : α → Prop} {after : β → Prop}

theorem imp {weaker : α → Prop} {job : Job α} (h : job.Within contract post)
    (himp : ∀ value, post value → weaker value) : job.Within contract weaker := by
  induction job with
  | done value => exact himp value h
  | fail e => trivial
  | record event next ih => exact ih h
  | call site c next ih => exact ⟨h.1, fun outcome heard => ih outcome (h.2 outcome heard)⟩

theorem bind {job : Job α} {f : α → Job β} (h : job.Within contract post)
    (hf : ∀ value, post value → (f value).Within contract after) :
    (job >>= f).Within contract after := by
  show (job.bind f).Within contract after
  induction job with
  | done value => exact hf value h
  | fail e => trivial
  | record event next ih => exact ih h
  | call site c next ih => exact ⟨h.1, fun outcome heard => ih outcome (h.2 outcome heard)⟩

theorem ofExcept {result : Except EngineError α} (h : ∀ value, result = .ok value → post value) :
    (Job.ofExcept result).Within contract post := by
  cases result with
  | error e => trivial
  | ok value => exact h value rfl

theorem remote {limit : Limit} {c : Call} {post : c.Answer → Prop} (target : Target)
    (allowed : contract.allowed c)
    (h : ∀ value, contract.told c value → post value) :
    (Job.remote limit target c).Within contract post := by
  refine ⟨allowed, fun outcome heard => ?_⟩
  cases outcome with
  | answered value => exact h value heard
  | refused e => trivial
  | timedOut => trivial

theorem remoteUnless {limit : Limit} {c : Call} {post : Option c.Answer → Prop}
    (harmless : ErrorCode) (target : Target) (allowed : contract.allowed c)
    (h : ∀ value, contract.told c value → post (some value)) (hnone : post none) :
    (Job.remoteUnless harmless limit target c).Within contract post := by
  refine ⟨allowed, fun outcome heard => ?_⟩
  cases outcome with
  | answered value => exact h value heard
  | refused e =>
      dsimp only
      split
      · exact hnone
      · trivial
  | timedOut => trivial

/-- An allowed call whose answer does not matter. -/
theorem call {limit : Limit} {c : Call} (target : Target) (allowed : contract.allowed c) :
    (Job.remote limit target c).Within contract fun _ => True :=
  remote target allowed fun _ _ => trivial

theorem callUnless {limit : Limit} {c : Call} (harmless : ErrorCode) (target : Target)
    (allowed : contract.allowed c) :
    (Job.remoteUnless harmless limit target c).Within contract fun _ => True :=
  remoteUnless harmless target allowed (fun _ _ => trivial) trivial

theorem forEach {ι : Type} {items : List ι} {step : ι → Job Unit}
    (h : ∀ item ∈ items, (step item).Within contract fun _ => True) :
    (Job.forEach items step).Within contract fun _ => True := by
  induction items with
  | nil => trivial
  | cons item rest ih =>
      rw [Job.forEach_cons]
      exact (h item List.mem_cons_self).bind fun _ _ => ih fun i hi => h i (.tail item hi)

/-- An optional step and what follows it. -/
theorem optional {c : Prop} [Decidable c] {step : Job Unit} {f : Unit → Job β}
    (h : ¬ c → step.Within contract fun _ => True) (hf : (f ()).Within contract after) :
    (if c then f () else step >>= f).Within contract after := by
  split
  · exact hf
  · next skipped => exact (h skipped).bind fun _ _ => hf

/-- Without a contract there is nothing to violate. -/
theorem unbound (job : Job α) :
    job.Within ⟨fun _ => True, fun _ _ => True⟩ fun _ => True := by
  induction job with
  | done value => trivial
  | fail e => trivial
  | record event next ih => exact ih
  | call site c next ih => exact ⟨trivial, fun outcome _ => ih outcome⟩

end Job.Within

namespace Program.Within

variable {post : α → Prop} {after : β → Prop}

theorem bind {program : Program α} {f : α → Program β} (h : program.Within contract post)
    (hf : ∀ value, post value → (f value).Within contract after) :
    (program >>= f).Within contract after := by
  show (program.bind f).Within contract after
  induction program with
  | done value => exact hf value h
  | fail e => trivial
  | record event next ih => exact ih h
  | call site c next ih => exact ⟨h.1, fun outcome heard => ih outcome (h.2 outcome heard)⟩
  | together jobs next ih => exact ⟨h.1, fun result => ih result (h.2 result)⟩

theorem ofExcept {result : Except EngineError α} (h : ∀ value, result = .ok value → post value) :
    (Program.ofExcept result).Within contract post := by
  cases result with
  | error e => trivial
  | ok value => exact h value rfl

theorem ofJob {job : Job α} (h : job.Within contract post) :
    (Program.ofJob job).Within contract post := by
  induction job with
  | done value => exact h
  | fail e => trivial
  | record event next ih => exact ih h
  | call site c next ih => exact ⟨h.1, fun outcome heard => ih outcome (h.2 outcome heard)⟩

theorem handle {program : Program α} {handler : EngineError → Program α}
    (h : program.Within contract post) (hhandler : ∀ e, (handler e).Within contract post) :
    (program.handle handler).Within contract post := by
  induction program with
  | done value => exact h
  | fail e => exact hhandler e
  | record event next ih => exact ih h
  | call site c next ih => exact ⟨h.1, fun outcome heard => ih outcome (h.2 outcome heard)⟩
  | together jobs next ih => exact ⟨h.1, fun result => ih result (h.2 result)⟩

theorem group {jobs : List (Job Unit)} (wrap : EngineError → EngineError)
    (h : ∀ job ∈ jobs, job.Within contract fun _ => True) :
    (Program.group wrap jobs).Within contract fun _ => True := by
  refine ⟨h, fun result => ?_⟩
  cases result <;> trivial

theorem forEach {ι : Type} {items : List ι} {step : ι → Program Unit}
    (h : ∀ item ∈ items, (step item).Within contract fun _ => True) :
    (Program.forEach items step).Within contract fun _ => True := by
  induction items with
  | nil => trivial
  | cons item rest ih =>
      rw [Program.forEach_cons]
      exact (h item List.mem_cons_self).bind fun _ _ => ih fun i hi => h i (.tail item hi)

theorem unbound (program : Program α) :
    program.Within ⟨fun _ => True, fun _ _ => True⟩ fun _ => True := by
  induction program with
  | done value => trivial
  | fail e => trivial
  | record event next ih => exact ih
  | call site c next ih => exact ⟨trivial, fun outcome _ => ih outcome⟩
  | together jobs next ih => exact ⟨fun job _ => .unbound job, fun result => ih result⟩

end Program.Within

/-- Allowed calls keep `Good`, and are then answered as the contract says. -/
structure Contract.Keeps (contract : Contract) (Good : Cloud → Prop) : Prop where
  good : ∀ {cloud : Cloud} {c : Call}, contract.allowed c → Good cloud →
    Good (cloud.perform c).2
  told : ∀ {cloud : Cloud} {c : Call} {answer : c.Answer}, contract.allowed c → Good cloud →
    (cloud.perform c).1 = .ok answer → contract.told c answer

theorem Contract.keeps_of_apply (Good : Inventory → Prop)
    (good : ∀ {inv after : Inventory} {c : Call} {answer : c.Answer}, contract.allowed c →
      inv.apply c = .ok (answer, after) → Good inv → Good after)
    (told : ∀ {inv after : Inventory} {c : Call} {answer : c.Answer}, contract.allowed c →
      inv.apply c = .ok (answer, after) → Good inv → contract.told c answer) :
    contract.Keeps fun cloud => Good cloud.inventory := by
  refine ⟨fun {cloud c} allowed held => ?_, fun {cloud c answer} allowed held h => ?_⟩
  · unfold Cloud.perform
    dsimp only
    split
    · exact held
    · cases happly : cloud.inventory.apply c with
      | error e => exact held
      | ok answered => exact good allowed happly held
  · unfold Cloud.perform at h
    dsimp only at h
    split at h
    · cases h
    · cases happly : cloud.inventory.apply c with
      | error e => simp [happly] at h
      | ok answered =>
          simp only [happly, Except.ok.injEq] at h
          exact h ▸ told allowed happly held

section Effect

variable {Good : Inventory → Prop} {post : α → Prop}

/-- Allowed calls keep `Good` in a cloud in which no failure waits. -/
theorem Contract.Keeps.apply (keeps : contract.Keeps fun cloud => Good cloud.inventory)
    {inv after : Inventory} {c : Call} {answer : c.Answer} (allowed : contract.allowed c)
    (good : Good inv) (h : inv.apply c = .ok (answer, after)) :
    Good after ∧ contract.told c answer := by
  let cloud : Cloud := { inventory := inv }
  have performed : cloud.perform c =
      (.ok answer, { cloud with calls := [c], inventory := after }) := by
    simp [Cloud.perform, cloud, h]
  have kept : Good (cloud.perform c).2.inventory := keeps.good allowed good
  rw [performed] at kept
  exact ⟨kept, keeps.told allowed good (congrArg Prod.fst performed)⟩

/-- What allowed calls keep, a job within the contract keeps where nothing goes wrong. -/
theorem Job.Within.effect {job : Job α} (h : job.Within contract post)
    (keeps : contract.Keeps fun cloud => Good cloud.inventory) {inv : Inventory}
    (good : Good inv) : Good (job.effect inv).2 := by
  induction job generalizing inv with
  | done value => exact good
  | fail e => exact good
  | record event next ih => exact ih h good
  | call site c next ih =>
      unfold Job.effect
      split
      · next happly =>
        obtain ⟨kept, told⟩ := keeps.apply h.1 good happly
        exact ih _ (h.2 (.answered _) told) kept
      · exact ih _ (h.2 (.refused _) trivial) good

theorem effectTogether_within {jobs : List (Job Unit)}
    (h : ∀ job ∈ jobs, job.Within contract fun _ => True)
    (keeps : contract.Keeps fun cloud => Good cloud.inventory) {inv : Inventory}
    (good : Good inv) : Good (effectTogether jobs inv).2 := by
  induction jobs generalizing inv with
  | nil => exact good
  | cons job rest ih =>
      have first := (h job List.mem_cons_self).effect keeps good
      unfold effectTogether
      split
      · next heffect =>
        rw [heffect] at first
        exact ih (fun j hj => h j (.tail job hj)) first
      · next heffect => rwa [heffect] at first

theorem Program.Within.effect {program : Program α} (h : program.Within contract post)
    (keeps : contract.Keeps fun cloud => Good cloud.inventory) {inv : Inventory}
    (good : Good inv) : Good (program.effect inv).2 := by
  induction program generalizing inv with
  | done value => exact good
  | fail e => exact good
  | record event next ih => exact ih h good
  | call site c next ih =>
      unfold Program.effect
      split
      · next happly =>
        obtain ⟨kept, told⟩ := keeps.apply h.1 good happly
        exact ih _ (h.2 (.answered _) told) kept
      · exact ih _ (h.2 (.refused _) trivial) good
  | together jobs next ih => exact ih _ (h.2 _) (effectTogether_within h.1 keeps good)

end Effect

/-- A reply has to say so to make anything up. -/
theorem Reply.madeUp?_eq_none {reply : Reply} (l4 : reply.l4Ports = none)
    (elastic : reply.elasticPorts = none) (groups : reply.groups = none) (vip : reply.vip = none)
    (c : Call) : reply.madeUp? c = none := by
  cases c with
  | describe k name =>
      cases k with
      | l4 => exact l4
      | elastic => exact elastic
  | create => exact vip
  | groupsOf => exact groups
  | _ => rfl

/-- What the reply makes up is what the contract says. -/
def Reply.Agrees (reply : Reply) (contract : Contract) : Prop :=
  ∀ (c : Call) (answer : c.Answer), reply.madeUp? c = some answer → contract.told c answer

def Script.Agrees (script : Script) (contract : Contract) : Prop :=
  ∀ entry ∈ script, entry.2.Agrees contract

/-- Where a reply comes from, and what is left of the script. -/
theorem Script.take_mem (script : Script) (op : Operation) :
    ((script.take op).1 = {} ∨ ∃ entry ∈ script, entry.1 = op ∧ (script.take op).1 = entry.2) ∧
      (script.take op).2 ⊆ script := by
  induction script with
  | nil => exact ⟨.inl rfl, List.Subset.refl _⟩
  | cons entry rest ih =>
      unfold Script.take
      split
      · next hop =>
        exact ⟨.inr ⟨entry, List.mem_cons_self, hop, rfl⟩, List.subset_cons_self ..⟩
      · obtain ⟨taken, left⟩ := ih
        refine ⟨?_, List.cons_subset_cons entry left⟩
        rcases taken with unscripted | ⟨e, he, hop, htaken⟩
        · exact .inl unscripted
        · exact .inr ⟨e, .tail entry he, hop, htaken⟩

namespace Script.Agrees

theorem default : ({} : Reply).Agrees contract := by
  intro c answer made
  rw [Reply.madeUp?_eq_none rfl rfl rfl rfl] at made
  cases made

theorem take {script : Script} (h : script.Agrees contract) (op : Operation) :
    (script.take op).1.Agrees contract ∧ Script.Agrees (script.take op).2 contract := by
  obtain ⟨taken, left⟩ := script.take_mem op
  refine ⟨?_, fun entry hentry => h entry (left hentry)⟩
  rcases taken with unscripted | ⟨entry, hentry, -, htaken⟩
  · rw [unscripted]
    exact default
  · rw [htaken]
    exact h entry hentry

end Script.Agrees

section Simulation

variable {Good : Cloud → Prop} {former : List Call} {w : World} {c : Call} {reply : Reply}

/-- What holds of a world all the while, after the `former` calls. -/
structure World.Sound (contract : Contract) (Good : Cloud → Prop) (former : List Call) (w : World) :
    Prop where
  good : Good w.cloud
  script : w.script.Agrees contract
  calls : ∃ issued, w.calls = former ++ issued ∧ ∀ c ∈ issued, contract.allowed c

theorem World.Sound.start (good : Good w.cloud) (script : w.script.Agrees contract) :
    w.Sound contract Good w.calls :=
  ⟨good, script, [], by simp, by simp⟩

theorem Reply.answer_keeps (keeps : contract.Keeps Good) (agrees : reply.Agrees contract)
    {cloud : Cloud} (allowed : contract.allowed c) (good : Good cloud) :
    Good (reply.answer cloud c).2 ∧
      ∀ answer, (reply.answer cloud c).1 = .ok answer → contract.told c answer := by
  unfold Reply.answer
  split
  · refine ⟨?_, fun answer h => by cases h⟩
    split
    · exact keeps.good allowed good
    · exact good
  · next made =>
    refine ⟨good, fun answer h => ?_⟩
    cases h
    exact agrees c _ made
  · exact ⟨keeps.good allowed good, fun answer h => keeps.told allowed good h⟩

/-- What is on its way back may be relied on. -/
def Returning.Fair (contract : Contract) (call : Returning c) : Prop :=
  ∀ time answer, call.arrival = some (time, .ok answer) → contract.told c answer

def Reached.Fair (contract : Contract) : Reached c → Prop
  | .settled outcome => contract.Heard c outcome
  | .returning call => call.Fair contract

def Issued.Fair (contract : Contract) : Issued c → Prop
  | .outgoing call => call.reply.Agrees contract
  | .reached call => call.Fair contract

theorem heard_ofExcept {result : Except ApiError c.Answer}
    (h : ∀ answer, result = .ok answer → contract.told c answer) :
    contract.Heard c (.ofExcept result) := by
  cases result with
  | ok answer => exact h answer rfl
  | error e => trivial

theorem World.hold_fair {call : Returning c} (fair : call.Fair contract) (w : World) :
    (w.hold call).Fair contract := by
  unfold World.hold
  split
  · trivial
  · exact fair

theorem World.Sound.reach (sound : w.Sound contract Good former) (keeps : contract.Keeps Good)
    (agrees : reply.Agrees contract) (allowed : contract.allowed c) (deadline : Nat) :
    (w.reach c reply deadline).2.Sound contract Good former ∧
      (w.reach c reply deadline).1.Fair contract := by
  obtain ⟨good, told⟩ := Reply.answer_keeps keeps agrees allowed sound.good
  unfold World.reach
  split
  · exact ⟨sound, w.hold_fair fun time answer h => by cases h⟩
  · dsimp only
    split
    · exact ⟨⟨good, sound.script, sound.calls⟩, heard_ofExcept told⟩
    · refine ⟨⟨good, sound.script, sound.calls⟩, World.hold_fair (fun time answer h => ?_) _⟩
      simp only [Option.some.injEq, Prod.mk.injEq] at h
      exact told answer h.2

theorem World.Sound.issue (sound : w.Sound contract Good former) (keeps : contract.Keeps Good)
    (limit : Nat) (allowed : contract.allowed c) :
    (w.issue limit c).2.Sound contract Good former ∧ (w.issue limit c).1.Fair contract := by
  obtain ⟨agrees, left⟩ := Script.Agrees.take sound.script c.operation
  obtain ⟨before, hbefore, hallowed⟩ := sound.calls
  have issued : World.Sound contract Good former { w with
      calls := w.calls ++ [c]
      script := (w.script.take c.operation).2 } := by
    refine ⟨sound.good, left, before ++ [c], by simp [hbefore], fun other hother => ?_⟩
    rcases List.mem_append.1 hother with hother | hother
    · exact hallowed other hother
    · rwa [List.mem_singleton.1 hother]
  unfold World.issue
  dsimp only
  split
  · exact issued.reach keeps agrees allowed _
  · split
    · exact ⟨issued, trivial⟩
    · exact ⟨issued, agrees⟩

theorem World.Sound.arrive (sound : w.Sound contract Good former) (keeps : contract.Keeps Good)
    {call : Outgoing} (agrees : call.reply.Agrees contract) (allowed : contract.allowed c) :
    (w.arrive c call).2.Sound contract Good former ∧ (w.arrive c call).1.Fair contract := by
  unfold World.arrive
  split
  · have moved : World.Sound contract Good former { w with now := call.arrival } :=
      ⟨sound.good, sound.script, sound.calls⟩
    exact moved.reach keeps agrees allowed _
  · exact ⟨⟨sound.good, sound.script, sound.calls⟩, trivial⟩

theorem World.finish_heard {call : Returning c} (fair : call.Fair contract) (w : World) :
    contract.Heard c (w.finish call).1 := by
  unfold World.finish
  split
  · trivial
  · next time result arrival =>
    split
    · exact heard_ofExcept fun answer h => fair time answer (h ▸ arrival)
    · trivial

/-- Only the time changes while an answer is waited for. -/
theorem World.finish_eq (w : World) (call : Returning c) :
    ∃ now, (w.finish call).2 = { w with now } := by
  unfold World.finish
  split
  · exact ⟨_, rfl⟩
  · split <;> exact ⟨_, rfl⟩

theorem World.Sound.finish (sound : w.Sound contract Good former) {call : Returning c}
    (fair : call.Fair contract) :
    (w.finish call).2.Sound contract Good former ∧ contract.Heard c (w.finish call).1 := by
  obtain ⟨now, hfinish⟩ := w.finish_eq call
  exact ⟨hfinish ▸ ⟨sound.good, sound.script, sound.calls⟩, w.finish_heard fair⟩

theorem World.Sound.await (sound : w.Sound contract Good former) (keeps : contract.Keeps Good)
    (limit : Nat) (allowed : contract.allowed c) :
    (w.await limit c).2.Sound contract Good former ∧ contract.Heard c (w.await limit c).1 := by
  have settled {reached : Reached c} {w : World} (sound : w.Sound contract Good former)
      (fair : reached.Fair contract) : (World.settle (reached, w)).2.Sound contract Good former ∧
        contract.Heard c (World.settle (reached, w)).1 := by
    cases reached with
    | settled outcome => exact ⟨sound, fair⟩
    | returning call => exact sound.finish fair
  have issued := sound.issue keeps limit allowed
  unfold World.await
  split
  · next heq =>
    rw [heq] at issued
    have arrived := issued.1.arrive keeps issued.2 allowed
    exact settled arrived.1 arrived.2
  · next heq =>
    rw [heq] at issued
    exact settled issued.1 issued.2

/-- What a waiting job has to come is within the contract, whatever its call comes to. -/
def Held.Within (contract : Contract) : Held → Prop
  | .outgoing _ c call next => contract.allowed c ∧ call.reply.Agrees contract ∧
      ∀ outcome, contract.Heard c outcome → (next outcome).Within contract fun _ => True
  | .returning _ c call next => call.Fair contract ∧
      ∀ outcome, contract.Heard c outcome → (next outcome).Within contract fun _ => True

def Standing.Within (contract : Contract) : Standing → Prop
  | .ended _ => True
  | .held job => job.Within contract

theorem Job.Within.advance {job : Job Unit} (h : job.Within contract fun _ => True)
    (sound : w.Sound contract Good former) (keeps : contract.Keeps Good) (config : Config) :
    (job.advance config w).2.Sound contract Good former ∧
      (job.advance config w).1.Within contract := by
  induction job generalizing w with
  | done value => exact ⟨sound, trivial⟩
  | fail e => exact ⟨sound, trivial⟩
  | record event next ih => exact ih h ⟨sound.good, sound.script, sound.calls⟩
  | call site c next ih =>
      have issued := sound.issue keeps (config.timeout site.limit) h.1
      unfold Job.advance
      split
      · next heq =>
        rw [heq] at issued
        exact ⟨issued.1, h.1, issued.2, h.2⟩
      · next heq =>
        rw [heq] at issued
        exact ⟨issued.1, issued.2, h.2⟩
      · next outcome _ heq =>
        rw [heq] at issued
        exact ih outcome (h.2 outcome issued.2) issued.1

theorem World.Sound.wake (sound : w.Sound contract Good former) (keeps : contract.Keeps Good)
    (config : Config) {job : Held} (h : job.Within contract) :
    (w.wake config job).2.Sound contract Good former ∧ (w.wake config job).1.Within contract := by
  cases job with
  | outgoing site c call next =>
      obtain ⟨allowed, agrees, hnext⟩ := h
      have arrived := sound.arrive keeps agrees allowed
      unfold World.wake
      dsimp only
      split
      · next heq =>
        rw [heq] at arrived
        exact ⟨arrived.1, arrived.2, hnext⟩
      · next outcome _ heq =>
        rw [heq] at arrived
        exact (hnext outcome arrived.2).advance arrived.1 keeps config
  | returning site c call next =>
      have finished := sound.finish h.1
      exact (h.2 _ finished.2).advance finished.1 keeps config

theorem World.Sound.runHeld (keeps : contract.Keeps Good) (config : Config) (held : List Held)
    (w : World) (sound : w.Sound contract Good former) (h : ∀ job ∈ held, job.Within contract) :
    (w.runHeld config held).2.Sound contract Good former := by
  fun_induction World.runHeld config held w with
  | case1 held w none => exact sound
  | case2 held w before job after split e next woken =>
      have hjob := h job (by simp [Held.earliest_eq split])
      have woke := sound.wake keeps config hjob
      rw [woken] at woke
      exact woke.1
  | case3 held w before job after split next woken ih =>
      have hheld := Held.earliest_eq split
      have woke := sound.wake keeps config (h job (by simp [hheld]))
      rw [woken] at woke
      refine ih woke.1 fun other hother => h other ?_
      rw [hheld]
      rcases List.mem_append.1 hother with hother | hother <;> simp [hother]
  | case4 held w before job after split again next woken ih =>
      have hheld := Held.earliest_eq split
      have woke := sound.wake keeps config (h job (by simp [hheld]))
      rw [woken] at woke
      refine ih woke.1 fun other hother => ?_
      rcases List.mem_append.1 hother with hother | hother
      · exact h other (by simp [hheld, hother])
      · rcases List.mem_cons.1 hother with rfl | hother
        · exact woke.2
        · exact h other (by simp [hheld, hother])

theorem World.Sound.startAll (sound : w.Sound contract Good former) (keeps : contract.Keeps Good)
    (config : Config) {jobs : List (Job Unit)}
    (h : ∀ job ∈ jobs, job.Within contract fun _ => True) :
    (w.startAll config jobs).2.Sound contract Good former ∧
      ∀ held, (w.startAll config jobs).1 = .ok held → ∀ job ∈ held, job.Within contract := by
  induction jobs generalizing w with
  | nil => exact ⟨sound, fun held hheld => by cases hheld; simp⟩
  | cons job rest ih =>
      have advanced := (h job List.mem_cons_self).advance sound keeps config
      have hrest : ∀ job ∈ rest, job.Within contract fun _ => True := fun j hj => h j (.tail job hj)
      unfold World.startAll
      split
      · next heq =>
        rw [heq] at advanced
        exact ⟨advanced.1, fun held hheld => by cases hheld⟩
      · next heq =>
        rw [heq] at advanced
        exact ih advanced.1 hrest
      · next first _ heq =>
        rw [heq] at advanced
        obtain ⟨started, hstarted⟩ := ih advanced.1 hrest
        refine ⟨started, fun held hheld job hjob => ?_⟩
        dsimp only at hheld
        cases hresult : (World.startAll config rest _).1 with
        | error e =>
            rw [hresult] at hheld
            cases hheld
        | ok others =>
            rw [hresult] at hheld
            cases hheld
            rcases List.mem_cons.1 hjob with rfl | hjob
            · exact advanced.2
            · exact hstarted others hresult job hjob

theorem World.Sound.runTogether (sound : w.Sound contract Good former) (keeps : contract.Keeps Good)
    (config : Config) {jobs : List (Job Unit)}
    (h : ∀ job ∈ jobs, job.Within contract fun _ => True) :
    (w.runTogether config jobs).2.Sound contract Good former := by
  have started := sound.startAll keeps config h
  unfold World.runTogether
  split
  · next heq =>
    rw [heq] at started
    exact started.1
  · next held _ heq =>
    rw [heq] at started
    exact World.Sound.runHeld keeps config held _ started.1 (started.2 held rfl)

/-- What allowed calls keep, a program within the contract keeps, however its calls fare. -/
theorem Program.Within.simulate {post : α → Prop} {program : Program α}
    (h : program.Within contract post) (sound : w.Sound contract Good former)
    (keeps : contract.Keeps Good) (config : Config) :
    (program.simulate config w).2.Sound contract Good former := by
  induction program generalizing w with
  | done value => exact sound
  | fail e => exact sound
  | record event next ih => exact ih h ⟨sound.good, sound.script, sound.calls⟩
  | call site c next ih =>
      have awaited := sound.await keeps (config.timeout site.limit) h.1
      exact ih _ (h.2 _ awaited.2) awaited.1
  | together jobs next ih => exact ih _ (h.2 _) (sound.runTogether keeps config h.1)

end Simulation

end CloudBalancer
