import CloudBalancer.Proofs.ElasticConduct
import CloudBalancer.Proofs.Restarts

/-!
The states that a cloud goes through while a program runs. Calls may get lost, but the cloud
performs those that reach it one after the other, and has each on record, so that every state on
the way is the one after the first few of them. A call that is answered by the cloud itself is one
that it has performed.
-/

namespace CloudBalancer

namespace Cloud

variable {Shown : Cloud → Prop} {start cloud : Cloud}

/-- The cloud after some more calls. -/
def performAll (cloud : Cloud) (calls : List Call) : Cloud :=
  calls.foldl (fun cloud c => (cloud.perform c).2) cloud

theorem performAll_concat (cloud : Cloud) (calls : List Call) (c : Call) :
    cloud.performAll (calls ++ [c]) = ((cloud.performAll calls).perform c).2 := by
  simp [performAll]

/-- The cloud comes from `start` by calls that it performed, and was `Shown` all the way. -/
def Passed (Shown : Cloud → Prop) (start cloud : Cloud) : Prop :=
  ∃ performed, cloud = start.performAll performed ∧
    ∀ before, before <+: performed → Shown (start.performAll before)

theorem Passed.refl (shown : Shown cloud) : Passed Shown cloud cloud := by
  refine ⟨[], rfl, fun before hbefore => ?_⟩
  rw [List.prefix_nil.1 hbefore]
  exact shown

theorem Passed.perform {c : Call} (passed : Passed Shown start cloud)
    (shown : Shown (cloud.perform c).2) : Passed Shown start (cloud.perform c).2 := by
  obtain ⟨performed, rfl, all⟩ := passed
  refine ⟨performed ++ [c], (performAll_concat ..).symm, fun before hbefore => ?_⟩
  rcases List.prefix_concat_iff.1 hbefore with rfl | hbefore
  · rwa [performAll_concat]
  · exact all before hbefore

end Cloud

/-- What is kept is so all the way. -/
theorem Contract.Keeps.passed {contract : Contract} {Good Shown : Cloud → Prop}
    (keeps : contract.Keeps Good) (shown : ∀ cloud, Good cloud → Shown cloud) (start : Cloud) :
    contract.Keeps fun cloud => Good cloud ∧ Cloud.Passed Shown start cloud := by
  refine ⟨fun allowed held => ?_, fun allowed held => keeps.told allowed held.1⟩
  have good := keeps.good allowed held.1
  exact ⟨good, held.2.perform (shown _ good)⟩

/-- No reply makes up an answer to a call of this sort. -/
def Script.TruthfulAbout (about : Call → Prop) (script : Script) : Prop :=
  ∀ entry ∈ script, ∀ c, about c → entry.2.madeUp? c = none

namespace Script

variable {script : Script} {about : Call → Prop}

theorem TruthfulAbout.agrees {contract : Contract} (truthful : script.TruthfulAbout about)
    (told : ∀ c (answer : c.Answer), ¬ about c → contract.told c answer) :
    script.Agrees contract := by
  intro entry hentry c answer made
  refine told c answer fun habout => ?_
  rw [truthful entry hentry c habout] at made
  cases made

theorem TruthfulAbout.take (truthful : script.TruthfulAbout about) (op : Operation) :
    (∀ c, about c → (script.take op).1.madeUp? c = none) ∧
      TruthfulAbout about (script.take op).2 := by
  obtain ⟨taken, left⟩ := script.take_mem op
  refine ⟨fun c habout => ?_, fun entry hentry => truthful entry (left hentry)⟩
  rcases taken with unscripted | ⟨entry, hentry, -, htaken⟩
  · rw [unscripted]
    exact Reply.madeUp?_eq_none rfl rfl rfl rfl c
  · rw [htaken]
    exact truthful entry hentry c habout

end Script

section Await

variable {w : World} {c : Call} {reply : Reply} {about : Call → Prop}

/-- An answer to a call is the one that the reply gave it in the cloud `start`, and `after` is what
that made of the cloud. -/
def Reply.giving (reply : Reply) (start after : Cloud) : Contract where
  allowed _ := True
  told c answer := reply.answer start c = (.ok answer, after)

/-- The reply to a call is used up, and an answer to the call is what it gave. -/
structure World.Awaited (w : World) (c : Call) (outcome : Outcome c.Answer) (after : World) :
    Prop where
  script : after.script = (w.script.take c.operation).2
  heard : ((w.script.take c.operation).1.giving w.cloud after.cloud).Heard c outcome

theorem World.reach_eq (w : World) (c : Call) (reply : Reply) (deadline : Nat) :
    ∃ cloud, (w.reach c reply deadline).2 = { w with cloud } ∧
      (w.reach c reply deadline).1.Fair (reply.giving w.cloud cloud) := by
  unfold World.reach
  split
  · exact ⟨w.cloud, rfl, w.hold_fair fun time answer h => by cases h⟩
  · refine ⟨(reply.answer w.cloud c).2, ?_⟩
    dsimp only
    split
    · exact ⟨rfl, heard_ofExcept fun answer h => Prod.ext h rfl⟩
    · refine ⟨rfl, World.hold_fair (fun time answer h => ?_) _⟩
      simp only [Option.some.injEq, Prod.mk.injEq] at h
      exact Prod.ext h.2 rfl

/-- A call that was issued before, in the world as it is by now, reaches the cloud. -/
theorem World.reach_awaited {issued : World} (deadline : Nat)
    (script : issued.script = (w.script.take c.operation).2) (cloud : issued.cloud = w.cloud) :
    w.Awaited c (World.settle (issued.reach c (w.script.take c.operation).1 deadline)).1
      (World.settle (issued.reach c (w.script.take c.operation).1 deadline)).2 := by
  obtain ⟨after, hreach, fair⟩ := issued.reach_eq c (w.script.take c.operation).1 deadline
  rw [cloud] at fair
  cases hreached : issued.reach c (w.script.take c.operation).1 deadline with
  | mk reached world =>
      rw [hreached] at hreach fair
      dsimp only at hreach fair
      subst hreach
      cases reached with
      | settled outcome => exact ⟨script, fair⟩
      | returning call =>
          obtain ⟨now, hfinish⟩ := World.finish_eq { issued with cloud := after } call
          have heard := World.finish_heard fair { issued with cloud := after }
          unfold World.settle
          dsimp only
          rw [hfinish]
          exact ⟨script, heard⟩

theorem World.await_awaited (w : World) (limit : Nat) (c : Call) :
    w.Awaited c (w.await limit c).1 (w.await limit c).2 := by
  unfold World.await World.issue
  dsimp only
  split
  · next issued =>
    split at issued
    · cases issued
    · split at issued
      · cases issued
      · cases issued
        unfold World.arrive
        split
        · exact World.reach_awaited _ rfl rfl
        · exact ⟨rfl, trivial⟩
  · next issued =>
    split at issued
    · cases issued
      exact World.reach_awaited _ rfl rfl
    · split at issued
      · cases issued
        exact ⟨rfl, trivial⟩
      · cases issued

/-- What the cloud itself has answered, it has done. -/
theorem World.await_applied (genuine : (w.script.take c.operation).1.madeUp? c = none)
    {limit : Nat} {answer : c.Answer} (answered : (w.await limit c).1 = .answered answer) :
    w.cloud.inventory.apply c = .ok (answer, (w.await limit c).2.cloud.inventory) := by
  have heard := (w.await_awaited limit c).heard
  rw [answered] at heard
  have given : (w.script.take c.operation).1.answer w.cloud c =
      (.ok answer, (w.await limit c).2.cloud) := heard
  unfold Reply.answer at given
  rw [genuine] at given
  split at given
  · cases given
  · next made => cases made
  · exact Cloud.perform_eq_ok given

theorem World.await_truthful (truthful : w.script.TruthfulAbout about) (limit : Nat)
    (c : Call) : (w.await limit c).2.script.TruthfulAbout about :=
  (w.await_awaited limit c).script ▸ (truthful.take c.operation).2

end Await

namespace Reconcile

variable {k : Kind} {w : World} {name : String} {desired : List k.Port}

/-- A description that comes from the cloud itself. -/
theorem ports_of_described {about : Call → Prop} (truthful : w.script.TruthfulAbout about)
    (habout : about (.describe k name)) {ports : List k.Port}
    {limit : Nat} (answered : (w.await limit (.describe k name)).1 = .answered ports) :
    w.cloud.inventory.ports k name = ports :=
  have genuine := (truthful.take _).1 (.describe k name) habout
  (Inventory.describe_eq_ok (World.await_applied genuine answered)).1

/-- A reconciliation goes on after its first call. -/
theorem simulate_reconcile (hnew : desired ≠ []) (config : Config) (w : World) :
    (reconcile name k desired).simulate config w =
      (reporting name (resume name k desired
        (w.await (config.timeout .api) (.describe k name)).1)).simulate config
          (w.await (config.timeout .api) (.describe k name)).2 := by
  rw [reconcile_eq hnew]
  rfl

/-- Where a reconciliation fails, the cloud stays as it is. -/
theorem simulate_failure (name : String) (e : EngineError) (config : Config) (w : World) :
    ((reporting name (.fail e)).simulate config w).2.cloud = w.cloud :=
  rfl

/-- What is kept by all that follows the first call, given its outcome, was so all the way. -/
theorem sound_reconcile {contract : Contract} {Good Shown : Cloud → Prop} (name : String)
    (hnew : desired ≠ []) (config : Config) (keeps : contract.Keeps Good) (good : Good w.cloud)
    (shown : ∀ cloud, Good cloud → Shown cloud) (agrees : w.script.Agrees contract)
    (describes : contract.allowed (.describe k name))
    (resumes : contract.Heard (.describe k name)
        (w.await (config.timeout .api) (.describe k name)).1 →
      (resume name k desired (w.await (config.timeout .api) (.describe k name)).1).Within contract
        fun _ => True) :
    ((reconcile name k desired).simulate config w).2.Sound contract
      (fun cloud => Good cloud ∧ Cloud.Passed Shown w.cloud cloud) w.calls := by
  have passed := keeps.passed shown w.cloud
  have start : Good w.cloud ∧ Cloud.Passed Shown w.cloud w.cloud := ⟨good, .refl (shown _ good)⟩
  have awaited := (World.Sound.start start agrees).await passed (config.timeout .api) describes
  rw [simulate_reconcile hnew]
  exact (within_reporting name (resumes awaited.2)).simulate awaited.1 passed config

end Reconcile

end CloudBalancer
