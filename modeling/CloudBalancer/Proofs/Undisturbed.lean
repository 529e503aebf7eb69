import CloudBalancer.Engine.Program
import CloudBalancer.Simulation.Group

/-!
A world in which no reply is scripted. It answers every call at once, so that programs run as
against the cloud itself, groups of jobs included, whatever the time limits are.
-/

namespace CloudBalancer

variable {α : Type} {w : World}

namespace World

/-- What a session has of the world. -/
def session (w : World) : Session where
  cloud := w.cloud
  events := w.events

/-- The world is where the session is, and goes on without scripted replies. -/
structure Matches (w : World) (s : Session) : Prop where
  session : w.session = s
  quiet : w.script = []

theorem issue_of_quiet (quiet : w.script = []) (limit : Nat) (c : Call) :
    ∃ w' : World, w.issue limit c = (.reached (.settled (w.session.perform c).1), w') ∧
      w'.Matches (w.session.perform c).2 := by
  refine ⟨{ w with cloud := (w.cloud.perform c).2, calls := w.calls ++ [c] }, ?_, rfl, quiet⟩
  have unscripted (cloud : Cloud) : ({} : Reply).answer cloud c = cloud.perform c := by
    rcases c with ⟨_ | _, _⟩ | _ | _ | _ | _ | _ | _ | _ | _ | _ | _ | _ | _ <;> rfl
  simp [issue, reach, quiet, Script.take, unscripted, session, Session.perform]

theorem await_of_quiet (quiet : w.script = []) (limit : Nat) (c : Call) :
    ∃ w' : World, w.await limit c = ((w.session.perform c).1, w') ∧
      w'.Matches (w.session.perform c).2 := by
  obtain ⟨w', hissue, follows⟩ := issue_of_quiet quiet limit c
  exact ⟨w', by rw [await, hissue]; rfl, follows⟩

end World

open World

/-- No job has to wait. -/
theorem Job.advance_of_quiet (job : Job Unit) (quiet : w.script = []) (config : Config) :
    ∃ w' : World, job.advance config w = (.ended (job.run w.session).1, w') ∧
      w'.Matches (job.run w.session).2 := by
  induction job generalizing w with
  | done value => exact ⟨w, rfl, rfl, quiet⟩
  | fail e => exact ⟨w, rfl, rfl, quiet⟩
  | record event next ih =>
      have recorded : (w.record event).script = [] := quiet
      exact ih recorded
  | call site c next ih =>
      obtain ⟨answered, hissue, hsession, quiet⟩ :=
        issue_of_quiet quiet (config.timeout site.limit) c
      obtain ⟨w', hadvance, follows⟩ := ih (w.session.perform c).1 quiet
      rw [hsession] at hadvance follows
      exact ⟨w', by rw [advance, hissue]; exact hadvance, follows⟩

theorem World.startAll_of_quiet (jobs : List (Job Unit)) (quiet : w.script = [])
    (config : Config) :
    ∃ w' : World, w.startAll config jobs =
        ((CloudBalancer.runTogether jobs w.session).1.map fun _ => [], w') ∧
      w'.Matches (CloudBalancer.runTogether jobs w.session).2 := by
  induction jobs generalizing w with
  | nil => exact ⟨w, rfl, rfl, quiet⟩
  | cons job rest ih =>
      obtain ⟨advanced, hadvance, hsession, quiet⟩ := job.advance_of_quiet quiet config
      unfold CloudBalancer.runTogether startAll
      rw [hadvance]
      cases hrun : job.run w.session with
      | mk result s =>
          rw [hrun] at hsession
          cases result with
          | error e => exact ⟨advanced, rfl, hsession, quiet⟩
          | ok done =>
              obtain ⟨w', hstart, follows⟩ := ih quiet
              rw [hsession] at hstart follows
              exact ⟨w', hstart, follows⟩

theorem World.runTogether_of_quiet (jobs : List (Job Unit)) (quiet : w.script = [])
    (config : Config) :
    ∃ w' : World, w.runTogether config jobs =
        ((CloudBalancer.runTogether jobs w.session).1, w') ∧
      w'.Matches (CloudBalancer.runTogether jobs w.session).2 := by
  obtain ⟨w', hstart, follows⟩ := startAll_of_quiet jobs quiet config
  refine ⟨w', ?_, follows⟩
  rw [runTogether, hstart]
  cases (CloudBalancer.runTogether jobs w.session).1 with
  | error e => rfl
  | ok done =>
      show runHeld config [] w' = _
      rw [runHeld]
      rfl

/-- A program whose calls nothing disturbs runs as against the cloud. -/
theorem Program.simulate_of_quiet (program : Program α) (quiet : w.script = [])
    (config : Config) :
    ∃ w' : World, program.simulate config w = ((program.run w.session).1, w') ∧
      w'.Matches (program.run w.session).2 := by
  induction program generalizing w with
  | done value => exact ⟨w, rfl, rfl, quiet⟩
  | fail e => exact ⟨w, rfl, rfl, quiet⟩
  | record event next ih =>
      have recorded : (w.record event).script = [] := quiet
      exact ih recorded
  | call site c next ih =>
      obtain ⟨answered, hawait, hsession, quiet⟩ :=
        await_of_quiet quiet (config.timeout site.limit) c
      obtain ⟨w', hsimulate, follows⟩ := ih (w.session.perform c).1 quiet
      rw [hsession] at hsimulate follows
      exact ⟨w', by rw [simulate, hawait]; exact hsimulate, follows⟩
  | together jobs next ih =>
      obtain ⟨ended, htogether, hsession, quiet⟩ := runTogether_of_quiet jobs quiet config
      obtain ⟨w', hsimulate, follows⟩ := ih (CloudBalancer.runTogether jobs w.session).1 quiet
      rw [hsession] at hsimulate follows
      exact ⟨w', by rw [simulate, htogether]; exact hsimulate, follows⟩

end CloudBalancer
