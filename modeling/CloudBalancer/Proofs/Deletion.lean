import CloudBalancer.Proofs.Administration
import CloudBalancer.Proofs.L4Convergence

/-!
A deletion takes all of a balancer away, whatever an operation that failed has left of it: ports
without backends, ports whose health check was never configured, grants that are missing or that
nobody asked for. It deletes the ports that it found described, each once, and a port that is still
there can always be deleted. To delete what is gone takes one look at it.
-/

namespace CloudBalancer

open Inventory

variable {k : Kind} {name : String} {inv : Inventory} {s : Session}

/-- The balancer `name` of `inv` is gone, every other one is as it was. -/
structure Inventory.Removes (inv : Inventory) (k : Kind) (name : String) (after : Inventory) :
    Prop where
  gone : (after.table k).get? name = none
  others : ∀ k' name', k' ≠ k ∨ name' ≠ name →
    (after.table k').get? name' = (inv.table k').get? name'

theorem removes_withPorts {base : Inventory} (same : inv.SameButRules base) (k : Kind)
    (name : String) : inv.Removes k name (base.withPorts k name []) := by
  refine ⟨by rw [get?_withPorts, if_pos rfl], fun k' name' other => ?_⟩
  rw [ports_withPorts_other base [] other, same.tables]

namespace Reconcile

theorem L4.delete_removes (stocked : inv.StockedAt .l4 name) :
    ∃ after, (L4.delete name).effect inv = (.ok (), after) ∧ inv.Removes .l4 name after := by
  have former := stocked.ports
  have heffect := effect_delete inv (fun p hp => former.named hp) (apart_of_pairs former.pairs)
  rw [stocked.withPorts_ports] at heffect
  exact ⟨_, heffect, removes_withPorts (.refl inv) ..⟩

/-- All that can stop the deletion of an elastic balancer is a port whose rules cannot be
derived. -/
theorem Elastic.delete_removes (stocked : inv.StockedAt .elastic name) :
    (∃ after, (Elastic.delete name).effect inv = (.ok (), after) ∧
        inv.Removes .elastic name after) ∨
      ∃ e after, (Elastic.delete name).effect inv = (.error e, after) ∧
        ∃ p ∈ inv.ports .elastic name, ∀ rules, grantedRules p ≠ .ok rules := by
  have former := stocked.ports
  have cleared := effect_delete inv (apart_of_pairs former.pairs) fun p hp => former.named hp
  rw [stocked.withPorts_ports] at cleared
  rcases cleared with ⟨base, heffect, same, -⟩ | ⟨e, after, heffect, p, hp, -, underivable⟩
  · exact .inl ⟨_, heffect, removes_withPorts same ..⟩
  · exact .inr ⟨e, after, heffect, p, hp, underivable⟩

/-- A deletion that succeeds has deleted the balancer. -/
theorem removes_of_delete_ok (stocked : inv.StockedAt k name) {after : Inventory}
    (ok : (delete name k).effect inv = (.ok (), after)) : inv.Removes k name after := by
  cases k with
  | l4 =>
      obtain ⟨after', heffect, removes⟩ := L4.delete_removes stocked
      cases ok.symm.trans heffect
      exact removes
  | elastic =>
      rcases Elastic.delete_removes stocked with
        ⟨after', heffect, removes⟩ | ⟨e, after', heffect, -⟩
      · cases ok.symm.trans heffect
        exact removes
      · cases ok.symm.trans heffect

/-- All that is done about a balancer that does not exist is to look for it. -/
theorem run_describe_of_absent {α : Type} (prompt : s.cloud.failures = [])
    (absent : (s.cloud.inventory.table k).get? name = none) (f : Option (List k.Port) → Job α) :
    (describe k name >>= f).run s =
      (f none).run { s with cloud := { s.cloud with
        calls := s.cloud.calls ++ [.describe k name] } } := by
  have refused : s.cloud.inventory.apply (.describe k name) =
      .error (.notFound k.notFound s!"{k.label} {name}") := by
    rw [apply, absent]
  show ((_ : Job _).bind f).run _ = _
  simp only [describe, Job.remoteUnless, bind, Job.bind, Job.run, s.perform_error prompt refused,
    ApiError.notFound, if_true]
  rfl

theorem run_delete_of_absent (prompt : s.cloud.failures = [])
    (absent : (s.cloud.inventory.table k).get? name = none) :
    (delete name k).run s = (.ok (), { s with cloud := { s.cloud with
      calls := s.cloud.calls ++ [.describe k name] } }) := by
  cases k <;> exact run_describe_of_absent prompt absent _

theorem run_status_of_absent (prompt : s.cloud.failures = [])
    (absent : (s.cloud.inventory.table k).get? name = none) :
    (status k name).run s = (.ok none, { s with cloud := { s.cloud with
      calls := s.cloud.calls ++ [.describe k name] } }) :=
  run_describe_of_absent prompt absent _

end Reconcile

/-- The states in which balancers are deleted here: for an L4 balancer all that calls can bring
about, for an elastic one what operations on services do, with any rules in the groups. -/
inductive Deletable (cloud : Cloud) : Kind → Prop
  | l4 (reachable : cloud.Reachable) : Deletable cloud .l4
  | elastic (administered : Administered cloud.inventory) : Deletable cloud .elastic

open Reconcile

/-- No port of a balancer that operations on services brought about is in the way: the rules of
each can be derived, if only to none before its health check is configured. -/
theorem Deletable.removes (deletable : Deletable s.cloud k) (name : String) :
    ∃ after, (delete name k).effect s.cloud.inventory = (.ok (), after) ∧
      s.cloud.inventory.Removes k name after := by
  cases deletable with
  | l4 reachable => exact L4.delete_removes ((reachable.valid.stocked .l4).stockedAt name)
  | elastic administered =>
      have provisioned := administered.provisioned
      rcases Elastic.delete_removes (provisioned.stocked.stockedAt name) with
        removed | ⟨-, -, -, p, hp, underivable⟩
      · exact removed
      · obtain ⟨rules, granted⟩ := (provisioned.deployed name p hp).granted
        exact absurd granted (underivable rules)

/-- A deletion where nothing goes wrong succeeds. Then the balancer is gone and has no status, all
others are as they were, and one more deletion makes one call, which looks for the balancer, and
changes nothing. -/
theorem delete_completes (deletable : Deletable s.cloud k) (prompt : s.cloud.failures = [])
    (name : String) :
    ∃ last, (delete name k).run s = (.ok (), last) ∧
      s.cloud.inventory.Removes k name last.cloud.inventory ∧
      ((status k name).run last).1 = .ok none ∧
      (delete name k).run last = (.ok (), { last with cloud := { last.cloud with
        calls := last.cloud.calls ++ [.describe k name] } }) := by
  obtain ⟨after, heffect, removes⟩ := deletable.removes name
  have outcome := (delete name k).run_hasEffect prompt
  rw [heffect] at outcome
  obtain ⟨result, inventory, prompt⟩ := outcome
  dsimp only at result inventory
  rw [← inventory] at removes
  refine ⟨_, Prod.ext result rfl, removes, ?_, run_delete_of_absent prompt removes.gone⟩
  rw [run_status_of_absent prompt removes.gone]

namespace Sample

/-- The wide sample balancer as a deletion leaves it that times out at the last port. -/
def halfDeleted : World :=
  ((Request.delete service).program.simulate {}
    { cloud := widened, script := [(.deletePort .elastic, {}),
      (.deletePort .elastic, { hang := true })] }).2

/-- The same where the group has gone and another one holds a rule that no port derived. -/
def strayed : Inventory :=
  { halfDeleted.cloud.inventory with
    groups := .ofList [("h", { rules := [.inbound "udp" none "any"] })] }

theorem administered_strayed : Administered strayed :=
  .regroup _ (.serve (w := { cloud := widened, script := _ }) (.delete service) {}
    administered_widened)

end Sample

/-- Both kinds of balancers, as a creation and a deletion left them that failed half-way. -/
theorem delete_completes_samples :
    (∃ last, (delete "web" .l4).run { cloud := L4.halfCreated.cloud } = (.ok (), last) ∧
      L4.halfCreated.cloud.inventory.Removes .l4 "web" last.cloud.inventory ∧
      ((status .l4 "web").run last).1 = .ok none ∧
      (delete "web" .l4).run last = (.ok (), { last with cloud := { last.cloud with
        calls := last.cloud.calls ++ [.describe .l4 "web"] } })) ∧
    ∃ last, (delete "web" .elastic).run { cloud := { inventory := Sample.strayed } } =
        (.ok (), last) ∧
      Sample.strayed.Removes .elastic "web" last.cloud.inventory ∧
      ((status .elastic "web").run last).1 = .ok none ∧
      (delete "web" .elastic).run last = (.ok (), { last with cloud := { last.cloud with
        calls := last.cloud.calls ++ [.describe .elastic "web"] } }) :=
  ⟨delete_completes (s := { cloud := L4.halfCreated.cloud }) (.l4 L4.reachable_halfCreated)
      (by decide +kernel) "web",
    delete_completes (s := { cloud := { inventory := Sample.strayed } })
      (.elastic Sample.administered_strayed) rfl "web"⟩

end CloudBalancer
