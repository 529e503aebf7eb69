import CloudBalancer.Proofs.Validity

/-!
What one call can do to the ports of one balancer: found it, add a port after the others, revise a
port in one of its aspects, remove a port, or nothing. What is to hold of the ports at every moment
only has to be checked against these. A call changes one balancer at most, and the groups only if
it grants or withdraws a rule.
-/

namespace CloudBalancer

variable {k : Kind}

/-- The balancer that a call changes, if it changes any. -/
def Call.subject : Call → Option (Kind × String)
  | .create k p | .registerPort k p | .update k p | .deletePort k p
  | .configureHealthCheck k p => some (k, p.name)
  | .registerBackends k p _ | .deregisterBackends k p _ | .setFilter k p _ => some (k, p.name)
  | .describe .. | .groupsOf .. | .authorize .. | .revoke .. | .awaitApplied .. => none

/-- A call about the port `d` that makes `new` of the stored port `p`. -/
inductive Revises {k : Kind} : Call → k.Port → k.Port → k.Port → Prop
  | update (d p : k.Port) : Revises (.update k d) d p { p with settings := d.settings }
  | check (d p : k.Port) :
    Revises (.configureHealthCheck k d) d p { p with healthCheck := d.healthCheck }
  | join (d p : k.Port) (backends : List Backend) :
    Revises (.registerBackends k d backends) d p
      { p with backends := addBackends p.backends backends }
  | leave {d p : k.Port} {backends left : List Backend}
    (removed : removeBackends p.backends backends = .ok left) :
    Revises (.deregisterBackends k d backends) d p { p with backends := left }
  | filter (d p : k.Port) (changes : List FilterChange) :
    Revises (.setFilter k d changes) d p { p with filters := applyChanges p.filters changes }

theorem Revises.same {c : Call} {d p new : k.Port} (h : Revises c d p new) (q : k.Port) :
    new.same q = p.same q := by
  cases h <;> rfl

theorem Revises.name {c : Call} {d p new : k.Port} (h : Revises c d p new) : new.name = p.name := by
  cases h <;> rfl

theorem Revises.pair {c : Call} {d p new : k.Port} (h : Revises c d p new) : new.pair = p.pair := by
  cases h <;> rfl

theorem Revises.vip {c : Call} {d p new : k.Port} (h : Revises c d p new) : new.vip = p.vip := by
  cases h <;> rfl

theorem Revises.attachment {c : Call} {d p new : k.Port} (h : Revises c d p new) :
    new.attachment = p.attachment := by
  cases h <;> rfl

namespace Inventory

/-- The call turns the ports of the balancer `name` into these. -/
inductive Turns (inv : Inventory) (k : Kind) (name : String) : Call → List k.Port → Prop
  | unchanged (c : Call) : Turns inv k name c (inv.ports k name)
  | founded {p : k.Port} (named : p.name = name) (absent : inv.ports k name = []) :
    Turns inv k name (.create k p) [inv.firstPort p]
  | added {p first : k.Port} {after : List k.Port} (named : p.name = name)
    (held : inv.ports k name = first :: after) (new : ∀ q ∈ first :: after, q.same p = false) :
    Turns inv k name (.registerPort k p) (first :: after ++ [furtherPort first p])
  | revised {c : Call} {d p new : k.Port} {before after : List k.Port} (named : d.name = name)
    (held : inv.ports k name = before ++ p :: after) (selects : Selects d before p)
    (revises : Revises c d p new) : Turns inv k name c (before ++ new :: after)
  | removed {p : k.Port} (named : p.name = name) :
    Turns inv k name (.deletePort k p) ((inv.ports k name).filter (!·.same p))

variable {inv base after : Inventory} {name : String} {c : Call}

/-- It is enough to look at the ports that were put in place, if they are those of `name`. -/
theorem turns_withPorts {k' : Kind} {name' : String} {ports : List k'.Port}
    (tables : ∀ k, base.table k = inv.table k)
    (here : ∀ hk : k' = k, name' = name → inv.Turns k name c (hk ▸ ports)) :
    inv.Turns k name c ((base.withPorts k' name' ports).ports k name) := by
  by_cases other : k ≠ k' ∨ name ≠ name'
  · rw [Inventory.ports, ports_withPorts_other base ports other, tables]
    exact .unchanged c
  · obtain ⟨rfl, rfl⟩ : k = k' ∧ name = name' := by simpa using other
    rw [ports_withPorts]
    exact here rfl rfl

theorem turns_modifyPort {k' : Kind} {d : k'.Port} {f : k'.Port → Except ApiError k'.Port}
    (h : inv.modifyPort k' d f = .ok after)
    (hf : ∀ p new, f p = .ok new → Revises c d p new) :
    inv.Turns k name c (after.ports k name) := by
  obtain ⟨before, p, rest, new, held, selects, hnew, rfl⟩ := modifyPort_eq_ok h
  refine turns_withPorts (fun _ => rfl) fun hk hname => ?_
  subst hk hname
  exact .revised rfl held selects (hf p new hnew)

/-- What any call that succeeds does to the ports of any balancer. -/
theorem turns_apply (solid : (inv.table k).get? name ≠ some []) {answer : c.Answer}
    (h : inv.apply c = .ok (answer, after)) : inv.Turns k name c (after.ports k name) := by
  cases c with
  | describe k' name' =>
      rw [(describe_eq_ok h).2]
      exact .unchanged _
  | create k' p =>
      obtain ⟨absent, rfl⟩ := create_eq_ok h
      refine turns_withPorts (fun k => by cases k <;> rfl) fun hk hname => ?_
      subst hk hname
      exact .founded rfl absent
  | registerPort k' p =>
      obtain ⟨ports, hports, new, rfl⟩ := registerPort_eq_ok (of_map_ok h)
      refine turns_withPorts (fun _ => rfl) fun hk hname => ?_
      subst hk hname
      obtain ⟨first, rest, rfl⟩ : ∃ first rest, ports = first :: rest :=
        List.exists_cons_of_ne_nil fun none => solid (none ▸ hports)
      exact .added rfl (by simp [Inventory.ports, hports]) new
  | update k' d =>
      refine turns_modifyPort (of_map_ok h) ?_
      rintro p new ⟨⟩
      exact .update d p
  | deletePort k' p =>
      rw [deletePort_eq_ok h]
      refine turns_withPorts (fun _ => rfl) fun hk hname => ?_
      subst hk hname
      exact .removed rfl
  | configureHealthCheck k' d =>
      refine turns_modifyPort (of_map_ok h) ?_
      rintro p new ⟨⟩
      exact .check d p
  | registerBackends k' d backends =>
      refine turns_modifyPort (of_map_ok h) ?_
      rintro p new ⟨⟩
      exact .join d p backends
  | deregisterBackends k' d backends =>
      refine turns_modifyPort (of_map_ok h) fun p new hnew => ?_
      obtain ⟨left, removed, rfl⟩ := deregistered_eq_ok hnew
      exact .leave removed
  | setFilter k' d changes =>
      refine turns_modifyPort (of_map_ok h) ?_
      rintro p new ⟨⟩
      exact .filter d p changes
  | groupsOf ids =>
      cases h
      exact .unchanged _
  | authorize group rule =>
      obtain ⟨-, rfl⟩ := authorize_eq_ok (of_map_ok h)
      cases k <;> exact .unchanged _
  | revoke group rule =>
      rw [revoke_eq_ok (of_map_ok h)]
      cases k <;> exact .unchanged _
  | awaitApplied group =>
      cases h
      exact .unchanged _

/-- What holds of every port of a balancer still does if it holds of what a call puts there. -/
theorem forall_ports_apply {Good : k.Port → Prop} (solid : (inv.table k).get? name ≠ some [])
    {answer : c.Answer} (h : inv.apply c = .ok (answer, after))
    (good : ∀ p ∈ inv.ports k name, Good p)
    (founded : ∀ p, c = .create k p → inv.ports k name = [] → Good (inv.firstPort p))
    (added : ∀ p first, c = .registerPort k p → Good first → Good (furtherPort first p))
    (revised : ∀ d p new, Revises c d p new → p.same d = true → Good p → Good new) :
    ∀ p ∈ after.ports k name, Good p := by
  have turns := turns_apply solid h
  generalize after.ports k name = ports at turns
  cases turns with
  | unchanged => exact good
  | founded named absent => simpa using founded _ rfl absent
  | added named held new =>
      rw [held] at good
      intro p hp
      rcases List.mem_append.1 hp with hp | hp
      · exact good p hp
      · rw [List.mem_singleton.1 hp]
        exact added _ _ rfl (good _ List.mem_cons_self)
  | revised named held selects revises =>
      rw [held] at good
      intro p hp
      rcases List.mem_append.1 hp with hp | hp
      · exact good p (List.mem_append_left _ hp)
      · rcases List.mem_cons.1 hp with rfl | hp
        · exact revised _ _ _ revises selects.same (good _ (by simp))
        · exact good p (by simp [hp])
  | removed named => exact fun p hp => good p (List.mem_filter.1 hp).1

/-- A port of which something holds stays there if it is spared and what holds of it is kept. -/
theorem exists_ports_apply {Good : k.Port → Prop} {answer : c.Answer}
    (h : inv.apply c = .ok (answer, after)) (held : ∃ p ∈ inv.ports k name, Good p)
    (spared : ∀ p q, c = .deletePort k q → Good p → p.same q = false)
    (revised : ∀ d p new, Revises c d p new → p.same d = true → Good p → Good new) :
    ∃ p ∈ after.ports k name, Good p := by
  obtain ⟨p, hp, good⟩ := held
  have solid : (inv.table k).get? name ≠ some [] := by
    intro none
    simp [Inventory.ports, none] at hp
  have turns := turns_apply solid h
  generalize after.ports k name = ports at turns
  cases turns with
  | unchanged => exact ⟨p, hp, good⟩
  | founded named absent => simp [absent] at hp
  | added named held new => exact ⟨p, List.mem_append_left _ (held ▸ hp), good⟩
  | revised named held selects revises =>
      rw [held] at hp
      rcases List.mem_append.1 hp with hp | hp
      · exact ⟨p, List.mem_append_left _ hp, good⟩
      · rcases List.mem_cons.1 hp with rfl | hp
        · exact ⟨_, by simp, revised _ _ _ revises selects.same good⟩
        · exact ⟨p, by simp [hp], good⟩
  | removed named =>
      exact ⟨p, List.mem_filter.2 ⟨hp, by simp [spared p _ rfl good]⟩, good⟩

/-- A call leaves all balancers alone but its subject. -/
theorem table_apply {answer : c.Answer} (h : inv.apply c = .ok (answer, after))
    (other : c.subject ≠ some (k, name)) :
    (after.table k).get? name = (inv.table k).get? name := by
  have put {base : Inventory} (k' : Kind) (p : k'.Port) (ports : List k'.Port)
      (tables : base.table k = inv.table k) (other : some (k', p.name) ≠ some (k, name)) :
      ((base.withPorts k' p.name ports).table k).get? name = (inv.table k).get? name := by
    rw [ports_withPorts_other base ports (by simpa [eq_comm, ← imp_iff_not_or] using other), tables]
  cases c with
  | describe => rw [(describe_eq_ok h).2]
  | create k' p =>
      obtain ⟨-, rfl⟩ := create_eq_ok h
      exact put k' p _ (by cases k <;> rfl) other
  | registerPort k' p =>
      obtain ⟨ports, -, -, rfl⟩ := registerPort_eq_ok (of_map_ok h)
      exact put k' p _ rfl other
  | deletePort k' p =>
      rw [deletePort_eq_ok h]
      exact put k' p _ rfl other
  | update k' d | configureHealthCheck k' d | registerBackends k' d | deregisterBackends k' d
  | setFilter k' d =>
      obtain ⟨before, p, rest, new, -, -, -, rfl⟩ := modifyPort_eq_ok (of_map_ok h)
      exact put k' d _ rfl other
  | authorize group rule =>
      obtain ⟨-, rfl⟩ := authorize_eq_ok (of_map_ok h)
      cases k <;> rfl
  | revoke group rule =>
      rw [revoke_eq_ok (of_map_ok h)]
      cases k <;> rfl
  | groupsOf | awaitApplied =>
      cases h
      rfl

/-- A call leaves the groups alone, unless it grants or withdraws a rule. -/
theorem groups_apply {answer : c.Answer} (h : inv.apply c = .ok (answer, after)) :
    after.groups = inv.groups ∨
      ∃ group rule,
        c = .authorize group rule ∧ after = inv.setRules group (inv.rulesOf group ++ [rule]) ∨
        c = .revoke group rule ∧
          after = inv.setRules group ((inv.rulesOf group).filter (· != rule)) := by
  cases c with
  | describe =>
      rw [(describe_eq_ok h).2]
      exact .inl rfl
  | create k' p =>
      obtain ⟨-, rfl⟩ := create_eq_ok h
      exact .inl (groups_withPorts ..)
  | registerPort k' p =>
      obtain ⟨ports, -, -, rfl⟩ := registerPort_eq_ok (of_map_ok h)
      exact .inl (groups_withPorts ..)
  | deletePort k' p =>
      rw [deletePort_eq_ok h]
      exact .inl (groups_withPorts ..)
  | update k' d | configureHealthCheck k' d | registerBackends k' d | deregisterBackends k' d
  | setFilter k' d =>
      obtain ⟨before, p, rest, new, -, -, -, rfl⟩ := modifyPort_eq_ok (of_map_ok h)
      exact .inl (groups_withPorts ..)
  | authorize group rule =>
      exact .inr ⟨group, rule, .inl ⟨rfl, (authorize_eq_ok (of_map_ok h)).2⟩⟩
  | revoke group rule => exact .inr ⟨group, rule, .inr ⟨rfl, revoke_eq_ok (of_map_ok h)⟩⟩
  | groupsOf | awaitApplied =>
      cases h
      exact .inl rfl

end Inventory

end CloudBalancer
