import CloudBalancer.Proofs.Contracts
import CloudBalancer.Proofs.Groups

/-!
What the cloud keeps true of its holdings, whatever calls it receives: a balancer has ports, all
under its name, with distinct port pairs and with one VIP and one set of interfaces between them;
nothing is registered, filtered or granted twice. This holds of every cloud that calls can reach,
also where they fail halfway through a program.
-/

namespace CloudBalancer

variable {k : Kind}

def Kind.interfaces : (k : Kind) → k.Attachment → List NetworkInterface
  | .l4, () => []
  | .elastic, a => a.interfaces

/-- What holds of each port of a balancer. -/
structure SoundPort (k : Kind) (name vip : String) (interfaces : List NetworkInterface)
    (p : k.Port) : Prop where
  named : p.name = name
  vip : p.vip = vip
  interfaces : k.interfaces p.attachment = interfaces
  backends : Distinct p.backends
  filters : p.filters.Nodup

/-- `new` is `p` but for settings, health check, backends and filter. -/
structure Reconfigures {α : Type} (p new : Port α) : Prop where
  name : new.name = p.name
  pair : new.pair = p.pair
  vip : new.vip = p.vip
  attachment : new.attachment = p.attachment
  backends : Distinct p.backends → Distinct new.backends
  filters : p.filters.Nodup → new.filters.Nodup

structure ValidPorts (k : Kind) (name : String) (ports : List k.Port) : Prop where
  pairs : (ports.map Port.pair).Nodup
  sound : ∃ vip interfaces, ∀ p ∈ ports, SoundPort k name vip interfaces p

namespace ValidPorts

variable {name : String} {ports before after : List k.Port} {p q : k.Port}

theorem nil (k : Kind) (name : String) : ValidPorts k name [] :=
  ⟨List.nodup_nil, "", [], fun p hp => by simp at hp⟩

theorem named (valid : ValidPorts k name ports) (hp : p ∈ ports) : p.name = name := by
  obtain ⟨vip, interfaces, sound⟩ := valid.sound
  exact (sound p hp).named

theorem backends (valid : ValidPorts k name ports) (hp : p ∈ ports) : Distinct p.backends := by
  obtain ⟨vip, interfaces, sound⟩ := valid.sound
  exact (sound p hp).backends

theorem vip_eq (valid : ValidPorts k name ports) (hp : p ∈ ports) (hq : q ∈ ports) :
    p.vip = q.vip := by
  obtain ⟨vip, interfaces, sound⟩ := valid.sound
  exact (sound p hp).vip.trans (sound q hq).vip.symm

theorem interfaces_eq (valid : ValidPorts k name ports) (hp : p ∈ ports) (hq : q ∈ ports) :
    k.interfaces p.attachment = k.interfaces q.attachment := by
  obtain ⟨vip, interfaces, sound⟩ := valid.sound
  exact (sound p hp).interfaces.trans (sound q hq).interfaces.symm

theorem filter (valid : ValidPorts k name ports) (keep : k.Port → Bool) :
    ValidPorts k name (ports.filter keep) := by
  obtain ⟨pairs, vip, interfaces, sound⟩ := valid
  exact ⟨pairs.sublist (List.filter_sublist.map _), vip, interfaces,
    fun p hp => sound p (List.mem_filter.1 hp).1⟩

/-- One port configured anew. -/
theorem replace (valid : ValidPorts k name (before ++ p :: after)) {new : k.Port}
    (h : Reconfigures p new) : ValidPorts k name (before ++ new :: after) := by
  obtain ⟨pairs, vip, interfaces, sound⟩ := valid
  refine ⟨by simpa [h.pair] using pairs, vip, interfaces, fun q hq => ?_⟩
  rcases List.mem_append.1 hq with hq | hq
  · exact sound q (List.mem_append_left _ hq)
  · rcases List.mem_cons.1 hq with rfl | hq
    · have old := sound p (by simp)
      exact ⟨h.name.trans old.named, h.vip.trans old.vip, by rw [h.attachment, old.interfaces],
        h.backends old.backends, h.filters old.filters⟩
    · exact sound q (by simp [hq])

theorem append (valid : ValidPorts k name ports) {new : k.Port}
    (hnew : ∀ q ∈ ports, q.pair ≠ new.pair) (hname : new.name = name)
    (hvip : ∀ q ∈ ports, new.vip = q.vip)
    (hinterfaces : ∀ q ∈ ports, k.interfaces new.attachment = k.interfaces q.attachment)
    (hbackends : Distinct new.backends) (hfilters : new.filters.Nodup) :
    ValidPorts k name (ports ++ [new]) := by
  refine ⟨?_, new.vip, k.interfaces new.attachment, fun q hq => ?_⟩
  · rw [List.map_append, List.nodup_append]
    refine ⟨valid.pairs, by simp, ?_⟩
    rintro a ha b hb rfl
    obtain ⟨q, hq, rfl⟩ := List.mem_map.1 ha
    exact hnew q hq (by simpa using hb)
  · obtain ⟨pairs, vip, interfaces, sound⟩ := valid
    rcases List.mem_append.1 hq with hq | hq
    · have old := sound q hq
      exact ⟨old.named, (hvip q hq).symm, (hinterfaces q hq).symm, old.backends, old.filters⟩
    · rw [List.mem_singleton.1 hq]
      exact ⟨hname, rfl, rfl, hbackends, hfilters⟩

end ValidPorts

/-- The balancer `name` is in order, if it exists. -/
structure Inventory.StockedAt (inv : Inventory) (k : Kind) (name : String) : Prop where
  solid : (inv.table k).get? name ≠ some []
  ports : ValidPorts k name (inv.ports k name)

/-- The balancers of a kind are in order. -/
structure Inventory.Stocked (inv : Inventory) (k : Kind) : Prop where
  solid : ∀ name, (inv.table k).get? name ≠ some []
  ports : ∀ name, ValidPorts k name (inv.ports k name)

structure Inventory.Valid (inv : Inventory) : Prop where
  stocked : ∀ k, inv.Stocked k
  rules : ∀ group, (inv.rulesOf group).Nodup
  members : ∀ group, (inv.members group).Nodup

namespace Inventory

variable {inv after : Inventory} {name : String}

/-- What a call that succeeds does to an inventory. -/
inductive Changes (inv : Inventory) : Inventory → Prop
  | nothing : Changes inv inv
  | ports {k : Kind} {name : String} {ports : List k.Port}
    (sound : ValidPorts k name (inv.ports k name) → ValidPorts k name ports) :
    Changes inv (inv.withPorts k name ports)
  | create {k : Kind} (a : k.Attachment) {name : String} {ports : List k.Port}
    (sound : ValidPorts k name (inv.ports k name) → ValidPorts k name ports) :
    Changes inv ((inv.allocated k a).withPorts k name ports)
  | rules {group : String} {rules : List Rule} (sound : (inv.rulesOf group).Nodup → rules.Nodup) :
    Changes inv (inv.setRules group rules)

theorem of_map_ok {ε : Type} {result : Except ε Inventory}
    (h : result.map ((), ·) = .ok ((), after)) : result = .ok after := by
  cases result with
  | error e => cases h
  | ok inv => cases h; rfl

theorem describe_eq_ok {ports : List k.Port}
    (h : inv.apply (.describe k name) = .ok (ports, after)) :
    inv.ports k name = ports ∧ after = inv := by
  simp only [apply] at h
  split at h
  · next held =>
    cases h
    simp [Inventory.ports, held]
  · cases h

theorem create_eq_ok {p : k.Port} {vip : String} (h : inv.create k p = .ok (vip, after)) :
    inv.ports k p.name = [] ∧
      after = (inv.allocated k p.attachment).withPorts k p.name [inv.firstPort p] := by
  by_cases hcontains : (inv.table k).contains p.name
  · simp [Inventory.create, hcontains] at h
  · have hnone : (inv.table k).get? p.name = none := by
      simpa [NameMap.contains] using hcontains
    have absent : inv.ports k p.name = [] := by
      rw [Inventory.ports, hnone]
      rfl
    have hinv : inv.withPorts k p.name [] = inv := by
      rw [← absent]
      exact withPorts_ports (by simp [hnone])
    rw [← hinv, create_withPorts rfl] at h
    simp only [Except.ok.injEq, Prod.mk.injEq] at h
    exact ⟨absent, h.2.symm⟩

theorem registerPort_eq_ok {p : k.Port} (h : inv.registerPort k p = .ok after) :
    ∃ ports, (inv.table k).get? p.name = some ports ∧ (∀ q ∈ ports, q.same p = false) ∧
      after = inv.withPorts k p.name (ports ++
        [p.bare ((ports.head?.map Port.vip).getD "") (attachLike k ports.head? p.attachment)]) := by
  cases hports : (inv.table k).get? p.name with
  | none => simp [registerPort, Table.ports, hports, bind, Except.bind] at h
  | some ports =>
      simp only [registerPort, Table.ports, hports, bind, Except.bind] at h
      split at h
      · cases h
      · next t hadd =>
        obtain ⟨new, rfl⟩ := Table.add_eq_ok hadd
        cases h
        simp only [hports, Option.getD_some] at new ⊢
        exact ⟨ports, rfl, new, rfl⟩

theorem deletePort_eq_ok {p : k.Port} {answer : Unit}
    (h : inv.apply (.deletePort k p) = .ok (answer, after)) :
    after = inv.withPorts k p.name ((inv.ports k p.name).filter (!·.same p)) := by
  cases hremove : (inv.table k).remove k.notFound p with
  | error e => simp [apply, hremove, Except.map] at h
  | ok t =>
      simp only [apply, hremove, Except.map] at h
      cases h
      rw [Table.remove_eq_ok hremove]
      rfl

theorem modifyPort_eq_ok {d : k.Port} {f : k.Port → Except ApiError k.Port}
    (h : inv.modifyPort k d f = .ok after) :
    ∃ before p rest new, inv.ports k d.name = before ++ p :: rest ∧ Selects d before p ∧
      f p = .ok new ∧ after = inv.withPorts k d.name (before ++ new :: rest) := by
  unfold modifyPort at h
  cases hmodify : (inv.table k).modify k.notFound d f with
  | error e => simp [hmodify, bind, Except.bind] at h
  | ok t =>
      obtain ⟨before, p, rest, new, hports, selects, hnew, rfl⟩ := Table.modify_eq_ok hmodify
      simp only [hmodify, bind, Except.bind, pure, Except.pure, Except.ok.injEq] at h
      exact ⟨before, p, rest, new, by simp [Inventory.ports, hports], selects, hnew, h.symm⟩

/-- The port that deregistering backends makes of `p`. -/
theorem deregistered_eq_ok {p new : k.Port} {backends : List Backend}
    (h : ((removeBackends p.backends backends).map fun left => { p with backends := left }) =
      .ok new) :
    ∃ left, removeBackends p.backends backends = .ok left ∧ new = { p with backends := left } := by
  cases removed : removeBackends p.backends backends with
  | error e => simp [removed, Except.map] at h
  | ok left =>
      simp only [removed, Except.map, Except.ok.injEq] at h
      exact ⟨left, rfl, h.symm⟩

theorem authorize_eq_ok {group : String} {rule : Rule} (h : inv.authorize group rule = .ok after) :
    rule ∉ inv.rulesOf group ∧ after = inv.setRules group (inv.rulesOf group ++ [rule]) := by
  unfold authorize at h
  dsimp only at h
  split at h
  · cases h
  · next hnew =>
    cases h
    rw [← rulesOf_eq] at hnew ⊢
    exact ⟨by simpa using hnew, rfl⟩

theorem revoke_eq_ok {group : String} {rule : Rule} (h : inv.revoke group rule = .ok after) :
    after = inv.setRules group ((inv.rulesOf group).filter (· != rule)) := by
  unfold revoke at h
  dsimp only at h
  split at h
  · cases h
  · next value hgroup =>
    split at h
    · cases h
    · cases h
      simp [rulesOf, setRules, Inventory.members, hgroup]

theorem changes_create {p : k.Port} {vip : String} (h : inv.create k p = .ok (vip, after)) :
    inv.Changes after := by
  obtain ⟨-, rfl⟩ := create_eq_ok h
  have first : ValidPorts k p.name ([] ++ [inv.firstPort p]) :=
    (ValidPorts.nil k p.name).append (by simp) rfl (by simp) (by simp) .nil List.nodup_nil
  exact .create _ fun _ => first

theorem changes_registerPort {p : k.Port} (h : inv.registerPort k p = .ok after) :
    inv.Changes after := by
  obtain ⟨ports, hports, new, rfl⟩ := registerPort_eq_ok h
  refine .ports fun vports => ?_
  simp only [Inventory.ports, hports, Option.getD_some] at vports
  refine vports.append (fun q hq heq => ?_) rfl (fun q hq => ?_) (fun q hq => ?_) .nil
    List.nodup_nil
  · have hsame : q.same p = true := Port.same_iff.2 ⟨vports.named hq, heq⟩
    have hother : q.same p = false := new q hq
    simp [hsame] at hother
  all_goals
    obtain ⟨first, rest, rfl⟩ := List.exists_cons_of_ne_nil (List.ne_nil_of_mem hq)
  · exact (vports.vip_eq List.mem_cons_self hq : first.vip = q.vip)
  · rw [← vports.interfaces_eq List.mem_cons_self hq]
    cases k <;> rfl

theorem changes_modifyPort {d : k.Port} {f : k.Port → Except ApiError k.Port}
    (h : inv.modifyPort k d f = .ok after) (hf : ∀ p new, f p = .ok new → Reconfigures p new) :
    inv.Changes after := by
  obtain ⟨before, p, rest, new, hports, -, hnew, rfl⟩ := modifyPort_eq_ok h
  refine .ports fun vports => ?_
  rw [hports] at vports
  exact vports.replace (hf p new hnew)

theorem changes_authorize {group : String} {rule : Rule}
    (h : inv.authorize group rule = .ok after) : inv.Changes after := by
  obtain ⟨hnew, rfl⟩ := authorize_eq_ok h
  refine .rules fun nodup => List.nodup_append.2 ⟨nodup, by simp, ?_⟩
  rintro a ha b hb rfl
  exact hnew (List.mem_singleton.1 hb ▸ ha)

theorem changes_revoke {group : String} {rule : Rule} (h : inv.revoke group rule = .ok after) :
    inv.Changes after := by
  rw [revoke_eq_ok h]
  exact .rules fun nodup => nodup.filter _

/-- Every call that succeeds makes one of these changes. -/
theorem changes_apply {c : Call} {answer : c.Answer} (h : inv.apply c = .ok (answer, after)) :
    inv.Changes after := by
  cases c with
  | describe k name =>
      rw [(describe_eq_ok h).2]
      exact .nothing
  | create k p => exact changes_create h
  | registerPort k p => exact changes_registerPort (of_map_ok h)
  | update k p =>
      refine changes_modifyPort (of_map_ok h) ?_
      rintro p new ⟨⟩
      exact ⟨rfl, rfl, rfl, rfl, id, id⟩
  | deletePort k p =>
      rw [deletePort_eq_ok h]
      exact .ports fun vports => vports.filter _
  | configureHealthCheck k p =>
      refine changes_modifyPort (of_map_ok h) ?_
      rintro p new ⟨⟩
      exact ⟨rfl, rfl, rfl, rfl, id, id⟩
  | registerBackends k p backends =>
      refine changes_modifyPort (of_map_ok h) ?_
      rintro p new ⟨⟩
      exact ⟨rfl, rfl, rfl, rfl, fun distinct => distinct_addBackends distinct backends, id⟩
  | deregisterBackends k p backends =>
      refine changes_modifyPort (of_map_ok h) fun p new hnew => ?_
      obtain ⟨left, removed, rfl⟩ := deregistered_eq_ok hnew
      exact ⟨rfl, rfl, rfl, rfl, (distinct_removeBackends · removed), id⟩
  | setFilter k p changes =>
      refine changes_modifyPort (of_map_ok h) ?_
      rintro p new ⟨⟩
      exact ⟨rfl, rfl, rfl, rfl, id, (nodup_applyChanges · changes)⟩
  | groupsOf ids => cases h; exact .nothing
  | authorize group rule => exact changes_authorize (of_map_ok h)
  | revoke group rule => exact changes_revoke (of_map_ok h)
  | awaitApplied group => cases h; exact .nothing

theorem ports_withPorts_other (inv : Inventory) {k k' : Kind} {name name' : String}
    (ports : List k.Port) (h : k' ≠ k ∨ name' ≠ name) :
    ((inv.withPorts k name ports).table k').get? name' = (inv.table k').get? name' := by
  cases k <;> cases k'
  case l4.elastic | elastic.l4 => rfl
  all_goals
    rw [table_withPorts, Table.get?_put, if_neg (h.resolve_left (fun hne => hne rfl))]

theorem rulesOf_addToGroup (inv : Inventory) (name : String) (ids : List String) (key : String) :
    (inv.addToGroup name ids).rulesOf key = inv.rulesOf key := by
  rw [rulesOf_eq, rulesOf_eq]
  by_cases hkey : key = name <;> simp [Inventory.addToGroup, NameMap.alter, hkey]

theorem Changes.members_eq (h : inv.Changes after) (group : String) :
    after.members group = inv.members group := by
  cases h with
  | nothing => rfl
  | ports => exact members_withPorts ..
  | create => exact members_withPorts ..
  | rules => exact members_setRules ..

namespace StockedAt

variable {k' : Kind} {name' : String}

theorem absent (h : (inv.table k).get? name = none) : inv.StockedAt k name := by
  refine ⟨by simp [h], ?_⟩
  rw [Inventory.ports, h]
  exact .nil k name

theorem withPorts_ports (stocked : inv.StockedAt k name) :
    inv.withPorts k name (inv.ports k name) = inv :=
  Inventory.withPorts_ports stocked.solid

theorem of_get? {other : Inventory} (stocked : inv.StockedAt k name)
    (same : (other.table k).get? name = (inv.table k).get? name) : other.StockedAt k name := by
  obtain ⟨solid, ports⟩ := stocked
  refine ⟨same ▸ solid, ?_⟩
  rw [Inventory.ports, same]
  exact ports

theorem withPorts (stocked : inv.StockedAt k' name') {ports : List k.Port}
    (sound : ValidPorts k name (inv.ports k name) → ValidPorts k name ports) :
    (inv.withPorts k name ports).StockedAt k' name' := by
  by_cases hother : k' ≠ k ∨ name' ≠ name
  · exact stocked.of_get? (ports_withPorts_other inv ports hother)
  · obtain ⟨rfl, rfl⟩ : k' = k ∧ name' = name := by simpa using hother
    refine ⟨?_, ?_⟩
    · rw [get?_withPorts]
      split <;> simp_all
    · rw [ports_withPorts]
      exact sound stocked.ports

theorem changes (stocked : inv.StockedAt k' name') (h : inv.Changes after) :
    after.StockedAt k' name' := by
  cases h with
  | nothing => exact stocked
  | ports sound => exact stocked.withPorts sound
  | @create k a name ports sound =>
      have moved : (inv.allocated k a).StockedAt k' name' :=
        stocked.of_get? (by cases k' <;> rfl)
      refine moved.withPorts fun held => sound ?_
      cases k <;> exact held
  | rules => exact stocked.of_get? (by cases k' <;> rfl)

end StockedAt

namespace Stocked

variable {k' : Kind}

theorem stockedAt (stocked : inv.Stocked k) (name : String) : inv.StockedAt k name :=
  ⟨stocked.solid name, stocked.ports name⟩

theorem withPorts_ports (stocked : inv.Stocked k) (name : String) :
    inv.withPorts k name (inv.ports k name) = inv :=
  (stocked.stockedAt name).withPorts_ports

theorem of_table {other : Inventory} (stocked : inv.Stocked k)
    (table : other.table k = inv.table k) : other.Stocked k := by
  obtain ⟨solid, ports⟩ := stocked
  refine ⟨fun name => table ▸ solid name, fun name => ?_⟩
  rw [Inventory.ports, table]
  exact ports name

theorem changes (stocked : inv.Stocked k') (h : inv.Changes after) : after.Stocked k' :=
  ⟨fun name => ((stocked.stockedAt name).changes h).solid,
    fun name => ((stocked.stockedAt name).changes h).ports⟩

end Stocked

namespace Valid

theorem withPorts_ports (valid : inv.Valid) (k : Kind) (name : String) :
    inv.withPorts k name (inv.ports k name) = inv :=
  (valid.stocked k).withPorts_ports name

theorem changes (valid : inv.Valid) (h : inv.Changes after) : after.Valid := by
  refine ⟨fun k => (valid.stocked k).changes h, fun key => ?_, fun key => ?_⟩
  · cases h with
    | nothing => exact valid.rules key
    | ports sound =>
        rw [rulesOf_withPorts]
        exact valid.rules key
    | create a sound =>
        rw [rulesOf_withPorts]
        exact valid.rules key
    | @rules group rules sound =>
        rw [rulesOf_setRules]
        split
        · exact sound (valid.rules group)
        · exact valid.rules key
  · rw [h.members_eq]
    exact valid.members key

theorem nodup_joined {members : List String} (h : members.Nodup) (ids : List String) :
    (ids.foldl (fun ids id => if ids.contains id then ids else ids ++ [id]) members).Nodup := by
  induction ids generalizing members with
  | nil => exact h
  | cons id rest ih =>
      refine ih ?_
      dsimp only
      split
      · exact h
      · next hnew =>
        refine List.nodup_append.2 ⟨h, by simp, ?_⟩
        rintro a ha b hb rfl
        rw [List.mem_singleton.1 hb] at ha
        exact hnew (by simpa using ha)

theorem addToGroup (valid : inv.Valid) (name : String) (ids : List String) :
    (inv.addToGroup name ids).Valid := by
  refine ⟨fun k => (valid.stocked k).of_table (by cases k <;> rfl), fun key => ?_, fun key => ?_⟩
  · rw [rulesOf_addToGroup]
    exact valid.rules key
  · by_cases hkey : key = name
    · simpa [Inventory.members, Inventory.addToGroup, NameMap.alter, hkey] using
        nodup_joined (valid.members name) ids
    · simpa [Inventory.members, Inventory.addToGroup, NameMap.alter, hkey] using valid.members key

end Valid

end Inventory

/-- The clouds that calls can bring about, one by one or in programs whose calls get lost, fail, are
late or are answered by something made up, and whatever failures are set up between them. -/
inductive Cloud.Reachable : Cloud → Prop
  | empty : Reachable {}
  | perform {cloud : Cloud} (c : Call) : Reachable cloud → Reachable (cloud.perform c).2
  | simulate {α : Type} {w : World} (program : Program α) (config : Config) :
    Reachable w.cloud → Reachable (program.simulate config w).2.cloud
  | failOn {cloud : Cloud} (op : Operation) (e : ApiError) :
    Reachable cloud → Reachable (cloud.failOn op e)
  | addToGroup {cloud : Cloud} (name : String) (instanceIds : List String) :
    Reachable cloud →
      Reachable { cloud with inventory := cloud.inventory.addToGroup name instanceIds }

namespace Inventory

theorem stocked_of_empty {inv : Inventory} {k : Kind} (h : inv.table k = ∅) : inv.Stocked k := by
  refine ⟨fun name => by simp [h], fun name => ?_⟩
  rw [ports, h]
  exact .nil k name

theorem valid_empty : ({} : Inventory).Valid :=
  ⟨fun k => stocked_of_empty (by cases k <;> rfl), fun _ => List.nodup_nil,
    fun _ => List.nodup_nil⟩

end Inventory

theorem Cloud.Reachable.valid {cloud : Cloud} (h : cloud.Reachable) : cloud.inventory.Valid := by
  have keeps : (⟨fun _ => True, fun _ _ => True⟩ : Contract).Keeps (·.inventory.Valid) :=
    Contract.keeps_of_apply _ (fun _ happly valid => valid.changes (Inventory.changes_apply happly))
      fun _ _ _ => trivial
  induction h with
  | empty => exact Inventory.valid_empty
  | perform c _ ih => exact keeps.good trivial ih
  | simulate program config _ ih =>
      exact ((Program.Within.unbound program).simulate
        (.start ih fun _ _ _ _ _ => trivial) keeps config).good
  | failOn op e _ ih => exact ih
  | addToGroup name ids _ ih => exact ih.addToGroup name ids

end CloudBalancer
