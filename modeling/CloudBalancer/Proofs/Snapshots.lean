import CloudBalancer.Proofs.ByteOrder
import CloudBalancer.Proofs.PortChanges
import CloudBalancer.Proofs.Restarts

/-!
Clouds and what they are written down as. A list of ports is read into balancers by name and written
down again in the order of the names, the ports of one name as they followed one another: this is
the stable sort by name. Every cloud that was read from a list files its ports like this whatever
happens to it, so that a restart changes its address pools alone; and as only the creation of a
balancer looks at those, no other call can tell.
-/

namespace CloudBalancer

variable {α : Type}

/-- The ports in the order of the UTF-8 bytes of their names. -/
def byName (ports : List (Port α)) : List (Port α) :=
  ports.mergeSort fun a b => decide (Text.utf8 a.name ≤ Text.utf8 b.name)

def Ordered (ports : List (Port α)) : Prop :=
  ports.Pairwise fun a b => a.name ≤ b.name

section Sorting

theorem utf8_name_trans (a b c : Port α) (hab : decide (Text.utf8 a.name ≤ Text.utf8 b.name) = true)
    (hbc : decide (Text.utf8 b.name ≤ Text.utf8 c.name) = true) :
    decide (Text.utf8 a.name ≤ Text.utf8 c.name) = true := by
  simp only [decide_eq_true_eq, Text.utf8_le_iff] at hab hbc ⊢
  exact String.le_trans hab hbc

theorem utf8_name_total (a b : Port α) :
    (decide (Text.utf8 a.name ≤ Text.utf8 b.name) ||
      decide (Text.utf8 b.name ≤ Text.utf8 a.name)) = true := by
  simpa [Text.utf8_le_iff] using String.le_total a.name b.name

theorem ordered_byName (ports : List (Port α)) : Ordered (byName ports) := by
  have sorted := List.pairwise_mergeSort utf8_name_trans utf8_name_total ports
  exact sorted.imp fun h => Text.utf8_le_iff.1 (of_decide_eq_true h)

/-- The ports of one name follow one another as before. -/
theorem filter_byName (ports : List (Port α)) (name : String) :
    (byName ports).filter (·.name = name) = ports.filter (·.name = name) := by
  have together : (ports.filter (·.name = name)).Pairwise
      fun a b => decide (Text.utf8 a.name ≤ Text.utf8 b.name) = true := by
    refine List.pairwise_of_forall_mem_list fun a ha b hb => ?_
    have same : a.name = b.name := by
      simp only [List.mem_filter, decide_eq_true_eq] at ha hb
      rw [ha.2, hb.2]
    simp [same]
  have kept : (ports.filter (·.name = name)).Sublist (byName ports) :=
    List.sublist_mergeSort utf8_name_trans utf8_name_total together List.filter_sublist
  have inside : (ports.filter (·.name = name)).Sublist ((byName ports).filter (·.name = name)) := by
    simpa using kept.filter (·.name = name)
  have perm : ((byName ports).filter (·.name = name)).Perm (ports.filter (·.name = name)) :=
    (List.mergeSort_perm ports _).filter _
  exact (inside.eq_of_length perm.length_eq.symm).symm

theorem name_le_head {p q : Port α} {ports : List (Port α)} (ordered : Ordered (p :: ports))
    (hq : q ∈ p :: ports) : p.name ≤ q.name := by
  cases hq with
  | head => exact String.le_refl _
  | tail _ later => exact (List.pairwise_cons.1 ordered).1 q later

theorem mem_iff_of_filter_eq {ports others : List (Port α)}
    (same : ∀ name, ports.filter (·.name = name) = others.filter (·.name = name)) (p : Port α) :
    p ∈ ports ↔ p ∈ others := by
  have here : p ∈ ports.filter (·.name = p.name) ↔ p ∈ others.filter (·.name = p.name) := by
    rw [same]
  simpa using here

/-- The order of the names and that of the ports of each name make the list. -/
theorem Ordered.eq_of_filter_eq {ports others : List (Port α)} (ordered : Ordered ports)
    (ordered' : Ordered others)
    (same : ∀ name, ports.filter (·.name = name) = others.filter (·.name = name)) :
    ports = others := by
  induction ports generalizing others with
  | nil =>
      refine (List.eq_nil_iff_forall_not_mem.2 fun q hq => ?_).symm
      simpa using (mem_iff_of_filter_eq same q).2 hq
  | cons p ports ih =>
      have mem := mem_iff_of_filter_eq same
      cases others with
      | nil => exact absurd ((mem p).1 List.mem_cons_self) List.not_mem_nil
      | cons q others =>
          have names : p.name = q.name :=
            String.le_antisymm (name_le_head ordered ((mem q).2 List.mem_cons_self))
              (name_le_head ordered' ((mem p).1 List.mem_cons_self))
          have heads : p = q := by
            have first := same p.name
            simp only [names, List.filter_cons, decide_true, if_true] at first
            exact (List.cons.inj first).1
          subst heads
          have rest (name : String) :
              ports.filter (·.name = name) = others.filter (·.name = name) := by
            have whole := same name
            by_cases own : p.name = name
            · simp only [List.filter_cons, own, decide_true, if_true] at whole
              exact (List.cons.inj whole).2
            · simpa only [List.filter_cons, own, decide_false, Bool.false_eq_true, if_false] using
                whole
          rw [ih (List.pairwise_cons.1 ordered).2 (List.pairwise_cons.1 ordered').2 rest]

end Sorting

/-- Every balancer has ports, and all of them are filed under its name. -/
structure Table.Filed (t : Table α) : Prop where
  solid : ∀ name, t.get? name ≠ some []
  named : ∀ name ports, t.get? name = some ports → ∀ p ∈ ports, p.name = name

namespace Table

theorem filed_ofPorts (ports : List (Port α)) : (ofPorts ports).Filed := by
  constructor
  · intro name
    rw [get?_ofPorts]
    split
    · simp
    · next some_port => simpa using some_port
  · intro name held there p hp
    rw [get?_ofPorts] at there
    split at there
    · cases there
    · cases there
      simpa using (List.mem_filter.1 hp).2

theorem ordered_flatten {entries : List (String × List (Port α))} (ascending : Ascending entries)
    (named : ∀ e ∈ entries, ∀ p ∈ e.2, p.name = e.1) :
    Ordered (entries.map Prod.snd).flatten := by
  refine List.pairwise_flatten.2 ⟨fun ports hports => ?_, ?_⟩
  · obtain ⟨e, he, rfl⟩ := List.mem_map.1 hports
    refine List.pairwise_of_forall_mem_list fun p hp q hq => ?_
    rw [named e he p hp, named e he q hq]
  · rw [List.pairwise_map]
    refine ascending.imp_of_mem fun {e e'} he he' less p hp q hq => ?_
    rw [named e he p hp, named e' he' q hq]
    exact le_of_lt less

theorem Filed.ordered_allPorts {t : Table α} (filed : t.Filed) : Ordered t.allPorts :=
  ordered_flatten t.ascending fun e he =>
    filed.named e.1 e.2 ((t.mem_entries_iff _ _).1 he)

/-- What a list of ports is read as is written down as the list sorted by name. -/
theorem allPorts_ofPorts (ports : List (Port α)) : (ofPorts ports).allPorts = byName ports := by
  have filed := filed_ofPorts ports
  refine filed.ordered_allPorts.eq_of_filter_eq (ordered_byName ports) fun name => ?_
  rw [filter_allPorts filed.named, filter_byName, get?_ofPorts]
  split
  · next none => simp [none]
  · rfl

end Table

namespace Inventory

variable {inv after : Inventory} {k : Kind} {name : String} {c : Call}

theorem snapshot_ofSnapshot (s : Snapshot) :
    (ofSnapshot s).snapshot = ⟨byName s.l4, byName s.elastic, s.groups⟩ := by
  simp only [snapshot, ofSnapshot, Table.allPorts_ofPorts]

def Filed (inv : Inventory) : Prop :=
  ∀ k, (inv.table k).Filed

theorem filed_ofSnapshot (s : Snapshot) : (ofSnapshot s).Filed := by
  intro k
  cases k with
  | l4 => exact Table.filed_ofPorts s.l4
  | elastic => exact Table.filed_ofPorts s.elastic

theorem Filed.ofPorts_allPorts (filed : inv.Filed) (k : Kind) :
    Table.ofPorts (inv.table k).allPorts = inv.table k :=
  Table.ofPorts_allPorts (filed k).solid (filed k).named

theorem solid_withPorts {k' : Kind} {name' : String} {base : Inventory} (ports : List k'.Port)
    (solid : (base.table k).get? name ≠ some []) :
    ((base.withPorts k' name' ports).table k).get? name ≠ some [] := by
  by_cases other : k ≠ k' ∨ name ≠ name'
  · rwa [ports_withPorts_other base ports other]
  · obtain ⟨rfl, rfl⟩ : k = k' ∧ name = name' := by simpa using other
    rw [get?_withPorts]
    split
    · simp
    · next some_port => simpa using some_port

theorem Changes.solid (h : inv.Changes after) (solid : (inv.table k).get? name ≠ some []) :
    (after.table k).get? name ≠ some [] := by
  cases h with
  | nothing => exact solid
  | ports => exact solid_withPorts _ solid
  | create => exact solid_withPorts _ (by cases k <;> exact solid)
  | rules => cases k <;> exact solid

theorem Turns.named {ports : List k.Port} (turns : inv.Turns k name c ports)
    (named : ∀ p ∈ inv.ports k name, p.name = name) : ∀ p ∈ ports, p.name = name := by
  intro q hq
  cases turns with
  | unchanged => exact named q hq
  | founded own absent =>
      rw [List.mem_singleton.1 hq]
      exact own
  | added own held new =>
      rw [held] at named
      cases List.mem_append.1 hq with
      | inl former => exact named q former
      | inr fresh =>
          rw [List.mem_singleton.1 fresh]
          exact own
  | @revised c d p new before rest own held selects revises =>
      rw [held] at named
      by_cases revised : q = new
      · rw [revised, revises.name]
        exact named p (by simp)
      · have other : q ∈ before ∨ q ∈ rest := by simpa [revised] using hq
        exact named q (List.mem_append.2 (other.imp id (List.mem_cons_of_mem p)))
  | removed own => exact named q (List.mem_filter.1 hq).1

theorem Filed.named_ports (filed : inv.Filed) : ∀ p ∈ inv.ports k name, p.name = name := by
  intro p hp
  cases held : (inv.table k).get? name with
  | none => simp [Inventory.ports, held] at hp
  | some ports =>
      exact (filed k).named name ports held p (by simpa [Inventory.ports, held] using hp)

/-- Calls file ports under their names. -/
theorem Filed.apply (filed : inv.Filed) {answer : c.Answer}
    (h : inv.apply c = .ok (answer, after)) : after.Filed := by
  intro k
  constructor
  · intro name
    exact (changes_apply h).solid ((filed k).solid name)
  · intro name ports held
    have turns := turns_apply ((filed k).solid name) h
    have named := turns.named filed.named_ports
    rwa [Inventory.ports, held] at named

/-- The same holdings, with the address pools at other positions. -/
def withPools (inv : Inventory) (lastVip lastAddress : Nat) : Inventory :=
  { inv with lastVip, lastAddress }

/-- A restart starts the pools anew and keeps everything else. -/
theorem Filed.ofSnapshot_snapshot (filed : inv.Filed) :
    ofSnapshot inv.snapshot =
      inv.withPools (ofSnapshot inv.snapshot).lastVip (ofSnapshot inv.snapshot).lastAddress := by
  have l4 := filed.ofPorts_allPorts .l4
  have elastic := filed.ofPorts_allPorts .elastic
  simp only [table] at l4 elastic
  simp only [ofSnapshot, snapshot, withPools, l4, elastic]

theorem Filed.snapshot_ofSnapshot (filed : inv.Filed) :
    (ofSnapshot inv.snapshot).snapshot = inv.snapshot := by
  rw [filed.ofSnapshot_snapshot]
  rfl

section Pools

variable {lastVip lastAddress : Nat}

theorem table_withPools (inv : Inventory) (k : Kind) (lastVip lastAddress : Nat) :
    (inv.withPools lastVip lastAddress).table k = inv.table k :=
  table_pools ..

theorem withTable_withPools (inv : Inventory) (k : Kind) (t : Table k.Attachment)
    (lastVip lastAddress : Nat) :
    (inv.withPools lastVip lastAddress).withTable k t =
      (inv.withTable k t).withPools lastVip lastAddress := by
  cases k <;> rfl

theorem groups_withPools (inv : Inventory) (lastVip lastAddress : Nat) :
    (inv.withPools lastVip lastAddress).groups = inv.groups := rfl

/-- What a call answers and leaves, with the pools of the inventory left at other positions. -/
def movedPools {β : Type} (lastVip lastAddress : Nat) :
    Except ApiError (β × Inventory) → Except ApiError (β × Inventory) :=
  Except.map fun result => (result.1, result.2.withPools lastVip lastAddress)

theorem modifyPort_withPools (d : k.Port) (f : k.Port → Except ApiError k.Port) :
    ((inv.withPools lastVip lastAddress).modifyPort k d f).map ((), ·) =
      movedPools lastVip lastAddress ((inv.modifyPort k d f).map ((), ·)) := by
  simp only [modifyPort, table_withPools, withTable_withPools]
  cases (inv.table k).modify k.notFound d f <;> rfl

theorem registerPort_withPools (d : k.Port) :
    ((inv.withPools lastVip lastAddress).registerPort k d).map ((), ·) =
      movedPools lastVip lastAddress ((inv.registerPort k d).map ((), ·)) := by
  simp only [registerPort, table_withPools, withTable_withPools]
  cases (inv.table k).ports k.notFound d.name with
  | error e => rfl
  | ok ports =>
      simp only [bind, Except.bind]
      cases (inv.table k).add _ _ <;> rfl

/-- Only the creation of a balancer depends on the positions of the pools or moves them. -/
theorem apply_withPools (other : ∀ k p, c ≠ .create k p) :
    (inv.withPools lastVip lastAddress).apply c =
      movedPools lastVip lastAddress (inv.apply c) := by
  cases c with
  | describe k name =>
      simp only [apply, table_withPools]
      cases (inv.table k).get? name <;> rfl
  | create k p => exact absurd rfl (other k p)
  | registerPort k p => exact registerPort_withPools p
  | update k d | configureHealthCheck k d | registerBackends k d | deregisterBackends k d
  | setFilter k d => exact modifyPort_withPools d _
  | deletePort k p =>
      simp only [apply, table_withPools, withTable_withPools]
      cases (inv.table k).remove k.notFound p <;> rfl
  | groupsOf ids => rfl
  | authorize group rule =>
      simp only [apply, authorize, groups_withPools]
      by_cases granted : ((inv.groups.get? group).getD {}).rules.contains rule
      · simp only [granted, if_true]
        rfl
      · simp only [granted, Bool.false_eq_true, if_false]
        rfl
  | revoke group rule =>
      simp only [apply, revoke, groups_withPools]
      cases inv.groups.get? group with
      | none => rfl
      | some held =>
          by_cases absent : (held.rules.filter (· != rule)).length = held.rules.length
          · simp only [absent, if_true]
            rfl
          · simp only [absent, if_false]
            rfl
  | awaitApplied group => rfl

end Pools

end Inventory

/-- Whether the happening is the creation of a balancer, which may be refused. -/
def Happening.isCreation : Happening → Bool
  | .call (.create ..) => true
  | _ => false

namespace Cloud

variable {cloud other : Cloud}

/-- The answers to the calls among what happens to a cloud. -/
def answers (cloud : Cloud) : List Happening → List (Σ c : Call, Except ApiError c.Answer)
  | [] => []
  | .call c :: rest => ⟨c, (cloud.perform c).1⟩ :: (cloud.undergo (.call c)).answers rest
  | happening :: rest => (cloud.undergo happening).answers rest

theorem filed_undergo (filed : cloud.inventory.Filed) (happening : Happening) :
    (cloud.undergo happening).inventory.Filed := by
  cases happening with
  | call c =>
      cases cloud.perform_inventory c with
      | inl same =>
          rw [undergo, same]
          exact filed
      | inr changed =>
          obtain ⟨answer, happly⟩ := changed
          exact filed.apply happly
  | failOn op e => exact filed
  | addToGroup name instanceIds =>
      intro k
      cases k with
      | l4 => exact filed .l4
      | elastic => exact filed .elastic
  | restart => exact Inventory.filed_ofSnapshot cloud.snapshot

theorem filed_undergoAll (filed : cloud.inventory.Filed) (happenings : List Happening) :
    (happenings.foldl undergo cloud).inventory.Filed := by
  induction happenings generalizing cloud with
  | nil => exact filed
  | cons happening rest ih => exact ih (filed_undergo filed happening)

/-- The clouds differ in their address pools and their logs alone. -/
structure Alike (cloud other : Cloud) : Prop where
  holdings : ∃ lastVip lastAddress,
    other.inventory = cloud.inventory.withPools lastVip lastAddress
  failures : other.failures = cloud.failures

namespace Alike

theorem snapshot (alike : Alike cloud other) : other.snapshot = cloud.snapshot := by
  obtain ⟨lastVip, lastAddress, holdings⟩ := alike.holdings
  rw [Cloud.snapshot, holdings]
  rfl

theorem perform (alike : Alike cloud other) {c : Call} (later : ∀ k p, c ≠ .create k p) :
    (other.perform c).1 = (cloud.perform c).1 ∧
      Alike (cloud.perform c).2 (other.perform c).2 := by
  obtain ⟨⟨lastVip, lastAddress, holdings⟩, failures⟩ := alike
  unfold Cloud.perform
  dsimp only
  rw [failures]
  cases cloud.failures.lookup c.operation with
  | some e => exact ⟨rfl, ⟨lastVip, lastAddress, holdings⟩, rfl⟩
  | none =>
      dsimp only
      rw [holdings, Inventory.apply_withPools later]
      cases cloud.inventory.apply c with
      | error e => exact ⟨rfl, ⟨lastVip, lastAddress, rfl⟩, rfl⟩
      | ok result => exact ⟨rfl, ⟨lastVip, lastAddress, rfl⟩, rfl⟩

theorem undergo (alike : Alike cloud other) {happening : Happening}
    (later : happening.isCreation = false) :
    Alike (cloud.undergo happening) (other.undergo happening) := by
  cases happening with
  | call c => exact (alike.perform fun k p own => by simp [own, Happening.isCreation] at later).2
  | failOn op e =>
      refine ⟨alike.holdings, ?_⟩
      simp only [Cloud.undergo, failOn, alike.failures]
  | addToGroup name instanceIds =>
      obtain ⟨lastVip, lastAddress, holdings⟩ := alike.holdings
      refine ⟨⟨lastVip, lastAddress, ?_⟩, alike.failures⟩
      simp only [Cloud.undergo, holdings]
      rfl
  | restart =>
      have same : other.undergo .restart = cloud.undergo .restart := by
        simp only [Cloud.undergo, alike.snapshot]
      rw [same]
      exact ⟨⟨_, _, rfl⟩, rfl⟩

theorem answers (alike : Alike cloud other) {happenings : List Happening}
    (later : ∀ h ∈ happenings, h.isCreation = false) :
    other.answers happenings = cloud.answers happenings ∧
      Alike (happenings.foldl Cloud.undergo cloud) (happenings.foldl Cloud.undergo other) := by
  induction happenings generalizing cloud other with
  | nil => exact ⟨rfl, alike⟩
  | cons happening rest ih =>
      have first := later happening List.mem_cons_self
      have step := ih (alike.undergo first) fun h hh => later h (List.mem_cons_of_mem happening hh)
      refine ⟨?_, step.2⟩
      cases happening with
      | call c =>
          have answer := (alike.perform (c := c) fun k p own => by
            simp [own, Happening.isCreation] at first).1
          rw [Cloud.answers, Cloud.answers, answer, step.1]
      | failOn | addToGroup | restart => exact step.1

end Alike

theorem alike_restart (filed : cloud.inventory.Filed) (failures : List (Operation × ApiError)) :
    Alike { cloud with failures } { cloud.undergo .restart with failures } :=
  ⟨⟨_, _, filed.ofSnapshot_snapshot⟩, rfl⟩

/-- What a cloud read from a snapshot is written down as is the snapshot with its lists sorted by
name, and that is read and written down unchanged. A cloud that is started again after anything has
happened to it, with the failures that were to happen set up again, answers all calls like before
as long as no balancer is created, and is written down like before. -/
theorem snapshots_keep_holdings :
    (∀ s : Snapshot, (ofSnapshot s).snapshot = ⟨byName s.l4, byName s.elastic, s.groups⟩ ∧
      (ofSnapshot (ofSnapshot s).snapshot).snapshot = (ofSnapshot s).snapshot) ∧
    ∀ (s : Snapshot) (past later : List Happening) (failures : List (Operation × ApiError)),
      (∀ happening ∈ later, happening.isCreation = false) →
      let cloud := past.foldl undergo (ofSnapshot s)
      let restarted := { cloud.undergo .restart with failures }
      restarted.answers later = { cloud with failures }.answers later ∧
        (later.foldl undergo restarted).snapshot =
          (later.foldl undergo { cloud with failures }).snapshot := by
  constructor
  · intro s
    have filed : (ofSnapshot s).inventory.Filed := Inventory.filed_ofSnapshot s
    have again := alike_restart filed []
    exact ⟨Inventory.snapshot_ofSnapshot s, again.snapshot⟩
  · intro s past later failures creationless
    have start : (ofSnapshot s).inventory.Filed := Inventory.filed_ofSnapshot s
    have filed := filed_undergoAll start past
    have alike := (alike_restart filed failures).answers creationless
    exact ⟨alike.1, alike.2.snapshot⟩

end Cloud

namespace Sample

def plainPort (name : String) (balancerPort : UInt16) (vip : String) : L4Port where
  name
  settings := {}
  pair := ⟨balancerPort, 30080⟩
  healthCheck := {}
  backends := []
  filters := []
  vip
  attachment := ()

/-- The ports of one balancer are apart, and there is no agreement on its VIP. -/
def scattered : Snapshot where
  l4 := [plainPort "web" 443 "203.0.113.5", plainPort "api" 80 "none", plainPort "web" 80 ""]

end Sample

/-- A balancer comes and goes, so that a restart takes the VIP pool back. -/
theorem Cloud.restart_of_scattered :
    let fresh := Sample.plainPort "new" 80 ""
    let cloud := [.call (.create .l4 fresh), .call (.deletePort .l4 fresh)].foldl undergo
      (ofSnapshot Sample.scattered)
    let restarted := cloud.undergo .restart
    let failures := [(.registerPort .l4, ⟨.loadBalancerNotFound, "gone"⟩)]
    let further := Sample.plainPort "api" 8080 ""
    let later : List Happening := [.call (.describe .l4 "web"), .call (.registerPort .l4 further),
      .call (.registerPort .l4 further), .restart, .call (.describe .l4 "api")]
    cloud.inventory.lastVip = 6 ∧ restarted.inventory.lastVip = 5 ∧
      (∀ happening ∈ later, happening.isCreation = false) ∧
      { restarted with failures }.answers later = { cloud with failures }.answers later := by
  intro fresh cloud restarted failures further later
  have creationless : ∀ happening ∈ later, happening.isCreation = false := by decide
  refine ⟨by decide, by decide, creationless, ?_⟩
  exact (snapshots_keep_holdings.2 Sample.scattered
    [.call (.create .l4 fresh), .call (.deletePort .l4 fresh)] later failures creationless).1

end CloudBalancer
