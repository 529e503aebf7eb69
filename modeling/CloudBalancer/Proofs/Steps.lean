import CloudBalancer.Proofs.Effects
import CloudBalancer.Proofs.Filters
import CloudBalancer.Proofs.Tables
import CloudBalancer.Reconcile.Step

/-!
The effect of every step of a reconciliation on the port list of a balancer. The inventory is
written as one with that list put in place, so that the effects of steps compose by rewriting.
-/

namespace CloudBalancer

variable {k : Kind}

namespace Inventory

/-- The ports of a balancer, none if it does not exist. -/
def ports (inv : Inventory) (k : Kind) (name : String) : List k.Port :=
  ((inv.table k).get? name).getD []

/-- The inventory with `ports` as the balancer `name`, which is none if there are no ports. -/
def withPorts (inv : Inventory) (k : Kind) (name : String) (ports : List k.Port) : Inventory :=
  inv.withTable k ((inv.table k).put name ports)

@[simp]
theorem table_withTable (inv : Inventory) (k : Kind) (t : Table k.Attachment) :
    (inv.withTable k t).table k = t := by
  cases k <;> rfl

@[simp]
theorem withTable_withTable (inv : Inventory) (k : Kind) (first second : Table k.Attachment) :
    (inv.withTable k first).withTable k second = inv.withTable k second := by
  cases k <;> rfl

theorem table_pools (inv : Inventory) (k : Kind) (lastVip lastAddress : Nat) :
    ({ inv with lastVip, lastAddress } : Inventory).table k = inv.table k := by
  cases k <;> rfl

theorem withTable_table (inv : Inventory) (k : Kind) :
    inv.withTable k (inv.table k) = inv := by
  cases k <;> rfl

theorem table_withPorts (inv : Inventory) (k : Kind) (name : String) (ports : List k.Port) :
    (inv.withPorts k name ports).table k = (inv.table k).put name ports :=
  table_withTable ..

theorem get?_withPorts (inv : Inventory) (k : Kind) (name : String) (ports : List k.Port) :
    ((inv.withPorts k name ports).table k).get? name =
      if ports = [] then none else some ports := by
  simp [table_withPorts, Table.get?_put]

@[simp]
theorem ports_withPorts (inv : Inventory) (k : Kind) (name : String) (ports : List k.Port) :
    (inv.withPorts k name ports).ports k name = ports := by
  rw [Inventory.ports, get?_withPorts]
  by_cases h : ports = [] <;> simp [h]

theorem withPorts_ports {inv : Inventory} {name : String}
    (h : (inv.table k).get? name ≠ some []) : inv.withPorts k name (inv.ports k name) = inv := by
  rw [withPorts, Inventory.ports, Table.put_of_get? h]
  cases k <;> rfl

theorem groups_withPorts (inv : Inventory) (k : Kind) (name : String) (ports : List k.Port) :
    (inv.withPorts k name ports).groups = inv.groups := by
  cases k <;> rfl

/-- The inventory with both address pools moved on for a new balancer. -/
def allocated (inv : Inventory) (k : Kind) (a : k.Attachment) : Inventory :=
  { inv with
    lastVip := inv.lastVip + 1
    lastAddress := (attach (vipAt (inv.lastVip + 1)) inv.lastAddress k a).2 }

/-- The port `p` as the first one of a new balancer. -/
def firstPort (inv : Inventory) (p : k.Port) : k.Port :=
  p.bare (vipAt (inv.lastVip + 1))
    (attach (vipAt (inv.lastVip + 1)) inv.lastAddress k p.attachment).1

/-- The port `p` as a further one of the balancer that has `first`. -/
def furtherPort (first p : k.Port) : k.Port :=
  p.bare first.vip (attachLike k (some first) p.attachment)

variable {base : Inventory} {name : String} {d p first : k.Port} {before after ports : List k.Port}

theorem apply_describe (some_port : ports ≠ []) :
    (base.withPorts k name ports).apply (.describe k name) =
      .ok (ports, base.withPorts k name ports) := by
  simp [apply, get?_withPorts, some_port]

theorem modifyPort_withPorts (named : d.name = name) (selects : Selects d before p)
    {f : k.Port → Except ApiError k.Port} {new : k.Port} (hf : f p = .ok new) :
    ((base.withPorts k name (before ++ p :: after)).modifyPort k d f).map ((), ·) =
      .ok ((), base.withPorts k name (before ++ new :: after)) := by
  subst named
  simp only [modifyPort, table_withPorts, Table.modify_put selects hf]
  simp only [withPorts, bind, Except.bind, pure, Except.pure, Except.map, withTable_withTable]

theorem create_withPorts (named : p.name = name) :
    (base.withPorts k name []).create k p =
      .ok (vipAt (base.lastVip + 1),
        (base.allocated k p.attachment).withPorts k name [base.firstPort p]) := by
  subst named
  have absent : ((base.withPorts k p.name []).table k).contains p.name = false := by
    simp [NameMap.contains, get?_withPorts]
  have counters : (base.withPorts k p.name []).lastVip = base.lastVip ∧
      (base.withPorts k p.name []).lastAddress = base.lastAddress := by
    cases k <;> exact ⟨rfl, rfl⟩
  let attached : k.Port :=
    { p with attachment := (attach (vipAt (base.lastVip + 1)) base.lastAddress k p.attachment).1 }
  have added : ((base.withPorts k p.name []).table k).add attached (vipAt (base.lastVip + 1)) =
      .ok ((base.table k).put p.name [base.firstPort p]) := by
    rw [table_withPorts]
    exact Table.add_put (p := attached) (by simp) _
  unfold create
  rw [absent, counters.1, counters.2]
  simp only [Bool.false_eq_true, if_false, bind, Except.bind]
  rw [added]
  cases k <;> rfl

theorem registerPort_withPorts (named : p.name = name)
    (new : ∀ q ∈ first :: after, q.same p = false) :
    (base.withPorts k name (first :: after)).registerPort k p =
      .ok (base.withPorts k name (first :: after ++ [furtherPort first p])) := by
  subst named
  have held : ((base.withPorts k p.name (first :: after)).table k).get? p.name =
      some (first :: after) := by
    simp [get?_withPorts]
  let attached : k.Port := { p with attachment := attachLike k (some first) p.attachment }
  have added : ((base.withPorts k p.name (first :: after)).table k).add attached first.vip =
      .ok ((base.table k).put p.name (first :: after ++ [furtherPort first p])) := by
    rw [table_withPorts]
    exact Table.add_put (p := attached) new _
  simp only [registerPort, Table.ports, held, bind, Except.bind, List.head?_cons,
    Option.map_some, Option.getD_some]
  rw [added]
  simp only [withPorts, withTable_withTable]
  rfl

theorem registerPort_withPorts_of_taken (base : Inventory) (named : p.name = name)
    (taken : ∃ q ∈ ports, q.same p = true) :
    ∃ e, (base.withPorts k name ports).registerPort k p = .error e := by
  subst named
  have some_port : ports ≠ [] := fun h => by simp [h] at taken
  have held : ((base.withPorts k p.name ports).table k).get? p.name = some ports := by
    simp [get?_withPorts, some_port]
  let attached : k.Port := { p with attachment := attachLike k ports.head? p.attachment }
  obtain ⟨e, refused⟩ := Table.add_put_of_taken (t := base.table k) (p := attached) taken
    ((ports.head?.map Port.vip).getD "")
  refine ⟨e, ?_⟩
  simp only [registerPort, Table.ports, held, bind, Except.bind]
  rw [table_withPorts, refused]

theorem removePort_withPorts (named : p.name = name) (taken : ∃ q ∈ ports, q.same p = true) :
    (((base.withPorts k name ports).table k).remove k.notFound p).map
        (fun t => ((), (base.withPorts k name ports).withTable k t)) =
      .ok ((), base.withPorts k name (ports.filter (!·.same p))) := by
  subst named
  rw [table_withPorts, Table.remove_put taken]
  simp only [Except.map, withPorts, withTable_withTable]

end Inventory

namespace Reconcile

open Inventory

variable {base : Inventory} {name : String} {d p first : k.Port} {before after ports : List k.Port}

theorem effect_describe (some_port : ports ≠ []) :
    (describe k name).effect (base.withPorts k name ports) =
      (.ok (some ports), base.withPorts k name ports) := by
  rw [describe, Job.effect_bind_ok (Job.effect_remoteUnless_ok _ _ (apply_describe some_port))]
  cases ports with
  | nil => exact absurd rfl some_port
  | cons first rest => rfl

theorem effect_describe_nil :
    (describe k name).effect (base.withPorts k name []) =
      (.ok none, base.withPorts k name []) := by
  have refused : (base.withPorts k name []).apply (.describe k name) =
      .error (.notFound k.notFound s!"{k.label} {name}") := by
    simp [apply, get?_withPorts]
  exact Job.effect_bind_ok (Job.effect_remoteUnless_harmless _ refused)

theorem effect_describeExisting (some_port : ports ≠ []) :
    (describeExisting k name).effect (base.withPorts k name ports) =
      (.ok ports, base.withPorts k name ports) := by
  rw [describeExisting, Job.effect_bind_ok (effect_describe some_port)]
  rfl

theorem effect_createPort (named : p.name = name) :
    (createPort name p).effect (base.withPorts k name []) =
      (.ok (), (base.allocated k p.attachment).withPorts k name [base.firstPort p]) := by
  have created : (base.withPorts k name []).apply (.create k p) = _ := create_withPorts named
  rw [createPort, Job.effect_bind_ok (Job.effect_remote_ok _ created)]
  rfl

theorem effect_registerPort (named : p.name = name)
    (new : ∀ q ∈ first :: after, q.same p = false) :
    (registerPort name p).effect (base.withPorts k name (first :: after)) =
      (.ok (), base.withPorts k name (first :: after ++ [furtherPort first p])) := by
  have registered : (base.withPorts k name (first :: after)).apply (.registerPort k p) =
      .ok ((), base.withPorts k name (first :: after ++ [furtherPort first p])) := by
    rw [apply, registerPort_withPorts named new]
    rfl
  rw [registerPort, Job.effect_bind_ok (Job.effect_remote_ok _ registered)]
  rfl

theorem effect_registerPort_of_taken (base : Inventory) (named : p.name = name)
    (taken : ∃ q ∈ ports, q.same p = true) :
    ∃ e, (registerPort name p).effect (base.withPorts k name ports) =
      (.error e, base.withPorts k name ports) := by
  obtain ⟨e, he⟩ := registerPort_withPorts_of_taken base named taken
  have refused : (base.withPorts k name ports).apply (.registerPort k p) = .error e := by
    rw [apply, he]
    rfl
  exact ⟨_, Job.effect_bind_error (Job.effect_remote_error _ refused)⟩

theorem effect_deletePort (named : p.name = name) (taken : ∃ q ∈ ports, q.same p = true) :
    (deletePort name p).effect (base.withPorts k name ports) =
      (.ok (), base.withPorts k name (ports.filter (!·.same p))) := by
  have deleted : (base.withPorts k name ports).apply (.deletePort k p) =
      .ok ((), base.withPorts k name (ports.filter (!·.same p))) := removePort_withPorts named taken
  rw [deletePort, Job.effect_bind_ok (Job.effect_remote_ok _ deleted)]
  rfl

theorem effect_updateSettings (named : d.name = name) (selects : Selects d before p) :
    (updateSettings d p).effect (base.withPorts k name (before ++ p :: after)) =
      (.ok (), base.withPorts k name (before ++ { p with settings := d.settings } :: after)) := by
  unfold updateSettings
  split
  · next h => rw [h]; rfl
  · have updated : (base.withPorts k name (before ++ p :: after)).apply (.update k d) =
        .ok ((), base.withPorts k name (before ++ { p with settings := d.settings } :: after)) :=
      modifyPort_withPorts named selects rfl
    exact Job.effect_remote_ok _ updated

theorem effect_configureHealthCheck (named : d.name = name) (selects : Selects d before p) :
    (configureHealthCheck d).effect (base.withPorts k name (before ++ p :: after)) =
      (.ok (),
        base.withPorts k name (before ++ { p with healthCheck := d.healthCheck } :: after)) := by
  have configured :
      (base.withPorts k name (before ++ p :: after)).apply (.configureHealthCheck k d) =
        .ok ((), base.withPorts k name
          (before ++ { p with healthCheck := d.healthCheck } :: after)) :=
    modifyPort_withPorts named selects rfl
  exact Job.effect_bind_ok (Job.effect_remote_ok _ configured)

theorem apply_registerBackends (named : d.name = name) (selects : Selects d before p)
    (backends : List Backend) :
    (base.withPorts k name (before ++ p :: after)).apply (.registerBackends k d backends) =
      .ok ((), base.withPorts k name
        (before ++ { p with backends := addBackends p.backends backends } :: after)) :=
  modifyPort_withPorts named selects rfl

theorem effect_registerBackends (named : d.name = name) (selects : Selects d before p)
    (backends : List Backend) :
    (registerBackends d backends).effect (base.withPorts k name (before ++ p :: after)) =
      (.ok (), base.withPorts k name
        (before ++ { p with backends := addBackends p.backends backends } :: after)) :=
  Job.effect_bind_ok (Job.effect_remote_ok _ (apply_registerBackends named selects backends))

theorem apply_deregisterBackends (named : d.name = name) (selects : Selects d before p)
    {backends left : List Backend} (h : removeBackends p.backends backends = .ok left) :
    (base.withPorts k name (before ++ p :: after)).apply (.deregisterBackends k d backends) =
      .ok ((), base.withPorts k name (before ++ { p with backends := left } :: after)) :=
  modifyPort_withPorts named selects (by rw [h]; rfl)

theorem effect_deregisterBackends (named : d.name = name) (selects : Selects d before p)
    {backends left : List Backend} (h : removeBackends p.backends backends = .ok left) :
    (deregisterBackends d backends).effect (base.withPorts k name (before ++ p :: after)) =
      (.ok (), base.withPorts k name (before ++ { p with backends := left } :: after)) :=
  Job.effect_bind_ok (Job.effect_remote_ok _ (apply_deregisterBackends named selects h))

theorem apply_setFilter (named : d.name = name) (selects : Selects d before p)
    (changes : List FilterChange) :
    (base.withPorts k name (before ++ p :: after)).apply (.setFilter k d changes) =
      .ok ((), base.withPorts k name
        (before ++ { p with filters := applyChanges p.filters changes } :: after)) :=
  modifyPort_withPorts named selects rfl

theorem effect_setFilter (named : d.name = name) (selects : Selects d before p)
    (current : List String) :
    (setFilter d current).effect (base.withPorts k name (before ++ p :: after)) =
      (.ok (), base.withPorts k name (before ++
        { p with filters := applyChanges p.filters (filterChanges d.filters current) } ::
          after)) := by
  unfold setFilter
  dsimp only
  split
  · next h => rw [List.isEmpty_iff.1 h]; rfl
  · exact Job.effect_bind_ok (Job.effect_remote_ok _ (apply_setFilter named selects _))

/-- A failure is recorded and passed on. -/
@[simp]
theorem effect_reporting (name : String) (program : Program Status) (inv : Inventory) :
    (reporting name program).effect inv = program.effect inv := by
  rw [reporting, Program.effect_handle]
  split
  · next h => rw [h]
  · next h => rw [h]; rfl

end Reconcile

end CloudBalancer
