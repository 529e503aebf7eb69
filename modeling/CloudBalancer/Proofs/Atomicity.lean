import CloudBalancer.Cloud.InPlace
import CloudBalancer.Proofs.Steps

/-!
Calls that are refused. Step by step a call may have made an entry, taken addresses or left out a
port before it turns out that it cannot succeed; what has been written then is what was there, or
the call succeeds after all. So the single writes of a call come to what it does at once, and a call
that is refused leaves nothing behind but its entry in the log, in any cloud whatsoever.
-/

namespace CloudBalancer

variable {α : Type}

/-- How a call ends in a cloud, by what it comes to in the inventory. -/
def Cloud.conclude (cloud : Cloud) :
    Except ApiError (α × Inventory) → EStateM.Result ApiError Cloud α
  | .ok (answer, inventory) => .ok answer { cloud with inventory }
  | .error e => .error e cloud

namespace InPlace

variable {k : Kind} {name : String} {cloud : Cloud}

@[simp]
theorem run_inventory (cloud : Cloud) : inventory.run cloud = .ok cloud.inventory cloud := rfl

@[simp]
theorem run_write (f : Inventory → Inventory) (cloud : Cloud) :
    (write f).run cloud = .ok () { cloud with inventory := f cloud.inventory } := rfl

@[simp]
theorem run_takeVip (cloud : Cloud) :
    takeVip.run cloud = .ok (Inventory.vipAt (cloud.inventory.lastVip + 1))
      { cloud with inventory.lastVip := cloud.inventory.lastVip + 1 } := rfl

@[simp]
theorem run_takeAddress (cloud : Cloud) :
    takeAddress.run cloud = .ok (Inventory.addressAt (cloud.inventory.lastAddress + 1))
      { cloud with inventory.lastAddress := cloud.inventory.lastAddress + 1 } := rfl

/-- The interfaces are filled one by one, each with the next address. -/
theorem run_fillInterfaces (vip : String) (interfaces : List NetworkInterface) (cloud : Cloud) :
    (interfaces.mapM (fillInterface vip)).run cloud =
      .ok (Inventory.fillInterfaces vip cloud.inventory.lastAddress interfaces).1
        { cloud with inventory.lastAddress :=
            (Inventory.fillInterfaces vip cloud.inventory.lastAddress interfaces).2 } := by
  induction interfaces generalizing cloud with
  | nil => rfl
  | cons interface rest ih =>
      rw [List.mapM_cons, fillInterface, Inventory.fillInterfaces]
      by_cases filled : interface.ipAddress.getD "" ≠ ""
      · simp only [if_pos filled, EStateM.run_bind, EStateM.run_pure, ih]
      · by_cases onVip : interface.isVipNetwork
        · simp only [if_neg filled, if_pos onVip, EStateM.run_bind, EStateM.run_pure, ih]
        · simp only [if_neg filled, if_neg onVip, EStateM.run_bind, EStateM.run_pure,
            run_takeAddress, ih]

theorem run_attach (vip : String) (a : k.Attachment) (cloud : Cloud) :
    (attach vip k a).run cloud =
      .ok (Inventory.attach vip cloud.inventory.lastAddress k a).1
        { cloud with inventory.lastAddress :=
            (Inventory.attach vip cloud.inventory.lastAddress k a).2 } := by
  cases k with
  | l4 => rfl
  | elastic =>
      rw [attach, EStateM.run_bind, run_fillInterfaces]
      rfl

theorem run_ofExcept (result : Except ApiError α) (cloud : Cloud) :
    (ofExcept result : InPlace α).run cloud =
      match result with
      | .ok value => .ok value cloud
      | .error e => .error e cloud := by
  cases result <;> rfl

theorem run_portsOf (k : Kind) (name : String) (cloud : Cloud) :
    (portsOf k name).run cloud =
      match (cloud.inventory.table k).ports k.notFound name with
      | .ok ports => .ok ports cloud
      | .error e => .error e cloud := by
  cases held : (cloud.inventory.table k).ports k.notFound name <;>
    simp [portsOf, run_ofExcept, held]

/-- Where the port is already there its entry is, too, so that making the entry did nothing. -/
theorem run_insertPort (port : k.Port) (vip : String) (cloud : Cloud) :
    (insertPort k port vip).run cloud =
      cloud.conclude (((cloud.inventory.table k).add port vip).map
        fun t => ((), cloud.inventory.withTable k t)) := by
  simp only [insertPort, writePorts, Table.add, EStateM.run_bind, run_inventory, run_write]
  by_cases taken : (((cloud.inventory.table k).get? port.name).getD []).any (·.same port)
  · have held : (cloud.inventory.table k).get? port.name =
        some (((cloud.inventory.table k).get? port.name).getD []) := by
      cases hports : (cloud.inventory.table k).get? port.name with
      | none => simp [hports] at taken
      | some ports => rfl
    simp only [taken, if_true, EStateM.run_throw, NameMap.insert_get? held]
    rw [Inventory.withTable_table]
    rfl
  · simp only [taken, Bool.false_eq_true, if_false, run_write, Inventory.table_withTable,
      NameMap.insert_insert, Inventory.withTable_withTable]
    rfl

/-- Once an address is taken the port of a new balancer is added. -/
theorem run_create (port : k.Port) (cloud : Cloud) :
    (create k port).run cloud = cloud.conclude (cloud.inventory.create k port) := by
  simp only [create, Inventory.create, EStateM.run_bind, run_inventory]
  split
  · rfl
  · next absent =>
    have held : (cloud.inventory.table k).get? port.name = none := by
      simpa [NameMap.contains] using absent
    have added (vip : String) (attachment : k.Attachment) :
        (cloud.inventory.table k).add { port with attachment } vip =
          .ok ((cloud.inventory.table k).insert port.name [port.bare vip attachment]) :=
      Table.add_of_absent held
    simp only [EStateM.run_bind, run_takeVip, run_attach, run_insertPort, Inventory.table_pools]
    simp only [added, bind, Except.bind]
    cases k <;> rfl

theorem run_registerPort (port : k.Port) (cloud : Cloud) :
    (registerPort k port).run cloud =
      cloud.conclude ((cloud.inventory.registerPort k port).map ((), ·)) := by
  simp only [registerPort, Inventory.registerPort, EStateM.run_bind, run_portsOf]
  cases (cloud.inventory.table k).ports k.notFound port.name with
  | error e => rfl
  | ok ports =>
      simp only [run_insertPort, bind, Except.bind]
      cases (cloud.inventory.table k).add _ _ <;> rfl

/-- A step that reads the port `port` means and then either writes it or is refused. -/
theorem run_modifyPort {port : k.Port} {f : k.Port → Except ApiError k.Port}
    {step : k.Port → InPlace Unit} {cloud : Cloud}
    (hstep : ∀ current, (step current).run cloud =
      match f current with
      | .ok new => (writePort k port new).run cloud
      | .error e => .error e cloud) :
    (portOf k port >>= step).run cloud =
      cloud.conclude ((cloud.inventory.modifyPort k port f).map ((), ·)) := by
  simp only [portOf, EStateM.run_bind, run_portsOf, Table.ports, Inventory.modifyPort,
    Table.modify]
  cases held : (cloud.inventory.table k).get? port.name with
  | none => rfl
  | some ports =>
      simp only [bind, Except.bind]
      cases ports.find? (·.same port) with
      | none => rfl
      | some current =>
          simp only [EStateM.run_pure, hstep]
          cases f current with
          | error e => rfl
          | ok new =>
              simp only [writePort, run_write, NameMap.alter, held]
              rfl

theorem run_deregisterBackends (port : k.Port) (backends : List Backend) (cloud : Cloud) :
    (deregisterBackends k port backends).run cloud =
      cloud.conclude ((cloud.inventory.modifyPort k port fun p =>
        (removeBackends p.backends backends).map fun left => { p with backends := left }).map
          ((), ·)) := by
  refine run_modifyPort fun current => ?_
  unfold removeBackends
  cases backends.find? fun b => !current.backends.any (·.same b) <;> rfl

/-- Where there is no such port, leaving it out did nothing. -/
theorem run_deletePort (port : k.Port) (cloud : Cloud) :
    (deletePort k port).run cloud =
      cloud.conclude (((cloud.inventory.table k).remove k.notFound port).map
        fun t => ((), cloud.inventory.withTable k t)) := by
  simp only [deletePort, writePorts, EStateM.run_bind, run_portsOf, Table.ports, Table.remove]
  cases held : (cloud.inventory.table k).get? port.name with
  | none => rfl
  | some ports =>
      simp only [bind, Except.bind, run_write]
      by_cases absent : (ports.filter (!·.same port)).length = ports.length
      · have unchanged : ports.filter (!·.same port) = ports :=
          List.length_filter_eq_length_iff.1 absent |> List.filter_eq_self.2
        simp only [if_true, EStateM.run_throw, unchanged, NameMap.insert_get? held,
          Inventory.withTable_table]
        rfl
      · by_cases last : (ports.filter (!·.same port)).isEmpty
        · simp only [absent, last, if_false, if_true, run_write, Inventory.table_withTable,
            Inventory.withTable_withTable, NameMap.erase_insert]
          rfl
        · simp only [absent, last, if_false]
          rfl

theorem run_authorize (name : String) (rule : Rule) (cloud : Cloud) :
    (authorize name rule).run cloud =
      cloud.conclude ((cloud.inventory.authorize name rule).map ((), ·)) := by
  simp only [authorize, Inventory.authorize, writeGroup, EStateM.run_bind, run_inventory, run_write]
  by_cases granted : ((cloud.inventory.groups.get? name).getD {}).rules.contains rule
  · have held : cloud.inventory.groups.get? name =
        some ((cloud.inventory.groups.get? name).getD {}) := by
      cases hgroup : cloud.inventory.groups.get? name with
      | none => simp [hgroup] at granted
      | some group => rfl
    simp only [granted, if_true, EStateM.run_throw, NameMap.insert_get? held]
    rfl
  · simp only [granted, Bool.false_eq_true, if_false, run_write, NameMap.insert_insert]
    rfl

theorem run_revoke (name : String) (rule : Rule) (cloud : Cloud) :
    (revoke name rule).run cloud =
      cloud.conclude ((cloud.inventory.revoke name rule).map ((), ·)) := by
  simp only [revoke, Inventory.revoke, writeGroup, EStateM.run_bind, run_inventory]
  cases held : cloud.inventory.groups.get? name with
  | none => rfl
  | some group =>
      simp only [EStateM.run_bind, run_write]
      by_cases absent : (group.rules.filter (· != rule)).length = group.rules.length
      · have unchanged : group.rules.filter (· != rule) = group.rules :=
          List.length_filter_eq_length_iff.1 absent |> List.filter_eq_self.2
        simp only [if_true, EStateM.run_throw, unchanged, NameMap.insert_get? held]
        rfl
      · simp only [absent, if_false]
        rfl

/-- What a call does in place is what it comes to in the inventory: one that is refused has
written nothing that was not there. -/
theorem run_carryOut (c : Call) (cloud : Cloud) :
    (carryOut c).run cloud = cloud.conclude (cloud.inventory.apply c) := by
  cases c with
  | describe k name =>
      simp only [carryOut, Inventory.apply, EStateM.run_bind, run_inventory]
      cases (cloud.inventory.table k).get? name <;> rfl
  | create k port => exact run_create port cloud
  | registerPort k port => exact run_registerPort port cloud
  | update k port => exact run_modifyPort fun current => rfl
  | deletePort k port => exact run_deletePort port cloud
  | configureHealthCheck k port => exact run_modifyPort fun current => rfl
  | registerBackends k port backends => exact run_modifyPort fun current => rfl
  | deregisterBackends k port backends => exact run_deregisterBackends port backends cloud
  | setFilter k port changes => exact run_modifyPort fun current => rfl
  | groupsOf instanceIds => rfl
  | authorize group rule => exact run_authorize group rule cloud
  | revoke group rule => exact run_revoke group rule cloud
  | awaitApplied group => rfl

theorem run_enter (c : Call) (cloud : Cloud) :
    (enter c).run cloud =
      match cloud.failures.lookup c.operation with
      | some e => .error e { cloud with
          calls := cloud.calls ++ [c]
          failures := cloud.failures.filter (·.1 ≠ c.operation) }
      | none => .ok () { cloud with calls := cloud.calls ++ [c] } := by
  simp only [enter, EStateM.run_bind, EStateM.run_modify, EStateM.run_get]
  cases waiting : cloud.failures.lookup c.operation with
  | some e => rfl
  | none =>
      have others : cloud.failures.filter (·.1 ≠ c.operation) = cloud.failures := by
        refine List.filter_eq_self.2 fun failure hfailure => ?_
        have other := List.lookup_eq_none_iff.1 waiting failure hfailure
        exact decide_eq_true fun own => by simp [own] at other
      rw [others]
      rfl

/-- The calls of the cloud do in single writes what they do at once. -/
theorem run_call (c : Call) (cloud : Cloud) :
    (call c).run cloud =
      match cloud.perform c with
      | (.ok answer, after) => .ok answer after
      | (.error e, after) => .error e after := by
  simp only [call, EStateM.run_bind, run_enter, Cloud.perform]
  cases cloud.failures.lookup c.operation with
  | some e => rfl
  | none =>
      show (carryOut c).run { cloud with calls := cloud.calls ++ [c] } = _
      rw [run_carryOut]
      cases cloud.inventory.apply c <;> rfl

end InPlace

namespace Cloud

variable {cloud after : Cloud} {c : Call} {e : ApiError}

/-- A call that is refused is logged and leaves the balancers, the security groups and the address
pools as they were, though it may have written to them until then. It was refused by the failure
that waited for it, which is used up, or else by the cloud's own rules, and then all failures still
wait. -/
theorem refused_call_leaves_holdings (refused : cloud.perform c = (.error e, after)) :
    (InPlace.call c).run cloud = .error e after ∧
      after.inventory = cloud.inventory ∧ after.calls = cloud.calls ++ [c] ∧
      (cloud.failures.lookup c.operation = some e ∧
          after.failures = cloud.failures.filter (·.1 ≠ c.operation) ∨
        cloud.failures.lookup c.operation = none ∧ cloud.inventory.apply c = .error e ∧
          after.failures = cloud.failures) := by
  refine ⟨by rw [InPlace.run_call, refused], ?_⟩
  cases waiting : cloud.failures.lookup c.operation with
  | some failure =>
      simp only [perform, waiting] at refused
      cases refused
      exact ⟨rfl, rfl, .inl ⟨rfl, rfl⟩⟩
  | none =>
      simp only [perform, waiting] at refused
      cases happly : cloud.inventory.apply c with
      | ok result => simp [happly] at refused
      | error own =>
          simp only [happly] at refused
          cases refused
          exact ⟨rfl, rfl, .inr ⟨rfl, rfl, rfl⟩⟩

end Cloud

namespace Sample

/-- A port written down twice, with one backend. -/
def doubledPort : ElasticPort where
  name := "web"
  settings := {}
  pair := ⟨80, 30080⟩
  healthCheck := {}
  backends := [{ instanceId := "i-1" }]
  filters := ["10.0.0.0/8", "10.0.0.0/8"]
  vip := "203.0.113.7"
  attachment := {}

def doubledCloud : Cloud :=
  .ofSnapshot { elastic := [doubledPort, { doubledPort with vip := "" }] }

end Sample

theorem Cloud.doubled_refuses_deregistration :
    let c : Call := .deregisterBackends .elastic Sample.doubledPort
      [{ instanceId := "i-1" }, { instanceId := "i-2" }]
    let e : ApiError := ⟨.instanceNotFound, "instance i-2 not found"⟩
    Sample.doubledCloud.perform c = (.error e, { Sample.doubledCloud with calls := [c] }) ∧
      (InPlace.call c).run Sample.doubledCloud =
        .error e { Sample.doubledCloud with calls := [c] } :=
  ⟨rfl, (refused_call_leaves_holdings rfl).1⟩

end CloudBalancer
