import CloudBalancer.Proofs.PortLists

/-!
Synchronising the backends of a port that may hold anything. What joins is like nothing that is
registered, so it is never taken along by what leaves. What is registered may be: identity is not
transitive, so a backend that leaves may be the same as one that stays for a desired one. Main
statement: everything that is left is desired, and nothing desired is lost exactly if no such
backend is the only one that stands for it.
-/

namespace CloudBalancer

variable {desired current new : List Backend} {b r : Backend}

theorem addBackends_append (apart : ∀ b ∈ desired, ∀ r ∈ current, b.same r = false) :
    addBackends (current ++ new) desired = current ++ addBackends new desired := by
  induction desired generalizing new with
  | nil => rfl
  | cons b rest ih =>
      have unlike : ∀ r ∈ current, r.same b = false := by
        intro r hr
        rw [Backend.same_comm]
        exact apart b List.mem_cons_self r hr
      have first : addBackend (current ++ new) b = current ++ addBackend new b := by
        have there : (current ++ new).any (·.same b) = new.any (·.same b) := by
          rw [List.any_append, List.any_eq_false.2 (by simpa using unlike), Bool.false_or]
        rw [addBackend, addBackend, there]
        split
        · rfl
        · rw [List.append_assoc]
      rw [addBackends_cons, addBackends_cons, first]
      exact ih fun c hc => apart c (List.mem_cons_of_mem b hc)

/-- What is desired and joins, of backends that are the same only the first. -/
def joinedBackends (desired current : List Backend) : List Backend :=
  addBackends [] (backendDifferences desired current)

theorem addBackends_joining (desired current : List Backend) :
    addBackends current (backendDifferences desired current) =
      current ++ joinedBackends desired current := by
  have apart : ∀ b ∈ backendDifferences desired current, ∀ r ∈ current, b.same r = false :=
    fun b hb => (mem_backendDifferences.1 hb).2
  have grown : addBackends (current ++ []) (backendDifferences desired current) =
      current ++ joinedBackends desired current := addBackends_append apart
  rwa [List.append_nil] at grown

theorem joinedBackends_subset {joins : Backend} (h : joins ∈ joinedBackends desired current) :
    joins ∈ backendDifferences desired current := by
  cases mem_addBackends h with
  | inl none => cases none
  | inr joining => exact joining

/-- What is left is what joined and what nothing that leaves is the same as. -/
theorem mem_syncedBackends_iff :
    r ∈ syncedBackends desired current ↔
      (r ∈ current ∧ ∀ gone ∈ backendDifferences current desired, gone.same r = false) ∨
        r ∈ joinedBackends desired current := by
  rw [mem_syncedBackends, addBackends_joining, List.mem_append]
  constructor
  · intro ⟨held, stays⟩
    exact held.imp (fun registered => ⟨registered, stays⟩) id
  · intro held
    cases held with
    | inl stays => exact ⟨.inl stays.1, stays.2⟩
    | inr joined =>
        refine ⟨.inr joined, fun gone hgone => ?_⟩
        rw [Backend.same_comm]
        have joining := mem_backendDifferences.1 (joinedBackends_subset joined)
        exact joining.2 gone (mem_backendDifferences.1 hgone).1

/-- Each desired backend that something registered is the same as keeps something that is: what is
registered and not the same as any that leaves, or what joins. -/
def Undisplaced (desired current : List Backend) : Prop :=
  ∀ b ∈ desired, (∃ r ∈ current, b.same r = true) →
    (∃ r ∈ current, b.same r = true ∧
      ∀ gone ∈ backendDifferences current desired, gone.same r = false) ∨
    ∃ joined ∈ joinedBackends desired current, b.same joined = true

instance (desired current : List Backend) : Decidable (Undisplaced desired current) :=
  inferInstanceAs (Decidable (∀ b ∈ desired, _))

theorem exists_same_joined (hb : b ∈ backendDifferences desired current) :
    ∃ joined ∈ joinedBackends desired current, b.same joined = true := by
  obtain ⟨joined, hjoined, same⟩ := exists_same_addBackends [] hb
  exact ⟨joined, hjoined, by rwa [Backend.same_comm]⟩

theorem exists_same_synced_iff :
    (∀ b ∈ desired, ∃ r ∈ syncedBackends desired current, b.same r = true) ↔
      Undisplaced desired current := by
  constructor
  · intro kept b hb _
    obtain ⟨r, hr, same⟩ := kept b hb
    cases mem_syncedBackends_iff.1 hr with
    | inl stays => exact .inl ⟨r, stays.1, same, stays.2⟩
    | inr joined => exact .inr ⟨r, joined, same⟩
  · intro undisplaced b hb
    by_cases registered : ∃ r ∈ current, b.same r = true
    · cases undisplaced b hb registered with
      | inl stays =>
          obtain ⟨r, hr, same, spared⟩ := stays
          exact ⟨r, mem_syncedBackends_iff.2 (.inl ⟨hr, spared⟩), same⟩
      | inr joins =>
          obtain ⟨joined, hjoined, same⟩ := joins
          exact ⟨joined, mem_syncedBackends_iff.2 (.inr hjoined), same⟩
    · have joining : b ∈ backendDifferences desired current :=
        mem_backendDifferences.2 ⟨hb, by simpa using registered⟩
      obtain ⟨joined, hjoined, same⟩ := exists_same_joined joining
      exact ⟨joined, mem_syncedBackends_iff.2 (.inr hjoined), same⟩

namespace Inventory

variable {inv : Inventory} {k : Kind} {d p : k.Port} {before after : List k.Port}

/-- Registering the backends of a port that are desired and missing and deregistering those that
are not desired succeeds and leaves desired ones only, whatever the port holds. All desired ones are
there in the end exactly if none of them is displaced. -/
theorem synchronised_backends_iff (held : inv.ports k d.name = before ++ p :: after)
    (selects : Selects d before p) (desired : List Backend) :
    ∃ joined synced left,
      inv.apply (.registerBackends k d (backendDifferences desired p.backends)) =
        .ok ((), joined) ∧
      joined.apply (.deregisterBackends k d (backendDifferences p.backends desired)) =
        .ok ((), synced) ∧
      synced.ports k d.name = before ++ { p with backends := left } :: after ∧
      (∀ r ∈ left, ∃ b ∈ desired, r.same b = true) ∧
      ((∀ b ∈ desired, ∃ r ∈ left, b.same r = true) ↔ Undisplaced desired p.backends) := by
  let grown : k.Port :=
    { p with backends := addBackends p.backends (backendDifferences desired p.backends) }
  have some_port : (inv.table k).get? d.name ≠ some [] := by
    intro empty
    simp [Inventory.ports, empty] at held
  have placed : inv.withPorts k d.name (before ++ p :: after) = inv := by
    rw [← held, withPorts_ports some_port]
  have registered : (inv.withPorts k d.name (before ++ p :: after)).apply
      (.registerBackends k d (backendDifferences desired p.backends)) =
        .ok ((), inv.withPorts k d.name (before ++ grown :: after)) :=
    Reconcile.apply_registerBackends rfl selects _
  have deregistered : (inv.withPorts k d.name (before ++ grown :: after)).apply
      (.deregisterBackends k d (backendDifferences p.backends desired)) =
        .ok ((), inv.withPorts k d.name
          (before ++ { p with backends := syncedBackends desired p.backends } :: after)) :=
    Reconcile.apply_deregisterBackends rfl (selects.other (q := grown) p.same_refl)
      (removeBackends_leaving desired p.backends)
  rw [placed] at registered
  exact ⟨_, _, syncedBackends desired p.backends, registered, deregistered, ports_withPorts ..,
    fun r hr => exists_same_desired hr, exists_same_synced_iff⟩

end Inventory

namespace Sample

/-- A port on which an instance is registered twice, once with a unique id. -/
def migratingPort : L4Port where
  name := "web"
  settings := {}
  pair := ⟨80, 30080⟩
  healthCheck := {}
  backends := [{ instanceId := "i-1", uniqueId := "u-1" }, { instanceId := "i-1" }]
  filters := []
  vip := "203.0.113.1"
  attachment := ()

def migratingInventory : Inventory := .ofSnapshot { l4 := [migratingPort] }

/-- The instance under a new unique id. -/
def reissued : Backend := { instanceId := "i-1", uniqueId := "u-2" }

end Sample

/-- What leaves takes along the registration that stood for a desired backend, but another instance
with the unique id of that backend joins. -/
theorem displaced_backend_replaced :
    let p := Sample.migratingPort
    let desired : List Backend := [Sample.reissued, { instanceId := "i-2", uniqueId := "u-2" }]
    Sample.migratingInventory.ports .l4 p.name = [] ++ p :: [] ∧ Selects p [] p ∧
      Undisplaced desired p.backends ∧
      ∃ joined synced left,
        Sample.migratingInventory.apply
          (.registerBackends .l4 p (backendDifferences desired p.backends)) = .ok ((), joined) ∧
        joined.apply (.deregisterBackends .l4 p (backendDifferences p.backends desired)) =
          .ok ((), synced) ∧
        synced.ports .l4 p.name = [{ p with backends := left }] ∧
        (∀ r ∈ left, ∃ b ∈ desired, r.same b = true) ∧
        ∀ b ∈ desired, ∃ r ∈ left, b.same r = true := by
  intro p desired
  have held : Sample.migratingInventory.ports .l4 p.name = [] ++ p :: [] := rfl
  have selects : Selects p [] p := ⟨by simp, rfl⟩
  have undisplaced : Undisplaced desired p.backends := by decide
  obtain ⟨joined, synced, left, registered, deregistered, ports, wanted, kept⟩ :=
    Inventory.synchronised_backends_iff (k := .l4) held selects desired
  exact ⟨held, selects, undisplaced, joined, synced, left, registered, deregistered, ports, wanted,
    kept.2 undisplaced⟩

/-- The registration under the former unique id leaves and takes along the one without, which stood
for the desired backend: no backend is left. -/
theorem wanted_backend_displaced :
    let p := Sample.migratingPort
    let desired := [Sample.reissued]
    ∃ joined synced,
      Sample.migratingInventory.apply
        (.registerBackends .l4 p (backendDifferences desired p.backends)) = .ok ((), joined) ∧
      joined.apply (.deregisterBackends .l4 p (backendDifferences p.backends desired)) =
        .ok ((), synced) ∧
      synced.ports .l4 p.name = [{ p with backends := [] }] :=
  ⟨_, _, rfl, rfl, rfl⟩

end CloudBalancer
