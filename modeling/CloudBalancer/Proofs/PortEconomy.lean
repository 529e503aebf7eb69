import CloudBalancer.Proofs.Economy

/-!
The steps that reconciliations of both kinds share waste no call: a difference between what is
desired of a port and what was described of it is still one when its call is made. So it is for
the ports of a balancer, one after the other, if each of them is still as it was described when
its turn comes.
-/

namespace CloudBalancer

variable {k : Kind}

theorem addBackends_ne {target current : List Backend}
    (joins : backendDifferences target current ≠ []) :
    addBackends current (backendDifferences target current) ≠ current := by
  obtain ⟨b, hb⟩ := List.exists_mem_of_ne_nil _ joins
  obtain ⟨r, hr, same⟩ := exists_same_addBackends current hb
  intro unchanged
  rw [unchanged] at hr
  have other := (mem_backendDifferences.1 hb).2 r hr
  rw [Backend.same_comm, same] at other
  cases other

theorem removeBackends_ne {current leaving left : List Backend}
    (removed : removeBackends current leaving = .ok left) (some_leaves : leaving ≠ [])
    (held : leaving ⊆ current) : left ≠ current := by
  obtain ⟨r, hr⟩ := List.exists_mem_of_ne_nil _ some_leaves
  rintro rfl
  have gone := ((mem_removeBackends removed).1 (held hr)).2 r hr
  simp at gone

theorem applyChanges_ne {desired current : List String}
    (differ : filterChanges desired current ≠ []) :
    applyChanges current (filterChanges desired current) ≠ current := by
  intro unchanged
  have settled := filterChanges_synced desired current
  rw [syncedFilters, unchanged] at settled
  exact differ settled

namespace Inventory

theorem differs_withPorts (base base' : Inventory) (name : String) {ports ports' : List k.Port}
    (changed : ports' ≠ ports) :
    (base.withPorts k name ports).Differs (base'.withPorts k name ports') :=
  ⟨k, name, by simpa using changed⟩

/-- A call that changes one port. -/
theorem gains_modify {base : Inventory} {name : String} {before after : List k.Port}
    {p new : k.Port} {c : Call} {answer : c.Answer}
    (applied : (base.withPorts k name (before ++ p :: after)).apply c =
      .ok (answer, base.withPorts k name (before ++ new :: after))) (changed : new ≠ p) :
    (base.withPorts k name (before ++ p :: after)).Gains c :=
  ⟨answer, _, applied, differs_withPorts base base name (by simpa using changed)⟩

end Inventory

namespace Reconcile

open Inventory

section Steps

variable {base : Inventory} {name : String} {d p first : k.Port} {before after ports : List k.Port}

theorem thrifty_describe (k : Kind) (name : String) (inv : Inventory) :
    (describe k name).Thrifty inv :=
  have spares : groundwork.allowed (.describe k name) := rfl
  .of_within (within_describe spares) inv

theorem thrifty_describeExisting (k : Kind) (name : String) (inv : Inventory) :
    (describeExisting k name).Thrifty inv :=
  have spares : groundwork.allowed (.describe k name) := rfl
  .of_within (within_describeExisting spares) inv

theorem thrifty_createPort (named : p.name = name) :
    (createPort name p).Thrifty (base.withPorts k name []) := by
  have created : (base.withPorts k name []).apply (.create k p) = _ := create_withPorts named
  have gains : (base.withPorts k name []).Gains (.create k p) :=
    ⟨_, _, created, differs_withPorts base _ name (by simp)⟩
  exact (Job.Thrifty.remote _ gains).logged

theorem thrifty_registerPort (named : p.name = name)
    (new : ∀ q ∈ first :: after, q.same p = false) :
    (registerPort name p).Thrifty (base.withPorts k name (first :: after)) := by
  have registered : (base.withPorts k name (first :: after)).apply (.registerPort k p) =
      .ok ((), base.withPorts k name (first :: after ++ [furtherPort first p])) := by
    rw [apply, registerPort_withPorts named new]
    rfl
  have gains : (base.withPorts k name (first :: after)).Gains (.registerPort k p) :=
    ⟨_, _, registered, differs_withPorts base base name (by simp)⟩
  exact (Job.Thrifty.remote _ gains).logged

theorem thrifty_deletePort (named : p.name = name) (taken : ∃ q ∈ ports, q.same p = true) :
    (deletePort name p).Thrifty (base.withPorts k name ports) := by
  have deleted : (base.withPorts k name ports).apply (.deletePort k p) =
      .ok ((), base.withPorts k name (ports.filter (!·.same p))) := removePort_withPorts named taken
  have fewer : ports.filter (!·.same p) ≠ ports := by
    obtain ⟨q, hq, same⟩ := taken
    intro unchanged
    rw [← unchanged] at hq
    simp [same] at hq
  have gains : (base.withPorts k name ports).Gains (.deletePort k p) :=
    ⟨_, _, deleted, differs_withPorts base base name fewer⟩
  exact (Job.Thrifty.remote _ gains).logged

theorem thrifty_updateSettings (named : d.name = name) (selects : Selects d before p) :
    (updateSettings d p).Thrifty (base.withPorts k name (before ++ p :: after)) := by
  unfold updateSettings
  split
  · trivial
  · next differ =>
    have gains : (base.withPorts k name (before ++ p :: after)).Gains (.update k d) :=
      gains_modify (modifyPort_withPorts named selects rfl) fun same =>
        differ (by simpa using congrArg Port.settings same)
    exact .remote _ gains

theorem thrifty_configureHealthCheck (named : d.name = name) (selects : Selects d before p)
    (differ : d.healthCheck ≠ p.healthCheck) :
    (configureHealthCheck d).Thrifty (base.withPorts k name (before ++ p :: after)) := by
  have gains : (base.withPorts k name (before ++ p :: after)).Gains (.configureHealthCheck k d) :=
    gains_modify (modifyPort_withPorts named selects rfl)
      fun same => differ (by simpa using congrArg Port.healthCheck same)
  exact (Job.Thrifty.remote _ gains).logged

theorem thrifty_registerBackends (named : d.name = name) (selects : Selects d before p)
    {backends : List Backend} (joins : addBackends p.backends backends ≠ p.backends) :
    (registerBackends d backends).Thrifty (base.withPorts k name (before ++ p :: after)) := by
  have gains : (base.withPorts k name (before ++ p :: after)).Gains
      (.registerBackends k d backends) :=
    gains_modify (modifyPort_withPorts named selects rfl)
      fun same => joins (congrArg Port.backends same)
  exact (Job.Thrifty.remote _ gains).logged

theorem gains_deregisterBackends (base : Inventory) (after : List k.Port) (named : d.name = name)
    (selects : Selects d before p) {backends left : List Backend}
    (removed : removeBackends p.backends backends = .ok left) (leaves : left ≠ p.backends) :
    (base.withPorts k name (before ++ p :: after)).Gains (.deregisterBackends k d backends) :=
  gains_modify (apply_deregisterBackends named selects removed)
    fun same => leaves (congrArg Port.backends same)

theorem thrifty_setFilter (named : d.name = name) (selects : Selects d before p)
    {current : List String} (held : p.filters = current) :
    (setFilter d current).Thrifty (base.withPorts k name (before ++ p :: after)) := by
  subst held
  unfold setFilter
  dsimp only
  split
  · trivial
  · next differ =>
    have gains : (base.withPorts k name (before ++ p :: after)).Gains
        (.setFilter k d (filterChanges d.filters p.filters)) :=
      gains_modify (modifyPort_withPorts named selects rfl) fun same =>
        applyChanges_ne (fun none => differ (List.isEmpty_iff.2 none))
          (congrArg Port.filters same)
    exact (Job.Thrifty.remote _ gains).logged

end Steps

section Loops

variable {base : Inventory} {name : String} {first : k.Port}
  {after missing ports stale desired current : List k.Port}

/-- Adding ports wastes nothing where all of them can be added. -/
theorem Adds.thrifty_forEach {step : k.Port → Job Unit} {fin : k.Port → k.Port}
    (adds : Adds k base name first step fin) (named : ∀ p ∈ missing, p.name = name)
    (thrifty : ∀ p ∈ missing, ∀ after, (∀ q ∈ first :: after, q.same p = false) →
      (step p).Thrifty (base.withPorts k name (first :: after)))
    (apart : Apart (first :: after ++ missing)) :
    (Job.forEach missing step).Thrifty (base.withPorts k name (first :: after)) := by
  let Reached (done rest : List k.Port) (inv : Inventory) : Prop :=
    missing = done ++ rest ∧ inv = base.withPorts k name (first :: after ++ done.map fin)
  have start : Reached [] missing (base.withPorts k name (first :: after)) := ⟨rfl, by simp⟩
  refine .forEach Reached ?_ start
  rintro done p rest _ ⟨rfl, rfl⟩
  have new : ∀ q ∈ first :: (after ++ done.map fin), q.same p = false := by
    rw [← List.append_assoc] at apart
    have across := (List.pairwise_append.1 apart).2.2
    have apartFrom (q : k.Port) (hq : q ∈ first :: after ++ done) : q.same p = false :=
      across q hq p List.mem_cons_self
    simpa [or_imp, forall_and, adds.same] using apartFrom
  exact ⟨thrifty p (by simp) _ new, _, adds.new (named p (by simp)) new, by simp, by simp⟩

theorem thrifty_registerMissing (base : Inventory) (first : k.Port)
    (named : ∀ p ∈ missing, p.name = name) (checked : ∀ p ∈ missing, p.healthCheck ≠ {})
    (apart : Apart (first :: after ++ missing)) :
    (Job.forEach missing fun p => do
        registerPort name p
        configureHealthCheck p).Thrifty (base.withPorts k name (first :: after)) := by
  refine (adds_freshPort base name first).thrifty_forEach named (fun p hp after new => ?_) apart
  have selects : Selects p (first :: after) (furtherPort first p) := ⟨new, p.same_refl⟩
  exact (thrifty_registerPort (named p hp) new).bind_ok (effect_registerPort (named p hp) new)
    (thrifty_configureHealthCheck (named p hp) selects (checked p hp))

/-- The step deletes the port without waste, whichever other ports are there. -/
def Sheds (name : String) (delete : k.Port → Job Unit) (s : k.Port) : Prop :=
  ∀ (base : Inventory) {ports : List k.Port}, Apart ports → s ∈ ports →
    (delete s).Thrifty (base.withPorts k name ports) ∧
      ∃ base' : Inventory, (delete s).effect (base.withPorts k name ports) =
        (.ok (), base'.withPorts k name (ports.filter (!·.same s)))

theorem thrifty_deleteAll {delete : k.Port → Job Unit} (base : Inventory) (apart : Apart ports)
    (staleApart : Apart stale) (held : stale ⊆ ports)
    (sheds : ∀ s ∈ stale, Sheds name delete s) :
    (Job.forEach stale delete).Thrifty (base.withPorts k name ports) := by
  -- A stale port is still there when its turn comes, as no other port is the same.
  let Reached (done rest : List k.Port) (inv : Inventory) : Prop :=
    stale = done ++ rest ∧ ∃ base' : Inventory,
      inv = base'.withPorts k name (ports.filter fun p => !done.any (p.same ·))
  have start : Reached [] stale (base.withPorts k name ports) :=
    ⟨rfl, base, congrArg _ (List.filter_eq_self.2 fun _ _ => rfl).symm⟩
  refine .forEach Reached ?_ start
  rintro done s rest _ ⟨rfl, base₁, rfl⟩
  have left : s ∈ ports.filter fun p => !done.any (p.same ·) :=
    mem_left staleApart (held (by simp))
  obtain ⟨thrifty, base₂, heffect⟩ := sheds s (by simp) base₁ (apart.filter _) left
  exact ⟨thrifty, _, heffect, by simp, base₂, by rw [filter_more]⟩

/-- Missing ports come before stale ones go. -/
theorem thrifty_syncPorts {delete : k.Port → Job Unit} (base : Inventory)
    (named : ∀ d ∈ desired, d.name = name) (apart : Apart desired)
    (checked : ∀ d ∈ desired, d.healthCheck ≠ {}) (currentApart : Apart (first :: after))
    (sheds : ∀ s ∈ first :: after, Sheds name delete s) :
    (do Job.forEach (portDifferences desired (first :: after)) fun p => do
          registerPort name p
          configureHealthCheck p
        Job.forEach (portDifferences (first :: after) desired) delete
        describeExisting k name).Thrifty (base.withPorts k name (first :: after)) := by
  have missingNamed : ∀ p ∈ portDifferences desired (first :: after), p.name = name :=
    fun p hp => named p (mem_portDifferences.1 hp).1
  have missingChecked : ∀ p ∈ portDifferences desired (first :: after), p.healthCheck ≠ {} :=
    fun p hp => checked p (mem_portDifferences.1 hp).1
  have missingApart := apart_append_missing currentApart apart
  have staleHeld : portDifferences (first :: after) desired ⊆ first :: after ++
      (portDifferences desired (first :: after)).map (freshPort first) :=
    fun p hp => List.mem_append_left _ (mem_portDifferences.1 hp).1
  refine (thrifty_registerMissing base first missingNamed missingChecked missingApart).bind_ok
    ((adds_freshPort base name first).effect_all missingNamed missingApart) ?_
  refine (thrifty_deleteAll base (apart_grown first missingApart)
    (apart_portDifferences currentApart desired) staleHeld
    fun s hs => sheds s (mem_portDifferences.1 hs).1).bind fun _ inv _ => ?_
  exact thrifty_describeExisting k name inv

/-- Ports are brought to what is desired of them without waste if each of them is. -/
theorem thrifty_syncAll {step : k.Port → k.Port → Job Unit} (base : Inventory)
    (unambiguous : Unambiguous desired) (covers : Covers name desired current)
    (hstep : ∀ (base : Inventory) (before after : List k.Port) {d p : k.Port}, d ∈ desired →
      p ∈ current → Selects d before p →
        (step d p).Thrifty (base.withPorts k name (before ++ p :: after)) ∧
          ∃ base' : Inventory, (step d p).effect (base.withPorts k name (before ++ p :: after)) =
            (.ok (), base'.withPorts k name (before ++ d.synced p :: after))) :
    (Job.forEach current fun p => do step (← Job.ofExcept (desiredFor desired p)) p).Thrifty
      (base.withPorts k name current) := by
  let Reached (done rest : List k.Port) (inv : Inventory) : Prop :=
    current = done ++ rest ∧ ∃ base' : Inventory,
      inv = base'.withPorts k name (done.map (Port.syncedBy desired) ++ rest)
  have start : Reached [] current (base.withPorts k name current) := ⟨rfl, base, rfl⟩
  refine .forEach Reached ?_ start
  rintro done p rest _ ⟨rfl, base₁, rfl⟩
  obtain ⟨d, hd, hsame⟩ := covers.sound p (by simp)
  obtain ⟨thrifty, base₂, heffect⟩ :=
    hstep base₁ _ rest hd (by simp) (covers.selects hsame)
  have wanted : Job.ofExcept (desiredFor desired p) = pure d := by
    rw [desiredFor_eq unambiguous hd hsame]
    rfl
  rw [wanted, pure_bind]
  refine ⟨thrifty, _, heffect, by simp, base₂, ?_⟩
  simp [Port.syncedBy_eq unambiguous hd hsame]

end Loops

end Reconcile

end CloudBalancer
