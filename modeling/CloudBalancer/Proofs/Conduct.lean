import CloudBalancer.Proofs.Contracts
import CloudBalancer.Proofs.PortLists
import CloudBalancer.Reconcile.L4

/-!
Which calls a reconciliation makes about ports, in terms of what is desired and of what it was told.
A contract that lets these calls be made has the reconciliation within it; what it keeps of a cloud
then holds at every moment, wherever calls fail.
-/

namespace CloudBalancer

variable {k : Kind}

namespace Contract

/-- The port may be relied on, as one of a description. -/
def Shows (contract : Contract) (k : Kind) (name : String) (p : k.Port) : Prop :=
  ∃ ports, contract.told (.describe k name) ports ∧ p ∈ ports

variable (contract : Contract) (name : String) (desired : List k.Port)

/-- The described port `p` is to be as the desired port `d` says. -/
structure Pairs (d p : k.Port) : Prop where
  shown : contract.Shows k name p
  wanted : d ∈ desired
  same : d.same p = true

/-- The described port `p` is not desired. -/
structure Discards (p : k.Port) : Prop where
  shown : contract.Shows k name p
  unwanted : ∀ d ∈ desired, p.same d = false

/-- What is asked for wherever there are new ports. -/
structure LetsBuild : Prop where
  describe : contract.allowed (.describe k name)
  register : ∀ d ∈ desired, contract.allowed (.registerPort k d)
  check : ∀ d ∈ desired, contract.allowed (.configureHealthCheck k d)
  filter : ∀ d ∈ desired, ∀ changes, contract.allowed (.setFilter k d changes)

/-- What is asked for to create a balancer. -/
structure LetsFound : Prop extends LetsBuild contract name desired where
  create : ∀ d ∈ desired, contract.allowed (.create k d)
  fill : ∀ d ∈ desired, ∀ view, d.same view = true →
    contract.allowed (.registerBackends k view d.backends)

/-- What is asked for to bring a balancer up to date. -/
structure LetsAdjust : Prop extends LetsBuild contract name desired where
  update : ∀ d ∈ desired, contract.allowed (.update k d)
  join : ∀ d p, contract.Pairs name desired d p → backendDifferences d.backends p.backends ≠ [] →
    ∀ view, view.same p = true →
      contract.allowed (.registerBackends k view (backendDifferences d.backends p.backends))
  leave : ∀ d p, contract.Pairs name desired d p → backendDifferences p.backends d.backends ≠ [] →
    ∀ view, view.same p = true →
      contract.allowed (.deregisterBackends k view (backendDifferences p.backends d.backends))
  clear : ∀ p, contract.Discards name desired p → p.backends ≠ [] →
    contract.allowed (.deregisterBackends k p p.backends)
  drop : ∀ p, contract.Discards name desired p → contract.allowed (.deletePort k p)

/-- What is asked for to delete a balancer. -/
structure LetsDelete (k : Kind) : Prop where
  describe : contract.allowed (.describe k name)
  clear : ∀ p, contract.Shows k name p → contract.allowed (.deregisterBackends k p p.backends)
  drop : ∀ p, contract.Shows k name p → contract.allowed (.deletePort k p)

end Contract

namespace Reconcile

variable {contract : Contract} {name : String} {desired current : List k.Port} {d p : k.Port}

theorem desiredFor_eq_ok {α : Type} {desired : List (Port α)} {d p : Port α}
    (h : desiredFor desired p = .ok d) : d ∈ desired ∧ d.same p = true := by
  unfold desiredFor at h
  split at h
  · next found =>
    cases h
    exact ⟨List.mem_of_find?_eq_some found, by simpa using List.find?_some found⟩
  · cases h

section Steps

theorem within_describe (allowed : contract.allowed (.describe k name)) :
    (describe k name).Within contract fun answer =>
      ∀ ports, answer = some ports → contract.told (.describe k name) ports := by
  have answered : (Job.remoteUnless k.notFound .api (.balancer name)
      (.describe k name)).Within contract fun answer =>
        ∀ ports, answer = some ports → contract.told (.describe k name) ports := by
    refine .remoteUnless _ _ allowed (fun ports told => ?_) ?_
    · rintro _ ⟨⟩
      exact told
    · rintro _ ⟨⟩
  refine answered.bind fun answer told => ?_
  split
  · rintro _ ⟨⟩
  · rintro _ ⟨⟩
  · exact told

theorem within_describeExisting (allowed : contract.allowed (.describe k name)) :
    (describeExisting k name).Within contract fun ports =>
      contract.told (.describe k name) ports := by
  refine (within_describe allowed).bind fun answer told => ?_
  split
  · exact told _ rfl
  · trivial

theorem within_createPort (allowed : contract.allowed (.create k p)) :
    (createPort name p).Within contract fun _ => True :=
  (Job.Within.call _ allowed).bind fun _ _ => trivial

theorem within_registerPort (allowed : contract.allowed (.registerPort k p)) :
    (registerPort name p).Within contract fun _ => True :=
  (Job.Within.call _ allowed).bind fun _ _ => trivial

theorem within_deletePort (allowed : contract.allowed (.deletePort k p)) :
    (deletePort name p).Within contract fun _ => True :=
  (Job.Within.call _ allowed).bind fun _ _ => trivial

theorem within_updateSettings (allowed : contract.allowed (.update k d)) :
    (updateSettings d p).Within contract fun _ => True := by
  unfold updateSettings
  split
  · trivial
  · exact .call _ allowed

theorem within_configureHealthCheck (allowed : contract.allowed (.configureHealthCheck k p)) :
    (configureHealthCheck p).Within contract fun _ => True :=
  (Job.Within.call _ allowed).bind fun _ _ => trivial

theorem within_registerBackends {backends : List Backend}
    (allowed : contract.allowed (.registerBackends k p backends)) :
    (registerBackends p backends).Within contract fun _ => True :=
  (Job.Within.call _ allowed).bind fun _ _ => trivial

theorem within_deregisterBackends {backends : List Backend}
    (allowed : contract.allowed (.deregisterBackends k p backends)) :
    (deregisterBackends p backends).Within contract fun _ => True :=
  (Job.Within.call _ allowed).bind fun _ _ => trivial

theorem within_setFilter (allowed : ∀ changes, contract.allowed (.setFilter k d changes))
    (filters : List String) : (setFilter d filters).Within contract fun _ => True := by
  unfold setFilter
  dsimp only
  split
  · trivial
  · exact (Job.Within.call _ (allowed _)).bind fun _ _ => trivial

/-- The missing ports are registered, and checked from then on. -/
theorem within_registerMissing (lets : contract.LetsBuild name desired) :
    (Job.forEach (portDifferences desired current) fun p => do
      registerPort name p
      configureHealthCheck p).Within contract fun _ => True := by
  refine .forEach fun p hp => ?_
  have wanted : p ∈ desired := (mem_portDifferences.1 hp).1
  exact (within_registerPort (lets.register p wanted)).bind fun _ _ =>
    within_configureHealthCheck (lets.check p wanted)

/-- A step for every described port, with what is desired of it. -/
theorem within_eachDesired {step : k.Port → k.Port → Job Unit}
    (told : contract.told (.describe k name) current)
    (steps : ∀ d p, contract.Pairs name desired d p → (step d p).Within contract fun _ => True) :
    (Job.forEach current fun p => do step (← Job.ofExcept (desiredFor desired p)) p).Within
      contract fun _ => True := by
  refine .forEach fun p hp => Job.Within.bind (.ofExcept fun d hd => ?_) fun d pairs =>
    steps d p pairs
  obtain ⟨wanted, same⟩ := desiredFor_eq_ok hd
  exact ⟨⟨current, told, hp⟩, wanted, same⟩

end Steps

/-- A failure is recorded, which asks nothing of the cloud. -/
theorem within_reporting {program : Program Status} (name : String)
    (h : program.Within contract fun _ => True) :
    (reporting name program).Within contract fun _ => True :=
  h.handle fun _ => trivial

namespace L4

variable {desired current : List L4Port} {d p : L4Port}

theorem within_configureNewPort (lets : contract.LetsFound (k := .l4) name desired)
    (wanted : d ∈ desired) : (configureNewPort d).Within contract fun _ => True := by
  refine (within_configureHealthCheck (k := .l4) (lets.check d wanted)).bind fun _ _ => ?_
  refine .optional (fun _ => ?_) (within_setFilter (k := .l4) (lets.filter d wanted) [])
  exact within_registerBackends (k := .l4) (lets.fill d wanted d d.same_refl)

theorem within_create (lets : contract.LetsFound (k := .l4) name desired) :
    (create name desired).Within contract fun _ => True := by
  cases desired with
  | nil => trivial
  | cons first rest =>
      refine (within_createPort (k := .l4) (lets.create first List.mem_cons_self)).bind
        fun _ _ => (within_configureNewPort lets List.mem_cons_self).bind fun _ _ =>
          .forEach fun p hp => ?_
      have wanted := List.mem_cons_of_mem first hp
      exact (within_registerPort (k := .l4) (lets.register p wanted)).bind fun _ _ =>
        within_configureNewPort lets wanted

theorem within_syncPorts (lets : contract.LetsAdjust (k := .l4) name desired)
    (told : contract.told (.describe .l4 name) current) :
    (syncPorts name desired current).Within contract fun ports =>
      contract.told (.describe .l4 name) ports := by
  unfold syncPorts
  dsimp only
  split
  · exact told
  · refine (within_registerMissing (k := .l4) lets.toLetsBuild).bind fun _ _ => ?_
    refine (Job.Within.forEach fun p hp => ?_).bind fun _ _ =>
      within_describeExisting (k := .l4) lets.describe
    obtain ⟨hp, unwanted⟩ := mem_portDifferences.1 hp
    exact within_deletePort (k := .l4) (lets.drop p ⟨⟨current, told, hp⟩, unwanted⟩)

theorem within_syncPort (lets : contract.LetsAdjust (k := .l4) name desired)
    (pairs : contract.Pairs (k := .l4) name desired d p) :
    (syncPort d p).Within contract fun _ => True := by
  refine (within_updateSettings (k := .l4) (lets.update d pairs.wanted)).bind fun _ _ => ?_
  refine .optional (fun _ => ?check) <| .optional (fun some_joins => ?join) <|
    .optional (fun some_leaves => ?leave) <|
      within_setFilter (k := .l4) (lets.filter d pairs.wanted) p.filters
  case check => exact within_configureHealthCheck (k := .l4) (lets.check d pairs.wanted)
  case join =>
    have allowed := lets.join d p pairs (by simpa using some_joins) p p.same_refl
    exact within_registerBackends (k := .l4) allowed
  case leave =>
    have allowed := lets.leave d p pairs (by simpa using some_leaves) p p.same_refl
    exact within_deregisterBackends (k := .l4) allowed

end L4

end Reconcile

end CloudBalancer
