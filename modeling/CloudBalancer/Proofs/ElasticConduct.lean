import CloudBalancer.Proofs.Conduct
import CloudBalancer.Proofs.ElasticSteps
import CloudBalancer.Proofs.Sources
import CloudBalancer.Reconcile.Service

/-!
Which calls a reconciliation of an elastic balancer makes. What it grants or withdraws is for groups
of the balancer's backends, and for addresses of the balancer. It withdraws a grant only where it
knows of every desired port with backends that it does not need the grant: because the port derives
no such rule, because none of its backends is in the group, or because the grant is not among those
that it was found to need. The rest is as for L4 balancers.
-/

namespace CloudBalancer

namespace Contract

open Reconcile

variable (contract : Contract)

/-- Groups may be looked up and waited for. -/
structure LetsAsk : Prop where
  groupsOf : ∀ ids, contract.allowed (.groupsOf ids)
  awaitApplied : ∀ group, contract.allowed (.awaitApplied group)

/-- Rules may be granted on any group. -/
structure LetsGrant : Prop where
  groupsOf : ∀ ids, contract.allowed (.groupsOf ids)
  authorize : ∀ group rule, contract.allowed (.authorize group rule)
  awaitApplied : ∀ group, contract.allowed (.awaitApplied group)

/-- The group may be relied on to be one of those of the backends. -/
def Finds (backends : List Backend) (group : String) : Prop :=
  ∃ answer, contract.told (.groupsOf (instanceIds backends)) answer ∧ group ∈ answer

/-- The group has backends that the described port `p` has or that are desired, and the rule lets
addresses of its balancer in. -/
structure Concerns (desired : List ElasticPort) (p : ElasticPort) (x : Grant) : Prop where
  found : ∃ backends, (∀ b ∈ backends, b ∈ p.backends ∨ ∃ d ∈ desired, b ∈ d.backends) ∧
    contract.Finds backends x.1
  source : x.2.From p.addresses

/-- The groups may be relied on to be those of the backends. -/
def Lists (backends : List Backend) (groups : List String) : Prop :=
  ∃ answer, contract.told (.groupsOf (instanceIds backends)) answer ∧
    ∀ group, group ∈ groups ↔ group ∈ answer

/-- The grants that `e` needs, wired in like `topology`, are among `retained`. -/
def Retains (topology e : ElasticPort) (retained : List Grant) : Prop :=
  e.backends ≠ [] → ∃ groups, contract.Lists e.backends groups ∧
    ∀ group ∈ groups, ∀ rule, Derives (placed e topology) rule → (group, rule) ∈ retained

/-- No desired port needs the grant, wired in like `topology`, for all that is known. -/
def Spares (desired : List ElasticPort) (topology : ElasticPort) (x : Grant) : Prop :=
  ∀ e ∈ desired, e.backends ≠ [] → Derives (placed e topology) x.2 →
    ∃ groups, contract.Lists e.backends groups ∧ x.1 ∉ groups

/-- What no desired port needs may be withdrawn, if these are told apart. -/
def LetsWithdraw (name : String) (desired : List ElasticPort) : Prop :=
  ∀ p, contract.Shows .elastic name p → ∀ x : Grant,
    (Unambiguous desired → contract.Spares desired p x) → contract.allowed (.revoke x.1 x.2)

/-- What is asked for to open groups to the balancer. -/
structure LetsOpen (name : String) (desired : List ElasticPort) : Prop
    extends LetsAsk contract where
  grant : ∀ p, contract.Shows .elastic name p → ∀ x : Grant, contract.Concerns desired p x →
    contract.allowed (.authorize x.1 x.2)

/-- What is asked for to open groups to the balancer, and to close them where no desired port needs
them open. -/
structure LetsUphold (name : String) (desired : List ElasticPort) : Prop
    extends LetsOpen contract name desired where
  withdraw : ∀ p, contract.Shows .elastic name p → ∀ x : Grant, contract.Concerns desired p x →
    (Unambiguous desired → contract.Spares desired p x) → contract.allowed (.revoke x.1 x.2)

variable {contract}

theorem LetsGrant.opens (grants : contract.LetsGrant) (name : String)
    (desired : List ElasticPort) : contract.LetsOpen name desired :=
  ⟨⟨grants.groupsOf, grants.awaitApplied⟩, fun _ _ x _ => grants.authorize x.1 x.2⟩

theorem LetsGrant.upholds {name : String} {desired : List ElasticPort}
    (grants : contract.LetsGrant) (withdraws : contract.LetsWithdraw name desired) :
    contract.LetsUphold name desired :=
  ⟨grants.opens name desired, fun p shown x _ => withdraws p shown x⟩

theorem Retains.spares {topology e : ElasticPort} {retained : List Grant} {x : Grant}
    (retains : contract.Retains topology e retained) (unretained : x ∉ retained)
    (busy : e.backends ≠ []) (derives : Derives (placed e topology) x.2) :
    ∃ groups, contract.Lists e.backends groups ∧ x.1 ∉ groups := by
  obtain ⟨groups, lists, needed⟩ := retains busy
  exact ⟨groups, lists, fun listed => unretained (needed x.1 listed x.2 derives)⟩

end Contract

namespace Reconcile

variable {contract : Contract} {target : Target} {backends : List Backend}

section Groups

theorem lists_eraseDups {answer : List String}
    (told : contract.told (.groupsOf (instanceIds backends)) answer) :
    contract.Lists backends answer.eraseDups :=
  ⟨answer, told, fun _ => List.mem_eraseDups⟩

theorem within_groupsOf (asks : contract.LetsAsk) (backends : List Backend) :
    (groupsOf target backends).Within contract fun groups =>
      (backends ≠ [] → contract.Lists backends groups) ∧
        ∀ group ∈ groups, contract.Finds backends group := by
  unfold groupsOf
  split
  · next none => exact ⟨fun busy => absurd (by simpa using none) busy, by simp⟩
  · refine (Job.Within.remote target (asks.groupsOf _) fun _ told => told).bind
      fun answer told => ?_
    exact ⟨fun _ => lists_eraseDups told,
      fun group hgroup => ⟨answer, told, List.mem_eraseDups.1 hgroup⟩⟩

theorem within_groupsOfLeaving (asks : contract.LetsAsk) (backends : List Backend) :
    (groupsOfLeaving target backends).Within contract fun answer =>
      ∀ groups, answer = some groups → ∀ group ∈ groups, contract.Finds backends group := by
  unfold groupsOfLeaving
  split
  · rintro _ ⟨⟩
    simp
  · have answered : (Job.remoteUnless .instanceNotFound .api target
        (.groupsOf (instanceIds backends))).Within contract fun answer => ∀ groups,
          answer = some groups → contract.told (.groupsOf (instanceIds backends)) groups := by
      refine .remoteUnless _ _ (asks.groupsOf _) (fun groups told => ?_) ?_
      · rintro _ ⟨⟩
        exact told
      · rintro _ ⟨⟩
    refine answered.bind fun answer told => ?_
    cases answer with
    | none => rintro _ ⟨⟩
    | some groups =>
        rintro _ ⟨⟩ group hgroup
        exact ⟨groups, told groups rfl, List.mem_eraseDups.1 hgroup⟩

theorem within_authorize (asks : contract.LetsAsk) {names : List String} {rules : List Rule}
    (allowed : ∀ group ∈ names, ∀ rule ∈ rules, contract.allowed (.authorize group rule)) :
    (authorize target names rules).Within contract fun _ => True := by
  have granted {group : String} {rule : Rule}
      (allowed : contract.allowed (.authorize group rule)) :
      (grant target group rule).Within contract fun _ => True := by
    refine (Job.Within.callUnless _ target allowed).bind fun answer _ => ?_
    split <;> trivial
  unfold authorize
  split
  · trivial
  · refine .forEach fun group hgroup => ?_
    exact (Job.Within.forEach fun rule hrule => granted (allowed group hgroup rule hrule)).bind
      fun _ _ => .call target (asks.awaitApplied group)

theorem within_revoke (asks : contract.LetsAsk) {names : List String} {rules : List Rule}
    {retained : List Grant}
    (allowed : ∀ group ∈ names, ∀ rule ∈ rules, (group, rule) ∉ retained →
      contract.allowed (.revoke group rule)) :
    (revoke target names rules retained).Within contract fun _ => True := by
  refine .forEach fun group hgroup => ?_
  dsimp only
  split
  · trivial
  · refine (Job.Within.forEach fun rule hrule => ?_).bind fun _ _ =>
      .call target (asks.awaitApplied group)
    obtain ⟨hrule, unretained⟩ := List.mem_filter.1 hrule
    have allowed := allowed group hgroup rule hrule (by simpa using unretained)
    refine (Job.Within.callUnless _ target allowed).bind fun answer _ => ?_
    split <;> trivial

theorem within_grantsOf (asks : contract.LetsAsk) (topology : ElasticPort)
    (ports : List ElasticPort) :
    (grantsOf target topology ports).Within contract fun needed =>
      ∀ e ∈ ports, contract.Retains topology e needed := by
  induction ports with
  | nil => simp [grantsOf, Job.Within, pure]
  | cons p rest ih =>
      refine Job.Within.bind (.ofExcept fun rules hrules => hrules) fun rules hrules => ?_
      refine (within_groupsOf asks p.backends).bind fun groups listed => ?_
      refine ih.bind fun more retains => ?_
      intro e he busy
      rcases List.mem_cons.1 he with rfl | he
      · refine ⟨groups, listed.1 busy, fun group hgroup rule derives => ?_⟩
        exact List.mem_append_left _
          (Elastic.mem_grants.2 ⟨hgroup, (derives_iff hrules rule).1 derives⟩)
      · obtain ⟨listed, lists, needed⟩ := retains e he busy
        exact ⟨listed, lists, fun group hgroup rule derives =>
          List.mem_append_right _ (needed group hgroup rule derives)⟩

theorem within_retainedGrants (asks : contract.LetsAsk) (desired : List ElasticPort)
    (topology except : ElasticPort) :
    (retainedGrants desired topology except).Within contract fun retained =>
      ∀ e ∈ desired, e.same except = false → contract.Retains topology e retained := by
  refine (within_grantsOf asks topology _).imp fun retained retains => ?_
  intro e he other busy
  exact retains e (List.mem_filter.2 ⟨he, by simpa [other] using busy⟩) busy

end Groups

namespace Elastic

variable {name : String} {desired current : List ElasticPort} {d p view : ElasticPort}
  {retained : List Grant}

theorem within_registerTargets (asks : contract.LetsAsk)
    (allowed : contract.allowed (.registerBackends .elastic view backends))
    (grant : ∀ x : Grant, contract.Finds backends x.1 → Derives view x.2 →
      contract.allowed (.authorize x.1 x.2)) :
    (registerTargets view backends).Within contract fun _ => True := by
  refine (within_registerBackends (k := .elastic) allowed).bind fun _ _ => ?_
  refine Job.Within.bind (.ofExcept fun rules hrules => hrules) fun rules hrules => ?_
  refine (within_groupsOf asks backends).bind fun names listed => ?_
  exact within_authorize asks fun group hgroup rule hrule =>
    grant (group, rule) (listed.2 group hgroup) ⟨rules, hrules, hrule⟩

/-- What is withdrawn is for groups that are known to have none of the `remaining` backends. -/
theorem within_deregisterTargets {remaining : List Backend} (asks : contract.LetsAsk)
    (allowed : contract.allowed (.deregisterBackends .elastic view backends))
    (withdraw : ∀ x : Grant, contract.Finds backends x.1 → Derives view x.2 →
      (remaining ≠ [] → ∃ used, contract.Lists remaining used ∧ x.1 ∉ used) → x ∉ retained →
        contract.allowed (.revoke x.1 x.2)) :
    (deregisterTargets view backends remaining retained).Within contract fun _ => True := by
  have left : (deregisterLeaving view backends).Within contract fun _ => True := by
    refine (Job.Within.callUnless _ _ allowed).bind fun answer _ => ?_
    split <;> trivial
  refine left.bind fun _ _ => Job.Within.bind (.ofExcept fun rules hrules => hrules)
    fun rules hrules => ?_
  refine (within_groupsOfLeaving asks backends).bind fun answer found => ?_
  split
  · trivial
  · next groups =>
    refine (within_groupsOf asks remaining).bind fun used listed => ?_
    refine within_revoke asks fun group unused rule hrule unretained => ?_
    obtain ⟨hgroup, unused⟩ := mem_differences.1 unused
    refine withdraw (group, rule) (found groups rfl group hgroup)
      ((derives_iff_granted hrules rule).2 hrule)
      (fun some_remain => ⟨used, listed.1 some_remain, fun hused => ?_⟩) unretained
    simpa using unused group hused

/-- What is withdrawn are rules that the port no longer derives. -/
theorem within_refreshRules {current : ElasticPort} (asks : contract.LetsAsk)
    (grant : ∀ x : Grant, contract.Finds current.backends x.1 → Derives view x.2 →
      contract.allowed (.authorize x.1 x.2))
    (withdraw : ∀ x : Grant, contract.Finds current.backends x.1 → Derives current x.2 →
      ¬ Derives view x.2 → x ∉ retained → contract.allowed (.revoke x.1 x.2)) :
    (refreshRules current view retained).Within contract fun _ => True := by
  refine Job.Within.bind (.ofExcept fun old hold => hold) fun old hold => ?_
  refine Job.Within.bind (.ofExcept fun new hnew => hnew) fun new hnew => ?_
  dsimp only
  split
  · trivial
  · refine (within_groupsOf asks current.backends).bind fun names listed => ?_
    refine (within_authorize asks fun group hgroup rule fresh => ?_).bind fun _ _ => ?_
    · exact grant (group, rule) (listed.2 group hgroup)
        ⟨new, hnew, (mem_rules_differences.1 fresh).1⟩
    refine within_revoke asks fun group hgroup rule stale unretained => ?_
    obtain ⟨hold', stale⟩ := mem_rules_differences.1 stale
    exact withdraw (group, rule) (listed.2 group hgroup)
      ((derives_iff_granted hold rule).2 hold')
      (fun derives => stale ((derives_iff hnew rule).1 derives)) unretained

/-- What is granted for the port as it is to be, on the groups of backends of it. -/
theorem grant_of_pairs (opens : contract.LetsOpen name desired)
    (pairs : contract.Pairs (k := .elastic) name desired d p)
    (known : ∀ b ∈ backends, b ∈ p.backends ∨ b ∈ d.backends) (x : Grant)
    (finds : contract.Finds backends x.1) (derives : Derives (ruleView d p) x.2) :
    contract.allowed (.authorize x.1 x.2) := by
  refine opens.grant p pairs.shown x ⟨⟨backends, fun b hb => ?_, finds⟩, derives.from_addresses⟩
  exact (known b hb).imp_right fun hd => ⟨d, pairs.wanted, hd⟩

theorem within_configureNewPort (opens : contract.LetsOpen name desired)
    (lets : contract.LetsBuild (k := .elastic) name desired)
    (fill : ∀ d ∈ desired, ∀ view, d.same view = true →
      contract.allowed (.registerBackends .elastic view d.backends))
    (pairs : contract.Pairs (k := .elastic) name desired d p) :
    (configureNewPort name d p).Within contract fun _ => True := by
  refine .group _ fun job hjob => ?_
  simp only [List.mem_cons, List.not_mem_nil, or_false] at hjob
  rcases hjob with rfl | rfl | rfl
  · exact within_configureHealthCheck (k := .elastic) (lets.check d pairs.wanted)
  · split
    · trivial
    · exact within_registerTargets opens.toLetsAsk
        (fill d pairs.wanted (ruleView d p) pairs.same)
        (grant_of_pairs opens pairs fun _ => .inr)
  · exact within_setFilter (k := .elastic) (lets.filter d pairs.wanted) []

theorem within_createPorts (lets : contract.LetsFound (k := .elastic) name desired) :
    (createPorts name desired).Within contract fun _ => True := by
  cases desired with
  | nil => trivial
  | cons first rest =>
      refine (within_createPort (k := .elastic) (lets.create first List.mem_cons_self)).bind
        fun _ _ => .forEach fun p hp => ?_
      exact within_registerPort (k := .elastic) (lets.register p (List.mem_cons_of_mem first hp))

/-- What a creation does once it has all its ports, which are `current`. -/
def configureAll (name : String) (desired current : List ElasticPort) :
    Program (List ElasticPort) := do
  Program.forEach current fun p => do
    configureNewPort name (← Program.ofExcept (desiredFor desired p)) p
  return current

theorem within_configureAll (opens : contract.LetsOpen name desired)
    (lets : contract.LetsBuild (k := .elastic) name desired)
    (fill : ∀ d ∈ desired, ∀ view, d.same view = true →
      contract.allowed (.registerBackends .elastic view d.backends))
    (shown : ∀ p ∈ current, contract.Shows .elastic name p) :
    (configureAll name desired current).Within contract fun _ => True := by
  refine Program.Within.bind (.forEach fun p hp => ?_) fun _ _ => trivial
  refine Program.Within.bind (.ofExcept fun d hd => ?_) fun d pairs =>
    within_configureNewPort opens lets fill pairs
  obtain ⟨wanted, same⟩ := desiredFor_eq_ok hd
  exact ⟨shown p hp, wanted, same⟩

theorem within_create (opens : contract.LetsOpen name desired)
    (lets : contract.LetsFound (k := .elastic) name desired) :
    (create name desired).Within contract fun _ => True := by
  refine (Program.Within.ofJob (within_createPorts lets)).bind fun _ _ => ?_
  refine (Program.Within.ofJob (within_describeExisting (k := .elastic) lets.describe)).bind
    fun current told => ?_
  exact within_configureAll opens lets.toLetsBuild lets.fill fun p hp => ⟨current, told, hp⟩

/-- What is not desired needs no grants but those of what is. -/
theorem within_deleteStale (upholds : contract.LetsUphold name desired)
    (lets : contract.LetsAdjust (k := .elastic) name desired)
    (discards : contract.Discards (k := .elastic) name desired p) :
    (deleteStale name desired p).Within contract fun _ => True := by
  have deleted : (deletePort (k := .elastic) name p).Within contract fun _ => True :=
    within_deletePort (k := .elastic) (lets.drop p discards)
  unfold deleteStale
  split
  · exact deleted
  · next some_backends =>
    have busy : p.backends ≠ [] := by simpa using some_backends
    refine (within_retainedGrants upholds.toLetsAsk desired p p).bind fun retained retains => ?_
    refine Job.Within.bind (within_deregisterTargets upholds.toLetsAsk (lets.clear p discards busy)
      fun x finds derived _ unretained => ?_) fun _ _ => deleted
    refine upholds.withdraw p discards.shown x
      ⟨⟨p.backends, fun _ => .inl, finds⟩, derived.from_addresses⟩ fun _ e he busy derives => ?_
    have other : e.same p = false := by rw [Port.same_comm, discards.unwanted e he]
    exact (retains e he other).spares unretained busy derives

theorem within_syncPorts (upholds : contract.LetsUphold name desired)
    (lets : contract.LetsAdjust (k := .elastic) name desired)
    (told : contract.told (.describe .elastic name) current) :
    (syncPorts name desired current).Within contract fun ports =>
      contract.told (.describe .elastic name) ports := by
  unfold syncPorts
  dsimp only
  split
  · exact told
  · refine (within_registerMissing (k := .elastic) lets.toLetsBuild).bind fun _ _ => ?_
    refine (Job.Within.forEach fun p hp => ?_).bind fun _ _ =>
      within_describeExisting (k := .elastic) lets.describe
    obtain ⟨hp, unwanted⟩ := mem_portDifferences.1 hp
    exact within_deleteStale upholds lets ⟨⟨current, told, hp⟩, unwanted⟩

theorem within_retention (asks : contract.LetsAsk) (desired : List ElasticPort)
    (d p : ElasticPort) :
    (retention desired d p).Within contract fun retained =>
      (d.healthCheck ≠ p.healthCheck ∧ p.backends ≠ []) ∨
          backendDifferences p.backends d.backends ≠ [] →
        ∀ e ∈ desired, e.same d = false → contract.Retains p e retained := by
  unfold retention
  split
  · exact (within_retainedGrants asks desired p d).imp fun retained retains _ => retains
  · next unneeded =>
    refine fun needed => absurd ?_ unneeded
    simpa using needed

theorem within_join (asks : contract.LetsAsk)
    (allowed : backendDifferences d.backends p.backends ≠ [] →
      contract.allowed (.registerBackends .elastic (ruleView d p)
        (backendDifferences d.backends p.backends)))
    (grant : ∀ x : Grant, contract.Finds (backendDifferences d.backends p.backends) x.1 →
      Derives (ruleView d p) x.2 → contract.allowed (.authorize x.1 x.2)) :
    (join d p).Within contract fun _ => True := by
  unfold join
  split
  · trivial
  · next some_joins => exact within_registerTargets asks (allowed (by simpa using some_joins)) grant

theorem within_leave (asks : contract.LetsAsk)
    (allowed : backendDifferences p.backends d.backends ≠ [] →
      contract.allowed (.deregisterBackends .elastic (ruleView d p)
        (backendDifferences p.backends d.backends)))
    (withdraw : backendDifferences p.backends d.backends ≠ [] → ∀ x : Grant,
      contract.Finds (backendDifferences p.backends d.backends) x.1 →
      Derives (ruleView d p) x.2 →
      (d.backends ≠ [] → ∃ used, contract.Lists d.backends used ∧ x.1 ∉ used) → x ∉ retained →
        contract.allowed (.revoke x.1 x.2)) :
    (leave d p retained).Within contract fun _ => True := by
  unfold leave
  split
  · trivial
  · next some_leaves =>
    have leaving : backendDifferences p.backends d.backends ≠ [] := by simpa using some_leaves
    exact within_deregisterTargets asks (allowed leaving) (withdraw leaving)

theorem within_syncPort (upholds : contract.LetsUphold name desired)
    (lets : contract.LetsAdjust (k := .elastic) name desired)
    (pairs : contract.Pairs (k := .elastic) name desired d p) :
    (syncPort desired d p).Within contract fun _ => True := by
  -- What the other ports need is retained; `own` is to settle what `d` itself needs.
  have withdraw {backends : List Backend} {grants : List Grant} {x : Grant}
      (held : ∀ b ∈ backends, b ∈ p.backends) (finds : contract.Finds backends x.1)
      (source : x.2.From p.addresses) (unretained : x ∉ grants)
      (retains : ∀ e ∈ desired, e.same d = false → contract.Retains p e grants)
      (own : d.backends ≠ [] → Derives (ruleView d p) x.2 →
        ∃ groups, contract.Lists d.backends groups ∧ x.1 ∉ groups) :
      contract.allowed (.revoke x.1 x.2) := by
    refine upholds.withdraw p pairs.shown x
      ⟨⟨backends, fun b hb => .inl (held b hb), finds⟩, source⟩
      fun unambiguous e he busy derives => ?_
    cases same : e.same d with
    | false => exact (retains e he same).spares unretained busy derives
    | true =>
        obtain rfl : e = d := unambiguous e he d pairs.wanted same
        exact own busy (placed_of_same pairs.same ▸ derives)
  rw [syncPort_eq]
  refine (within_updateSettings (k := .elastic) (lets.update d pairs.wanted)).bind fun _ _ => ?_
  refine (within_retention upholds.toLetsAsk desired d p).bind fun retained retains => ?_
  refine Job.Within.bind (?check : (changeCheck d p retained).Within _ fun _ => True) fun _ _ => ?_
  case check =>
    unfold changeCheck
    split
    · next changed =>
      refine (within_configureHealthCheck (k := .elastic) (lets.check d pairs.wanted)).bind
        fun _ _ => ?_
      split
      · trivial
      · next some_held =>
        refine within_refreshRules upholds.toLetsAsk
          (grant_of_pairs upholds.toLetsOpen pairs fun _ => .inl)
          fun x finds derived underived unretained => ?_
        exact withdraw (fun _ => id) finds derived.from_addresses unretained
          (retains (.inl ⟨changed, by simpa using some_held⟩))
          fun _ derives => absurd derives underived
    · trivial
  have joined := within_join upholds.toLetsAsk
    (fun joining => lets.join d p pairs joining (ruleView d p) p.same_refl)
    (grant_of_pairs upholds.toLetsOpen pairs fun b hb => .inr (mem_backendDifferences.1 hb).1)
  refine joined.bind fun _ _ => Job.Within.bind (within_leave upholds.toLetsAsk
    (fun leaving => lets.leave d p pairs leaving (ruleView d p) p.same_refl)
    fun leaving x finds derived unused unretained => ?_) fun _ _ =>
      within_setFilter (k := .elastic) (lets.filter d pairs.wanted) p.filters
  exact withdraw (fun b hb => (mem_backendDifferences.1 hb).1) finds derived.from_addresses
    unretained (retains (.inr leaving)) fun busy _ => unused busy

end Elastic

/-- What a reconciliation does where there is no balancer. -/
def found (name : String) : (k : Kind) → List k.Port → Program Status
  | .l4, desired => .ofJob do
    L4.create name desired
    Job.ofExcept (statusOf name (← describeExisting .l4 name))
  | .elastic, desired => do Program.ofExcept (statusOf name (← Elastic.create name desired))

/-- What a reconciliation does where the balancer has the ports `current`. -/
def adjust (name : String) : (k : Kind) → (desired current : List k.Port) → Program Status
  | .l4, desired, current => .ofJob do
    let current ← L4.syncPorts name desired current
    Job.forEach current fun p => do L4.syncPort (← Job.ofExcept (desiredFor desired p)) p
    Job.ofExcept (statusOf name current)
  | .elastic, desired, current => do
    let current ← Elastic.syncPorts name desired current
    Job.forEach current fun p => do
      Elastic.syncPort desired (← Job.ofExcept (desiredFor desired p)) p
    Program.ofExcept (statusOf name current)

/-- What a reconciliation does once it knows, or cannot learn, what there is. -/
def resume (name : String) (k : Kind) (desired : List k.Port) :
    Outcome (List k.Port) → Program Status
  | .answered (first :: after) => adjust name k desired (first :: after)
  | .answered [] => found name k desired
  | .refused e =>
    if e.code = k.notFound then found name k desired
    else .fail (.remote (.describe k) (.balancer name) e)
  | .timedOut => .fail (.timeout (.describe k) (.balancer name))

variable {k : Kind} {name : String} {desired current : List k.Port}

theorem reconcile_eq (hnew : desired ≠ []) :
    reconcile name k desired =
      reporting name (.call ⟨.balancer name, .api⟩ (.describe k name) (resume name k desired)) := by
  cases k
  all_goals
    refine (if_neg (by simpa using hnew)).trans ?_
    refine congrArg (reporting name) (congrArg (Program.call _ _) (funext fun outcome => ?_))
    rcases outcome with (_ | ⟨first, after⟩) | e | _
    case refused =>
      simp only [resume]
      split <;> rfl
    all_goals rfl

theorem within_resume {outcome : Outcome (List k.Port)}
    (founding : (found name k desired).Within contract fun _ => True)
    (adjusting : ∀ first after, outcome = .answered (first :: after) →
      (adjust name k desired (first :: after)).Within contract fun _ => True) :
    (resume name k desired outcome).Within contract fun _ => True := by
  unfold resume
  split
  · exact adjusting _ _ rfl
  · exact founding
  · split
    · exact founding
    · trivial
  · trivial

theorem L4.within_found {desired : List L4Port}
    (lets : contract.LetsFound (k := .l4) name desired) :
    (found name .l4 desired).Within contract fun _ => True := by
  refine .ofJob ((L4.within_create lets).bind fun _ _ => ?_)
  exact (within_describeExisting (k := .l4) lets.describe).bind fun _ _ => .ofExcept
    fun _ _ => trivial

theorem L4.within_adjust {desired current : List L4Port}
    (lets : contract.LetsAdjust (k := .l4) name desired)
    (told : contract.told (.describe .l4 name) current) :
    (adjust name .l4 desired current).Within contract fun _ => True := by
  refine .ofJob ((L4.within_syncPorts lets told).bind fun ports told => ?_)
  refine (within_eachDesired (k := .l4) told fun d p pairs => ?_).bind
    fun _ _ => .ofExcept fun _ _ => trivial
  exact L4.within_syncPort lets pairs

theorem L4.within_deletion (lets : contract.LetsDelete name .l4) :
    (Reconcile.delete name .l4).Within contract fun _ => True := by
  refine (within_describe (k := .l4) lets.describe).bind fun answer told => ?_
  split
  · trivial
  · next ports =>
    refine .forEach fun p hp => ?_
    exact within_deletePort (k := .l4) (lets.drop p ⟨ports, told _ rfl, hp⟩)

theorem Elastic.within_upkeep {desired current : List ElasticPort}
    (upholds : contract.LetsUphold name desired)
    (lets : contract.LetsAdjust (k := .elastic) name desired)
    (told : contract.told (.describe .elastic name) current) :
    (adjust name .elastic desired current).Within contract fun _ => True := by
  refine (Program.Within.ofJob (within_syncPorts upholds lets told)).bind fun ports told => ?_
  refine (Program.Within.ofJob (within_eachDesired (k := .elastic) told fun d p pairs => ?_)).bind
    fun _ _ => .ofExcept fun _ _ => trivial
  exact within_syncPort upholds lets pairs

theorem Elastic.within_adjust {desired current : List ElasticPort} (grants : contract.LetsGrant)
    (lets : contract.LetsAdjust (k := .elastic) name desired)
    (withdraws : contract.LetsWithdraw name desired)
    (told : contract.told (.describe .elastic name) current) :
    (adjust name .elastic desired current).Within contract fun _ => True :=
  within_upkeep (grants.upholds withdraws) lets told

/-- Whatever the balancer still has, its groups are closed to it. -/
theorem Elastic.within_deletion (upholds : contract.LetsUphold name [])
    (lets : contract.LetsDelete name .elastic) :
    (Reconcile.delete name .elastic).Within contract fun _ => True := by
  refine (within_describe (k := .elastic) lets.describe).bind fun answer told => ?_
  split
  · trivial
  · next ports =>
    refine .forEach fun p hp => ?_
    have shown : contract.Shows .elastic name p := ⟨ports, told _ rfl, hp⟩
    refine .optional (fun _ => ?_) (within_deletePort (k := .elastic) (lets.drop p shown))
    refine within_deregisterTargets upholds.toLetsAsk (lets.clear p shown)
      fun x finds derived _ _ => ?_
    exact upholds.withdraw p shown x ⟨⟨p.backends, fun _ => .inl, finds⟩, derived.from_addresses⟩
      fun _ e he => by cases he

theorem within_found (grants : contract.LetsGrant) (lets : contract.LetsFound name desired) :
    (found name k desired).Within contract fun _ => True := by
  cases k with
  | l4 => exact L4.within_found lets
  | elastic =>
      exact (Elastic.within_create (grants.opens name desired) lets).bind
        fun _ _ => .ofExcept fun _ _ => trivial

theorem within_adjust (grants : contract.LetsGrant) (lets : contract.LetsAdjust name desired)
    (withdraw : ∀ group rule, contract.allowed (.revoke group rule))
    (told : contract.told (.describe k name) current) :
    (adjust name k desired current).Within contract fun _ => True := by
  cases k with
  | l4 => exact L4.within_adjust lets told
  | elastic => exact Elastic.within_adjust grants lets (fun _ _ x _ => withdraw x.1 x.2) told

/-- A reconciliation that may ask for what it takes, whatever is there. -/
theorem within_reconcile (grants : contract.LetsGrant) (founds : contract.LetsFound name desired)
    (adjusts : contract.LetsAdjust name desired)
    (withdraw : ∀ group rule, contract.allowed (.revoke group rule)) :
    (reconcile name k desired).Within contract fun _ => True := by
  by_cases hnew : desired = []
  · subst hnew
    cases k <;> trivial
  · rw [reconcile_eq hnew]
    refine within_reporting name ⟨founds.describe, fun outcome heard => ?_⟩
    refine within_resume (within_found grants founds) fun first after answered => ?_
    subst answered
    exact within_adjust grants adjusts withdraw heard

theorem within_delete (grants : contract.LetsGrant) (lets : contract.LetsDelete name k)
    (withdraw : ∀ group rule, contract.allowed (.revoke group rule)) :
    (delete name k).Within contract fun _ => True := by
  cases k with
  | l4 => exact L4.within_deletion lets
  | elastic =>
      exact Elastic.within_deletion (grants.upholds fun _ _ x _ => withdraw x.1 x.2) lets

end Reconcile

end CloudBalancer
