import CloudBalancer.Proofs.Groups
import CloudBalancer.Proofs.PortLists
import CloudBalancer.Proofs.Probes
import CloudBalancer.Reconcile.Elastic

/-!
The effect of every step that concerns one port of an elastic balancer: on the port itself, as for
L4 ports, and on the grants, exactly. What a step grants or withdraws is said in terms of the
inventory it starts from, whose groups keep their members.
-/

namespace CloudBalancer

namespace Inventory

@[simp]
theorem protects_withPorts (inv : Inventory) (k : Kind) (name : String) (ports : List k.Port)
    (backends : List Backend) (group : String) :
    (inv.withPorts k name ports).Protects backends group ↔ inv.Protects backends group := by
  simp [Protects]

/-- The inventories differ in the rules of groups at most. -/
structure SameButRules (inv after : Inventory) : Prop where
  tables : ∀ k, after.table k = inv.table k
  members : ∀ group, after.members group = inv.members group

namespace SameButRules

variable {inv after last : Inventory}

theorem refl (inv : Inventory) : inv.SameButRules inv := ⟨fun _ => rfl, fun _ => rfl⟩

theorem trans (first : inv.SameButRules after) (second : after.SameButRules last) :
    inv.SameButRules last :=
  ⟨fun k => (second.tables k).trans (first.tables k),
    fun group => (second.members group).trans (first.members group)⟩

theorem protects (h : inv.SameButRules after) (backends : List Backend) (group : String) :
    after.Protects backends group ↔ inv.Protects backends group := by
  simp [Protects, h.members]

theorem setRules (inv : Inventory) (group : String) (rules : List Rule) :
    inv.SameButRules (inv.setRules group rules) :=
  ⟨fun k => by cases k <;> rfl, fun key => members_setRules ..⟩

theorem grantAll (inv : Inventory) (grants : List Grant) :
    inv.SameButRules (inv.grantAll grants) := by
  induction grants generalizing inv with
  | nil => exact .refl inv
  | cons x rest ih =>
      refine SameButRules.trans ?_ (ih (inv.grant x))
      unfold Inventory.grant
      split
      · exact .refl inv
      · exact .setRules ..

theorem withdrawAll (inv : Inventory) (grants : List Grant) :
    inv.SameButRules (inv.withdrawAll grants) := by
  induction grants generalizing inv with
  | nil => exact .refl inv
  | cons x rest ih =>
      refine SameButRules.trans ?_ (ih (inv.withdraw x))
      unfold Inventory.withdraw
      split
      · exact .setRules ..
      · exact .refl inv

end SameButRules

end Inventory

namespace Reconcile.Elastic

open Inventory

variable {name : String} {d p view : ElasticPort} {before desired : List ElasticPort}

theorem mem_grants {groups : List String} {rules : List Rule} {x : Grant} :
    x ∈ groups.flatMap (fun group => rules.map (group, ·)) ↔ x.1 ∈ groups ∧ x.2 ∈ rules := by
  simp [List.mem_flatMap, Prod.ext_iff]

theorem mem_withdrawn {groups : List String} {rules : List Rule} {retained : List Grant}
    {x : Grant} :
    x ∈ groups.flatMap (fun group =>
        (rules.filter fun rule => !retained.contains (group, rule)).map (group, ·)) ↔
      x.1 ∈ groups ∧ x.2 ∈ rules ∧ x ∉ retained := by
  obtain ⟨group, rule⟩ := x
  simp only [List.mem_flatMap, List.mem_map, List.mem_filter, Prod.mk.injEq]
  constructor
  · rintro ⟨g, hg, r, ⟨hr, hretained⟩, rfl, rfl⟩
    exact ⟨hg, hr, by simpa using hretained⟩
  · rintro ⟨hg, hr, hretained⟩
    exact ⟨group, hg, rule, ⟨hr, by simpa using hretained⟩, rfl, rfl⟩

theorem effect_registerTargets (base : Inventory) (after : List ElasticPort)
    (named : view.name = name) (selects : Selects view before p)
    (derivable : ∃ rules, deriveRules view = .ok rules) (backends : List Backend) :
    ∃ base', (registerTargets view backends).effect
          (base.withPorts .elastic name (before ++ p :: after)) =
        (.ok (), base'.withPorts .elastic name
          (before ++ { p with backends := addBackends p.backends backends } :: after)) ∧
      base.SameButRules base' ∧
      ∀ x, base'.Holds x ↔ base.Holds x ∨ base.Protects backends x.1 ∧ Derives view x.2 := by
  obtain ⟨rules, hrules⟩ := derivable
  let joined := base.withPorts .elastic name
    (before ++ { p with backends := addBackends p.backends backends } :: after)
  have hregister : (registerBackends (k := .elastic) view backends).effect
      (base.withPorts .elastic name (before ++ p :: after)) = (.ok (), joined) :=
    effect_registerBackends named selects backends
  have hderive : (Job.ofExcept (deriveRules view)).effect joined = (.ok rules, joined) := by
    rw [hrules, Job.effect_ofExcept]
  obtain ⟨groups, hgroups, mem_groups⟩ := effect_groupsOf joined (.ofPort view) backends
  refine ⟨_, ?_, .grantAll base (groups.flatMap fun group => rules.map (group, ·)), fun x => ?_⟩
  · rw [registerTargets, Job.effect_bind_ok hregister, Job.effect_bind_ok hderive,
      Job.effect_bind_ok hgroups, effect_authorize, grantAll_withPorts]
  · rw [holds_grantAll, mem_grants, mem_groups, protects_withPorts, derives_iff hrules]

/-- What is there leaves, with the rules of the port on the groups that no longer need them. -/
theorem effect_deregisterTargets (base : Inventory) (after : List ElasticPort)
    (named : view.name = name) (selects : Selects view before p)
    {backends left : List Backend} (leaving : removeBackends p.backends backends = .ok left)
    (derivable : ∃ rules, grantedRules view = .ok rules) (remaining : List Backend)
    (retained : List Grant) :
    ∃ base', (deregisterTargets view backends remaining retained).effect
          (base.withPorts .elastic name (before ++ p :: after)) =
        (.ok (), base'.withPorts .elastic name
          (before ++ { p with backends := left } :: after)) ∧
      base.SameButRules base' ∧
      ∀ x, base'.Holds x ↔ base.Holds x ∧ ¬ (base.Protects backends x.1 ∧
        ¬ base.Protects remaining x.1 ∧ Derives view x.2 ∧ x ∉ retained) := by
  obtain ⟨rules, hrules⟩ := derivable
  let thinned := base.withPorts .elastic name (before ++ { p with backends := left } :: after)
  have hderegister : (deregisterLeaving view backends).effect
      (base.withPorts .elastic name (before ++ p :: after)) = (.ok (), thinned) :=
    Job.effect_bind_ok (Job.effect_remoteUnless_ok _ _
      (apply_deregisterBackends (k := .elastic) named selects leaving))
  have hderive : (Job.ofExcept (grantedRules view)).effect thinned = (.ok rules, thinned) := by
    rw [hrules, Job.effect_ofExcept]
  obtain ⟨groups, hgroups, mem_groups⟩ := effect_groupsOfLeaving thinned (.ofPort view) backends
  obtain ⟨used, hused, mem_used⟩ := effect_groupsOf thinned (.ofPort view) remaining
  refine ⟨_, ?_, .withdrawAll base ((differences (· == ·) groups used).flatMap fun group =>
    (rules.filter fun rule => !retained.contains (group, rule)).map (group, ·)), fun x => ?_⟩
  · rw [deregisterTargets, Job.effect_bind_ok hderegister, Job.effect_bind_ok hderive,
      Job.effect_bind_ok hgroups]
    refine (Job.effect_bind_ok hused).trans ?_
    rw [effect_revoke, withdrawAll_withPorts]
  · have mem_unused : x.1 ∈ differences (· == ·) groups used ↔
        base.Protects backends x.1 ∧ ¬ base.Protects remaining x.1 := by
      rw [mem_differences, mem_groups, protects_withPorts, ← protects_withPorts base .elastic name
        (before ++ { p with backends := left } :: after) remaining, ← mem_used]
      simp only [beq_eq_false_iff_ne]
      exact and_congr_right fun _ => ⟨fun h hx => h x.1 hx rfl, fun h g hg heq => h (heq ▸ hg)⟩
    rw [holds_withdrawAll, mem_withdrawn, mem_unused, derives_iff_granted hrules, and_assoc]

theorem mem_rules_differences {target other : List Rule} {rule : Rule} :
    rule ∈ differences (· == ·) target other ↔ rule ∈ target ∧ rule ∉ other := by
  rw [mem_differences]
  simp only [beq_eq_false_iff_ne]
  exact and_congr_right fun _ => ⟨fun h hrule => h rule hrule rfl, fun h o ho heq => h (heq ▸ ho)⟩

theorem effect_refreshRules {current : ElasticPort} (base : Inventory) (name : String)
    (ports : List ElasticPort) (granted : ∃ rules, grantedRules current = .ok rules)
    (derivable : ∃ rules, deriveRules view = .ok rules) (retained : List Grant) :
    ∃ base', (refreshRules current view retained).effect (base.withPorts .elastic name ports) =
        (.ok (), base'.withPorts .elastic name ports) ∧
      base.SameButRules base' ∧
      ∀ x, base'.Holds x ↔
        (base.Holds x ∨ base.Protects current.backends x.1 ∧ Derives view x.2 ∧
            ¬ Derives current x.2) ∧
          ¬ (base.Protects current.backends x.1 ∧ Derives current x.2 ∧ ¬ Derives view x.2 ∧
            x ∉ retained) := by
  obtain ⟨old, hold⟩ := granted
  obtain ⟨new, hnew⟩ := derivable
  let inv := base.withPorts .elastic name ports
  let stale := differences (· == ·) old new
  let fresh := differences (· == ·) new old
  have mem_stale (rule : Rule) : rule ∈ stale ↔ Derives current rule ∧ ¬ Derives view rule := by
    rw [mem_rules_differences, derives_iff_granted hold, derives_iff hnew]
  have mem_fresh (rule : Rule) : rule ∈ fresh ↔ Derives view rule ∧ ¬ Derives current rule := by
    rw [mem_rules_differences, derives_iff_granted hold, derives_iff hnew]
  have hgranted : (Job.ofExcept (grantedRules current)).effect inv = (.ok old, inv) := by
    rw [hold, Job.effect_ofExcept]
  have hderive : (Job.ofExcept (deriveRules view)).effect inv = (.ok new, inv) := by
    rw [hnew, Job.effect_ofExcept]
  rw [refreshRules, Job.effect_bind_ok hgranted, Job.effect_bind_ok hderive]
  dsimp only
  split
  · next none =>
    simp only [Bool.and_eq_true, List.isEmpty_iff] at none
    refine ⟨base, rfl, .refl base, fun x => ?_⟩
    have noStale := mem_stale x.2
    have noFresh := mem_fresh x.2
    simp only [show stale = [] from none.1, show fresh = [] from none.2, List.not_mem_nil,
      false_iff] at noStale noFresh
    tauto
  · obtain ⟨groups, hgroups, mem_groups⟩ :=
      effect_groupsOf inv (.ofPort view) current.backends
    let added := base.grantAll (groups.flatMap fun group => fresh.map (group, ·))
    refine ⟨_, ?_, (SameButRules.grantAll base _).trans (.withdrawAll added (groups.flatMap
      fun group => (stale.filter fun rule => !retained.contains (group, rule)).map (group, ·))),
      fun x => ?_⟩
    · rw [Job.effect_bind_ok hgroups, Job.effect_bind_ok (effect_authorize ..), effect_revoke,
        grantAll_withPorts, withdrawAll_withPorts]
    · rw [holds_withdrawAll, holds_grantAll, mem_withdrawn, mem_grants, mem_groups,
        protects_withPorts, mem_stale, mem_fresh, and_assoc]

/-- The grant stays needed whatever becomes of `except`. -/
def Retains (inv : Inventory) (desired : List ElasticPort) (topology except : ElasticPort)
    (x : Grant) : Prop :=
  ∃ e ∈ desired, e.same except = false ∧ inv.Protects e.backends x.1 ∧
    Derives (placed e topology) x.2

theorem effect_grantsOf (inv : Inventory) {topology : ElasticPort} (target : Target)
    {ports : List ElasticPort}
    (derivable : ∀ e ∈ ports, ∃ rules, deriveRules (placed e topology) = .ok rules) :
    ∃ grants, (grantsOf target topology ports).effect inv = (.ok grants, inv) ∧
      ∀ x, x ∈ grants ↔
        ∃ e ∈ ports, inv.Protects e.backends x.1 ∧ Derives (placed e topology) x.2 := by
  induction ports with
  | nil => exact ⟨[], rfl, by simp⟩
  | cons p rest ih =>
      obtain ⟨rules, hrules⟩ := derivable p List.mem_cons_self
      obtain ⟨more, hmore, mem_more⟩ := ih fun e he => derivable e (List.mem_cons_of_mem p he)
      obtain ⟨groups, hgroups, mem_groups⟩ := effect_groupsOf inv target p.backends
      have hderive : (Job.ofExcept (deriveRules (placed p topology))).effect inv =
          (.ok rules, inv) := by
        rw [hrules, Job.effect_ofExcept]
      refine ⟨groups.flatMap (fun group => rules.map (group, ·)) ++ more, ?_, fun x => ?_⟩
      · rw [grantsOf, Job.effect_bind_ok hderive, Job.effect_bind_ok hgroups,
          Job.effect_bind_ok hmore, Job.effect_pure]
      · rw [List.mem_append, mem_grants, mem_groups, mem_more, ← derives_iff hrules]
        simp

theorem effect_retainedGrants (inv : Inventory) {topology : ElasticPort} (except : ElasticPort)
    (derivable : ∀ e ∈ desired, ∃ rules, deriveRules (placed e topology) = .ok rules) :
    ∃ grants, (retainedGrants desired topology except).effect inv = (.ok grants, inv) ∧
      ∀ x, x ∈ grants ↔ Retains inv desired topology except x := by
  obtain ⟨grants, heffect, mem_grants⟩ := effect_grantsOf inv (.ofPort except)
    fun e he => derivable e (List.mem_filter.1 he).1
  refine ⟨grants, heffect, fun x => ?_⟩
  rw [mem_grants, Retains]
  refine exists_congr fun e => ?_
  rw [List.mem_filter, and_assoc]
  refine and_congr_right fun _ => ?_
  by_cases hempty : e.backends = []
  · simp [hempty]
  · simp [hempty]

theorem placed_of_same (hsame : d.same p = true) : placed d p = ruleView d p := by
  obtain ⟨hname, hpair⟩ := Port.same_iff.1 hsame
  simp only [placed, ruleView, hname, hpair]

/-- The grants to leave alone while a port is synchronised, where any may be withdrawn. -/
def retention (all : List ElasticPort) (d p : ElasticPort) : Job (List Grant) :=
  if (decide (d.healthCheck ≠ p.healthCheck) && !p.backends.isEmpty) ||
      !(backendDifferences p.backends d.backends).isEmpty then
    retainedGrants all p d
  else pure []

/-- A changed health check, with the rules that follow from it. -/
def changeCheck (d p : ElasticPort) (retained : List Grant) : Job Unit := do
  if d.healthCheck ≠ p.healthCheck then
    configureHealthCheck (k := .elastic) d
    unless p.backends.isEmpty do refreshRules p (ruleView d p) retained

def join (d p : ElasticPort) : Job Unit := do
  unless (backendDifferences d.backends p.backends).isEmpty do
    registerTargets (ruleView d p) (backendDifferences d.backends p.backends)

def leave (d p : ElasticPort) (retained : List Grant) : Job Unit := do
  unless (backendDifferences p.backends d.backends).isEmpty do
    deregisterTargets (ruleView d p) (backendDifferences p.backends d.backends) d.backends retained

/-- The stages of bringing a port to what is desired of it. -/
theorem syncPort_eq (all : List ElasticPort) (d p : ElasticPort) :
    syncPort all d p = (do
      updateSettings (k := .elastic) d p
      let retained ← retention all d p
      changeCheck d p retained
      join d p
      leave d p retained
      setFilter (k := .elastic) d p.filters) := by
  unfold syncPort retention changeCheck join leave
  refine congrArg _ (funext fun _ => ?_)
  dsimp only
  generalize (backendDifferences d.backends p.backends).isEmpty = noneJoins
  generalize (backendDifferences p.backends d.backends).isEmpty = noneLeaves
  generalize p.backends.isEmpty = noneHeld
  by_cases changed : d.healthCheck = p.healthCheck <;>
    cases noneHeld <;> cases noneJoins <;> cases noneLeaves <;> simp [changed]

section Upkeep

variable (inv : Inventory) (all : List ElasticPort) (d p : ElasticPort) (x : Grant)

/-- The grant comes with a changed health check. -/
def Refreshes : Prop :=
  d.healthCheck ≠ p.healthCheck ∧ inv.Protects p.backends x.1 ∧ Derives (ruleView d p) x.2 ∧
    ¬ Derives p x.2

/-- The grant goes with a changed health check. -/
def Expires : Prop :=
  d.healthCheck ≠ p.healthCheck ∧ inv.Protects p.backends x.1 ∧ Derives p x.2 ∧
    ¬ Derives (ruleView d p) x.2 ∧ ¬ Retains inv all p d x

/-- The grant comes with a new backend. -/
def Joins : Prop :=
  inv.Protects (backendDifferences d.backends p.backends) x.1 ∧ Derives (ruleView d p) x.2

/-- The grant goes with a backend that is no longer desired. -/
def Leaves : Prop :=
  inv.Protects (backendDifferences p.backends d.backends) x.1 ∧ ¬ inv.Protects d.backends x.1 ∧
    Derives (ruleView d p) x.2 ∧ ¬ Retains inv all p d x

end Upkeep

variable {all : List ElasticPort} {q : ElasticPort} {retained : List Grant}

theorem retains_congr {inv other : Inventory}
    (h : ∀ backends group, other.Protects backends group ↔ inv.Protects backends group)
    (all : List ElasticPort) (topology except : ElasticPort) (x : Grant) :
    Retains other all topology except x ↔ Retains inv all topology except x := by
  simp only [Retains, h]

theorem joins_congr {inv other : Inventory}
    (h : ∀ backends group, other.Protects backends group ↔ inv.Protects backends group)
    (d p : ElasticPort) (x : Grant) : Joins other d p x ↔ Joins inv d p x := by
  simp only [Joins, h]

theorem leaves_congr {inv other : Inventory}
    (h : ∀ backends group, other.Protects backends group ↔ inv.Protects backends group)
    (all : List ElasticPort) (d p : ElasticPort) (x : Grant) :
    Leaves other all d p x ↔ Leaves inv all d p x := by
  simp only [Leaves, Retains, h]

theorem effect_retention (inv : Inventory)
    (placeable : ∀ e ∈ all, ∃ rules, deriveRules (placed e p) = .ok rules) :
    ∃ retained, (retention all d p).effect inv = (.ok retained, inv) ∧
      ((d.healthCheck ≠ p.healthCheck ∧ p.backends ≠ []) ∨
          backendDifferences p.backends d.backends ≠ [] →
        ∀ x, x ∈ retained ↔ Retains inv all p d x) := by
  unfold retention
  split
  · obtain ⟨retained, heffect, mem_retained⟩ := effect_retainedGrants inv d placeable
    exact ⟨retained, heffect, fun _ => mem_retained⟩
  · next unneeded =>
    refine ⟨[], rfl, fun needed => absurd ?_ unneeded⟩
    simpa using needed

theorem effect_changeCheck (base : Inventory) (after : List ElasticPort) (named : d.name = name)
    (selects : Selects d before q) (check : q.healthCheck = p.healthCheck)
    (granted : ∃ rules, grantedRules p = .ok rules)
    (derivable : ∃ rules, deriveRules (ruleView d p) = .ok rules)
    (retains : d.healthCheck ≠ p.healthCheck → p.backends ≠ [] →
      ∀ x, x ∈ retained ↔ Retains base all p d x) :
    ∃ base', (changeCheck d p retained).effect
          (base.withPorts .elastic name (before ++ q :: after)) =
        (.ok (), base'.withPorts .elastic name
          (before ++ { q with healthCheck := d.healthCheck } :: after)) ∧
      base.SameButRules base' ∧
      ∀ x, base'.Holds x ↔ (base.Holds x ∨ Refreshes base d p x) ∧ ¬ Expires base all d p x := by
  by_cases changed : d.healthCheck = p.healthCheck
  · refine ⟨base, ?_, .refl base, fun x => by simp [Refreshes, Expires, changed]⟩
    rw [changed, ← check]
    simp [changeCheck, changed]
  · let checked : ElasticPort := { q with healthCheck := d.healthCheck }
    have hconfigure : (configureHealthCheck (k := .elastic) d).effect
        (base.withPorts .elastic name (before ++ q :: after)) =
          (.ok (), base.withPorts .elastic name (before ++ checked :: after)) :=
      effect_configureHealthCheck named selects
    rw [changeCheck, if_pos changed, Job.effect_bind_ok hconfigure]
    by_cases hempty : p.backends = []
    · exact ⟨base, by simp [hempty, checked], .refl base,
        fun x => by simp [Refreshes, Expires, hempty]⟩
    · obtain ⟨base', heffect, same, holds⟩ := effect_refreshRules base name
        (before ++ checked :: after) granted derivable retained
      refine ⟨base', by simpa [hempty] using heffect, same, fun x => ?_⟩
      rw [holds, retains changed hempty]
      simp [Refreshes, Expires, changed]

theorem effect_join (base : Inventory) (after : List ElasticPort) (named : p.name = name)
    (selects : Selects p before q) (held : q.backends = p.backends)
    (derivable : ∃ rules, deriveRules (ruleView d p) = .ok rules) :
    ∃ base', (join d p).effect (base.withPorts .elastic name (before ++ q :: after)) =
        (.ok (), base'.withPorts .elastic name (before ++
          { q with
            backends := addBackends p.backends (backendDifferences d.backends p.backends) } ::
              after)) ∧
      base.SameButRules base' ∧
      ∀ x, base'.Holds x ↔ base.Holds x ∨ Joins base d p x := by
  have viewNamed : (ruleView d p).name = name := named
  have viewSelects : Selects (ruleView d p) before q := ⟨selects.skips, selects.same⟩
  unfold join Joins
  by_cases none : backendDifferences d.backends p.backends = []
  · refine ⟨base, ?_, .refl base, fun x => by simp [none]⟩
    rw [none, show addBackends p.backends [] = q.backends from held.symm]
    rfl
  · obtain ⟨base', heffect, same, holds⟩ := effect_registerTargets base after viewNamed viewSelects
      derivable (backendDifferences d.backends p.backends)
    rw [held] at heffect
    exact ⟨base', by simpa [none] using heffect, same, holds⟩

theorem effect_leave (base : Inventory) (after : List ElasticPort) (named : p.name = name)
    (selects : Selects p before q)
    (held : q.backends = addBackends p.backends (backendDifferences d.backends p.backends))
    (derivable : ∃ rules, deriveRules (ruleView d p) = .ok rules)
    (retains : backendDifferences p.backends d.backends ≠ [] →
      ∀ x, x ∈ retained ↔ Retains base all p d x) :
    ∃ base', (leave d p retained).effect (base.withPorts .elastic name (before ++ q :: after)) =
        (.ok (), base'.withPorts .elastic name
          (before ++ { q with backends := syncedBackends d.backends p.backends } :: after)) ∧
      base.SameButRules base' ∧
      ∀ x, base'.Holds x ↔ base.Holds x ∧ ¬ Leaves base all d p x := by
  have viewNamed : (ruleView d p).name = name := named
  have viewSelects : Selects (ruleView d p) before q := ⟨selects.skips, selects.same⟩
  have granted : ∃ rules, grantedRules (ruleView d p) = .ok rules := grantedRules_ok derivable
  unfold leave Leaves
  by_cases none : backendDifferences p.backends d.backends = []
  · refine ⟨base, ?_, .refl base, fun x => by simp [none]⟩
    rw [none, syncedBackends_of_none_leaves none, ← held]
    rfl
  · have hremoved := removeBackends_leaving d.backends p.backends
    rw [← held] at hremoved
    obtain ⟨base', heffect, same, holds⟩ := effect_deregisterTargets base after viewNamed
      viewSelects hremoved granted d.backends retained
    refine ⟨base', by simpa [none] using heffect, same, fun x => ?_⟩
    rw [holds, retains none]

/-- Whether a grant holds once `p` is synchronised with `d`, if it `held` before or not. -/
def Upheld (inv : Inventory) (all : List ElasticPort) (d p : ElasticPort) (x : Grant)
    (held : Prop) : Prop :=
  ((held ∨ Refreshes inv d p x) ∧ ¬ Expires inv all d p x ∨ Joins inv d p x) ∧
    ¬ Leaves inv all d p x

theorem upheld_congr {inv other : Inventory}
    (h : ∀ backends group, other.Protects backends group ↔ inv.Protects backends group)
    (all : List ElasticPort) (d p : ElasticPort) (x : Grant) (held : Prop) :
    Upheld other all d p x held ↔ Upheld inv all d p x held := by
  simp only [Upheld, Refreshes, Expires, Joins, Leaves, Retains, h]

/-- The rules of a stored port can be derived, and those of each desired port wired in like it. -/
structure Routed (desired : List ElasticPort) (p : ElasticPort) : Prop where
  granted : ∃ rules, grantedRules p = .ok rules
  placed : ∀ e ∈ desired, ∃ rules, deriveRules (placed e p) = .ok rules

/-- How a port changes from stage to stage once its settings are those of `d`. The grants change on
the way, and only what `retained` has to spare is found out beforehand. -/
theorem effect_stages (base : Inventory) (after : List ElasticPort) (named : d.name = name)
    (selects : Selects d before p) (routed : Routed all p) (wanted : d ∈ all) :
    let settled : ElasticPort := { p with settings := d.settings }
    let checked : ElasticPort := { settled with healthCheck := d.healthCheck }
    let joined : ElasticPort := { checked with
      backends := addBackends p.backends (backendDifferences d.backends p.backends) }
    let left : ElasticPort := { checked with backends := syncedBackends d.backends p.backends }
    ∃ (retained : List Grant) (base₁ base₂ base₃ : Inventory),
      (retention all d p).effect (base.withPorts .elastic name (before ++ settled :: after)) =
        (.ok retained, base.withPorts .elastic name (before ++ settled :: after)) ∧
      (changeCheck d p retained).effect
          (base.withPorts .elastic name (before ++ settled :: after)) =
        (.ok (), base₁.withPorts .elastic name (before ++ checked :: after)) ∧
      (join d p).effect (base₁.withPorts .elastic name (before ++ checked :: after)) =
        (.ok (), base₂.withPorts .elastic name (before ++ joined :: after)) ∧
      (leave d p retained).effect (base₂.withPorts .elastic name (before ++ joined :: after)) =
        (.ok (), base₃.withPorts .elastic name (before ++ left :: after)) ∧
      base.SameButRules base₃ ∧ ∀ x, base₃.Holds x ↔ Upheld base all d p x (base.Holds x) := by
  intro settled checked joined left
  have hsame : d.same p = true := by rw [Port.same_comm, selects.same]
  have pnamed : p.name = name := ((Port.same_iff.1 selects.same).1).trans named
  have derivable : ∃ rules, deriveRules (ruleView d p) = .ok rules :=
    placed_of_same hsame ▸ routed.placed d wanted
  have hsettled : Selects d before settled := selects.other p.same_refl
  have hchecked : Selects p before checked := selects.self.other p.same_refl
  have hjoined : Selects p before joined := selects.self.other p.same_refl
  obtain ⟨retained, hretention, mem_retained⟩ :=
    effect_retention (base.withPorts .elastic name (before ++ settled :: after)) routed.placed
  have mem_retained : _ → ∀ x, x ∈ retained ↔ Retains base all p d x := fun needed x =>
    (mem_retained needed x).trans (retains_congr (protects_withPorts base _ _ _) ..)
  have check : settled.healthCheck = p.healthCheck := rfl
  obtain ⟨base₁, hcheck, same₁, holds₁⟩ := effect_changeCheck base after named hsettled check
    routed.granted derivable fun changed held => mem_retained (.inl ⟨changed, held⟩)
  obtain ⟨base₂, hjoin, same₂, holds₂⟩ := effect_join base₁ after pnamed hchecked rfl derivable
  obtain ⟨base₃, hleave, same₃, holds₃⟩ := effect_leave base₂ after pnamed hjoined rfl derivable
    fun leaving x => (mem_retained (.inr leaving) x).trans
      (retains_congr (same₁.trans same₂).protects ..).symm
  refine ⟨retained, base₁, base₂, base₃, hretention, hcheck, hjoin, hleave,
    (same₁.trans same₂).trans same₃, fun x => ?_⟩
  rw [holds₃, holds₂, holds₁, joins_congr same₁.protects,
    leaves_congr (same₁.trans same₂).protects, Upheld]

theorem effect_syncPort (base : Inventory) (after : List ElasticPort) (named : d.name = name)
    (selects : Selects d before p) (routed : Routed all p) (wanted : d ∈ all) :
    ∃ base', (syncPort all d p).effect (base.withPorts .elastic name (before ++ p :: after)) =
        (.ok (), base'.withPorts .elastic name (before ++ d.synced p :: after)) ∧
      base.SameButRules base' ∧ ∀ x, base'.Holds x ↔ Upheld base all d p x (base.Holds x) := by
  let settled : ElasticPort := { p with settings := d.settings }
  let left : ElasticPort := { settled with
    healthCheck := d.healthCheck
    backends := syncedBackends d.backends p.backends }
  have hleft : Selects d before left := selects.other p.same_refl
  have hsettings : (updateSettings (k := .elastic) d p).effect
      (base.withPorts .elastic name (before ++ p :: after)) =
        (.ok (), base.withPorts .elastic name (before ++ settled :: after)) :=
    effect_updateSettings named selects
  have hfilter (base : Inventory) : (setFilter (k := .elastic) d p.filters).effect
      (base.withPorts .elastic name (before ++ left :: after)) =
        (.ok (), base.withPorts .elastic name (before ++ d.synced p :: after)) :=
    effect_setFilter named hleft p.filters
  obtain ⟨retained, base₁, base₂, base₃, hretention, hcheck, hjoin, hleave, same, holds⟩ :=
    effect_stages base after named selects routed wanted
  refine ⟨base₃, ?_, same, holds⟩
  rw [syncPort_eq, Job.effect_bind_ok hsettings, Job.effect_bind_ok hretention,
    Job.effect_bind_ok hcheck, Job.effect_bind_ok hjoin, Job.effect_bind_ok hleave, hfilter]

theorem filter_others_eq {p q s : ElasticPort} (before after : List ElasticPort)
    (hp : p.same s = true) (hq : q.same s = true) :
    (before ++ q :: after).filter (!·.same s) = (before ++ p :: after).filter (!·.same s) := by
  simp [hp, hq]

/-- A port goes with its backends and with the grants that only it needs. -/
theorem effect_dropPort {ports : List ElasticPort} (base : Inventory) (apart : Apart ports)
    (held : p ∈ ports) (named : p.name = name) (granted : ∃ rules, grantedRules p = .ok rules)
    (retained : List Grant) :
    ∃ base', (do deregisterTargets p p.backends [] retained; deletePort (k := .elastic) name p :
          Job Unit).effect (base.withPorts .elastic name ports) =
        (.ok (), base'.withPorts .elastic name (ports.filter (!·.same p))) ∧
      base.SameButRules base' ∧
      ∀ x, base'.Holds x ↔
        base.Holds x ∧ ¬ (base.Protects p.backends x.1 ∧ Derives p x.2 ∧ x ∉ retained) := by
  obtain ⟨before, after, rfl⟩ := List.append_of_mem held
  have selects : Selects p before p :=
    ⟨fun q hq => (List.pairwise_append.1 apart).2.2 q hq p List.mem_cons_self, p.same_refl⟩
  have hremoved : removeBackends p.backends p.backends = .ok _ :=
    removeBackends_of_same fun b hb => ⟨b, hb, b.same_refl⟩
  obtain ⟨base', heffect, same, holds⟩ :=
    effect_deregisterTargets base after named selects hremoved granted [] retained
  refine ⟨base', ?_, same, fun x => by simpa using holds x⟩
  rw [Job.effect_bind_ok heffect, effect_deletePort (k := .elastic) named]
  · exact congrArg (fun ports => (Except.ok (), base'.withPorts .elastic name ports))
      (filter_others_eq before after p.same_refl p.same_refl)
  · exact ⟨_, List.mem_append_right _ List.mem_cons_self, p.same_refl⟩

/-- One port of a balancer that is deleted. -/
def dropPort (name : String) (p : ElasticPort) : Job Unit := do
  unless p.backends.isEmpty do deregisterTargets p p.backends [] []
  deletePort (k := .elastic) name p

theorem effect_deleteListed {ports : List ElasticPort} (base : Inventory) (apart : Apart ports)
    (held : p ∈ ports) (named : p.name = name)
    (granted : p.backends ≠ [] → ∃ rules, grantedRules p = .ok rules) :
    ∃ base', (dropPort name p).effect (base.withPorts .elastic name ports) =
        (.ok (), base'.withPorts .elastic name (ports.filter (!·.same p))) ∧
      base.SameButRules base' ∧
      ∀ x, base'.Holds x ↔ base.Holds x ∧ ¬ (base.Protects p.backends x.1 ∧ Derives p x.2) := by
  unfold dropPort
  by_cases idle : p.backends = []
  · refine ⟨base, ?_, .refl base, fun x => by simp [idle]⟩
    rw [idle]
    exact effect_deletePort (k := .elastic) named ⟨p, held, p.same_refl⟩
  · obtain ⟨base', heffect, same, holds⟩ :=
      effect_dropPort base apart held named (granted idle) []
    exact ⟨base', by simpa [idle] using heffect, same, fun x => by simpa using holds x⟩

theorem effect_deleteStale {ports : List ElasticPort} (base : Inventory) (apart : Apart ports)
    (held : p ∈ ports) (named : p.name = name) (routed : Routed desired p) :
    ∃ base', (deleteStale name desired p).effect (base.withPorts .elastic name ports) =
        (.ok (), base'.withPorts .elastic name (ports.filter (!·.same p))) ∧
      base.SameButRules base' ∧
      ∀ x, base'.Holds x ↔ base.Holds x ∧
        ¬ (base.Protects p.backends x.1 ∧ Derives p x.2 ∧ ¬ Retains base desired p p x) := by
  unfold deleteStale
  by_cases idle : p.backends = []
  · refine ⟨base, ?_, .refl base, fun x => by simp [idle]⟩
    rw [idle]
    exact effect_deletePort (k := .elastic) named ⟨p, held, p.same_refl⟩
  · obtain ⟨retained, hretained, mem_retained⟩ :=
      effect_retainedGrants (base.withPorts .elastic name ports) p routed.placed
    obtain ⟨base', heffect, same, holds⟩ :=
      effect_dropPort base apart held named routed.granted retained
    refine ⟨base', ?_, same, fun x => ?_⟩
    · simpa [idle, Job.effect_bind_ok hretained] using heffect
    · rw [holds, mem_retained, retains_congr (protects_withPorts base _ _ _)]

/-- A new port is configured in three jobs, which follow one another where none of them waits. -/
theorem effect_configureNewPort (base : Inventory) (after : List ElasticPort)
    (named : d.name = name) (selects : Selects d before p) (settings : p.settings = d.settings)
    (backends : p.backends = []) (filters : p.filters = [])
    (derivable : ∃ rules, deriveRules (ruleView d p) = .ok rules) :
    ∃ base', (configureNewPort name d p).effect
          (base.withPorts .elastic name (before ++ p :: after)) =
        (.ok (), base'.withPorts .elastic name (before ++ d.synced p :: after)) ∧
      base.SameButRules base' ∧ ∀ x, base'.Holds x ↔ base.Holds x ∨ Joins base d p x := by
  let checked : ElasticPort := { p with healthCheck := d.healthCheck }
  let joined : ElasticPort := { checked with backends := addBackends [] d.backends }
  have joining : backendDifferences d.backends p.backends = d.backends := by
    rw [backends]
    exact differences_nil ..
  have pnamed : p.name = name := ((Port.same_iff.1 selects.same).1).trans named
  have hchecked : Selects p before checked := selects.self.other p.same_refl
  have hjoined : Selects d before joined := selects.other p.same_refl
  have hsynced : d.synced p = { joined with
      filters := applyChanges p.filters (filterChanges d.filters []) } := by
    simp [Port.synced, joined, checked, settings, backends, filters, syncedBackends_nil,
      syncedFilters]
  have hcheck : (configureHealthCheck (k := .elastic) d).effect
      (base.withPorts .elastic name (before ++ p :: after)) =
        (.ok (), base.withPorts .elastic name (before ++ checked :: after)) :=
    effect_configureHealthCheck named selects
  have hfilter (base : Inventory) : (setFilter (k := .elastic) d []).effect
      (base.withPorts .elastic name (before ++ joined :: after)) =
        (.ok (), base.withPorts .elastic name (before ++ d.synced p :: after)) := by
    rw [hsynced]
    exact effect_setFilter named hjoined []
  obtain ⟨base', hjoin, same, holds⟩ :=
    effect_join base after pnamed hchecked (rfl : checked.backends = p.backends) derivable
  rw [joining, backends] at hjoin
  refine ⟨base', ?_, same, holds⟩
  have hregister : (if d.backends.isEmpty then return
      else registerTargets (ruleView d p) d.backends : Job Unit).effect
        (base.withPorts .elastic name (before ++ checked :: after)) =
          (.ok (), base'.withPorts .elastic name (before ++ joined :: after)) := by
    rw [← hjoin, join, joining]
  rw [configureNewPort, Program.effect_group_cons_ok hcheck,
    Program.effect_group_cons_ok hregister, Program.effect_group_cons_ok (hfilter base'),
    Program.effect_group_nil]

end Reconcile.Elastic

end CloudBalancer
