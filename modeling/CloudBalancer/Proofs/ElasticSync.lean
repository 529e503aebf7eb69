import CloudBalancer.Proofs.ElasticSteps

/-!
The effect of whole reconciliations and deletions of an elastic balancer, where nothing goes
wrong: which ports there are in the end, and for each grant, on its own, whether it holds. The
only failure left is that two ports with one port pair are to be registered, which changes no
grant.
-/

namespace CloudBalancer

variable {α : Type}

/-- What is desired of a port, or the port itself if nothing is. -/
def counterpart (desired : List (Port α)) (p : Port α) : Port α :=
  (desired.find? (·.same p)).getD p

theorem counterpart_eq {desired : List (Port α)} (unambiguous : Unambiguous desired) {d p : Port α}
    (hd : d ∈ desired) (hsame : d.same p = true) : counterpart desired p = d := by
  rw [counterpart, find?_of_unambiguous unambiguous hd hsame, Option.getD_some]

namespace Reconcile.Elastic

open Inventory

variable {base : Inventory} {name : String} {first : ElasticPort}
  {after desired current : List ElasticPort}

/-- Whether a grant holds once the ports are synchronised one after the other. -/
def UpheldAll (inv : Inventory) (desired ports : List ElasticPort) (x : Grant) (held : Prop) :
    Prop :=
  ports.foldl (fun held p => Upheld inv desired (counterpart desired p) p x held) held

theorem upheldAll_cons (inv : Inventory) (desired rest : List ElasticPort) (p : ElasticPort)
    (x : Grant) (held : Prop) :
    UpheldAll inv desired (p :: rest) x held =
      UpheldAll inv desired rest x (Upheld inv desired (counterpart desired p) p x held) := rfl

theorem upheldAll_congr {inv other : Inventory}
    (h : ∀ backends group, other.Protects backends group ↔ inv.Protects backends group)
    (desired ports : List ElasticPort) (x : Grant) (held : Prop) :
    UpheldAll other desired ports x held ↔ UpheldAll inv desired ports x held := by
  induction ports generalizing held with
  | nil => exact Iff.rfl
  | cons p rest ih =>
      rw [upheldAll_cons, upheldAll_cons, ih, upheld_congr h]

theorem effect_syncAll (base : Inventory) (unambiguous : Unambiguous desired)
    (named : ∀ d ∈ desired, d.name = name) (covers : Covers name desired current)
    (routed : ∀ p ∈ current, Routed desired p) :
    ∃ base', (Job.forEach current fun p => do
          syncPort desired (← Job.ofExcept (desiredFor desired p)) p).effect
          (base.withPorts .elastic name current) =
        (.ok (), base'.withPorts .elastic name (current.map (Port.syncedBy desired))) ∧
      base.SameButRules base' ∧
      ∀ x, base'.Holds x ↔ UpheldAll base desired current x (base.Holds x) := by
  let Reached (done rest : List ElasticPort) (inv : Inventory) : Prop :=
    current = done ++ rest ∧ ∃ base',
      inv = base'.withPorts .elastic name (done.map (Port.syncedBy desired) ++ rest) ∧
      base.SameButRules base' ∧
      ∀ x, base'.Holds x ↔ UpheldAll base desired done x (base.Holds x)
  have hstep : ∀ done p rest inv, Reached done (p :: rest) inv →
      ∃ inv', (do syncPort desired (← Job.ofExcept (desiredFor desired p)) p).effect inv =
        (.ok (), inv') ∧ Reached (done ++ [p]) rest inv' := by
    rintro done p rest _ ⟨rfl, base₁, rfl, same₁, holds₁⟩
    obtain ⟨d, hd, hsame⟩ := covers.sound p (by simp)
    have hfor (inv : Inventory) :
        (Job.ofExcept (desiredFor desired p)).effect inv = (.ok d, inv) := by
      rw [Job.effect_ofExcept, desiredFor_eq unambiguous hd hsame]
    have selects := covers.selects hsame
    obtain ⟨base₂, heffect, same₂, holds₂⟩ :=
      effect_syncPort base₁ rest (named d hd) selects (routed p (by simp)) hd
    refine ⟨_, (Job.effect_bind_ok (hfor _)).trans heffect, by simp, base₂, ?_,
      same₁.trans same₂, fun x => ?_⟩
    · simp [Port.syncedBy_eq unambiguous hd hsame]
    · rw [holds₂, holds₁, upheld_congr same₁.protects, UpheldAll, UpheldAll, List.foldl_append,
        ← counterpart_eq unambiguous hd hsame]
      rfl
  have start : Reached [] current (base.withPorts .elastic name current) :=
    ⟨rfl, base, rfl, .refl base, fun x => Iff.rfl⟩
  obtain ⟨_, heffect, -, base', rfl, same, holds⟩ := Job.effect_forEach Reached hstep start
  exact ⟨base', by simpa using heffect, same, holds⟩

/-- Where nothing is registered yet, grants only come. -/
theorem upheldAll_of_idle {inv : Inventory} {ports : List ElasticPort}
    (idle : ∀ p ∈ ports, p.backends = []) (x : Grant) (held : Prop) :
    UpheldAll inv desired ports x held ↔
      held ∨ ∃ p ∈ ports, Joins inv (counterpart desired p) p x := by
  induction ports generalizing held with
  | nil => simp [UpheldAll]
  | cons p rest ih =>
      have hp : p.backends = [] := idle p List.mem_cons_self
      have none_leaves : backendDifferences [] (counterpart desired p).backends = [] := rfl
      have upheld : Upheld inv desired (counterpart desired p) p x held ↔
          held ∨ Joins inv (counterpart desired p) p x := by
        simp [Upheld, Refreshes, Expires, Leaves, hp, none_leaves]
      rw [upheldAll_cons, ih fun q hq => idle q (.tail p hq), upheld, or_assoc]
      simp

/-- Whether a grant survives the deletion of the stale ports. -/
def Survives (inv : Inventory) (desired stale : List ElasticPort) (x : Grant) : Prop :=
  ∀ p ∈ stale, ¬ (inv.Protects p.backends x.1 ∧ Derives p x.2 ∧ ¬ Retains inv desired p p x)

theorem effect_deleteStales {ports stale : List ElasticPort} (base : Inventory)
    (apart : Apart ports) (staleApart : Apart stale) (held : stale ⊆ ports)
    (named : ∀ p ∈ ports, p.name = name) (routed : ∀ p ∈ stale, Routed desired p) :
    ∃ base', (Job.forEach stale (deleteStale name desired)).effect
          (base.withPorts .elastic name ports) =
        (.ok (), base'.withPorts .elastic name
          (ports.filter fun p => !stale.any (p.same ·))) ∧
      base.SameButRules base' ∧
      ∀ x, base'.Holds x ↔ base.Holds x ∧ Survives base desired stale x := by
  let Reached (done rest : List ElasticPort) (inv : Inventory) : Prop :=
    stale = done ++ rest ∧ ∃ base',
      inv = base'.withPorts .elastic name (ports.filter fun p => !done.any (p.same ·)) ∧
      base.SameButRules base' ∧
      ∀ x, base'.Holds x ↔ base.Holds x ∧ Survives base desired done x
  have hstep : ∀ done s rest inv, Reached done (s :: rest) inv →
      ∃ inv', (deleteStale name desired s).effect inv = (.ok (), inv') ∧
        Reached (done ++ [s]) rest inv' := by
    rintro done s rest _ ⟨rfl, base₁, rfl, same₁, holds₁⟩
    have hs : s ∈ ports := held (by simp)
    obtain ⟨base₂, heffect, same₂, holds₂⟩ := effect_deleteStale base₁ (apart.filter _)
      (mem_left (k := .elastic) staleApart hs) (named s hs) (routed s (by simp))
    refine ⟨_, heffect, by simp, base₂, ?_, same₁.trans same₂, fun x => ?_⟩
    · rw [filter_more (k := .elastic)]
    · rw [holds₂, holds₁, same₁.protects, retains_congr same₁.protects]
      simp only [Survives, List.mem_append, List.mem_singleton, or_imp, forall_and, forall_eq,
        and_assoc]
  have start : Reached [] stale (base.withPorts .elastic name ports) :=
    ⟨rfl, base, congrArg _ (List.filter_eq_self.2 fun _ _ => rfl).symm, .refl base,
      fun x => by simp [Survives]⟩
  obtain ⟨_, heffect, -, base', rfl, same, holds⟩ := Job.effect_forEach Reached hstep start
  exact ⟨base', heffect, same, holds⟩

/-- Synchronising the port pairs. It fails where two desired ports are the same, and then nothing
but new ports came about. -/
theorem effect_syncPorts (base : Inventory) (hnew : desired ≠ [])
    (named : ∀ d ∈ desired, d.name = name) (currentNamed : ∀ p ∈ first :: after, p.name = name)
    (currentApart : Apart (first :: after)) (routed : ∀ p ∈ first :: after, Routed desired p) :
    (∃ base', (syncPorts name desired (first :: after)).effect
            (base.withPorts .elastic name (first :: after)) =
          (.ok (mergedPorts (k := .elastic) first desired (first :: after)),
            base'.withPorts .elastic name
              (mergedPorts (k := .elastic) first desired (first :: after))) ∧
        Covers name desired (mergedPorts (k := .elastic) first desired (first :: after)) ∧
        base.SameButRules base' ∧
        ∀ x, base'.Holds x ↔
          base.Holds x ∧ Survives base desired (portDifferences (first :: after) desired) x) ∨
      ¬ Apart desired ∧ ∃ e done, done ⊆ desired ∧
        (syncPorts name desired (first :: after)).effect
            (base.withPorts .elastic name (first :: after)) =
          (.error e, base.withPorts .elastic name
            (first :: after ++ done.map (freshPort (k := .elastic) first))) := by
  have missingNamed : ∀ p ∈ portDifferences desired (first :: after), p.name = name :=
    fun p hp => named p (mem_portDifferences.1 hp).1
  unfold syncPorts
  dsimp only
  split
  · next none =>
    simp only [Bool.and_eq_true, List.isEmpty_iff] at none
    have hmerged := mergedPorts_of_covers (k := .elastic) first none.1 none.2
    have covers : Covers name desired
        (mergedPorts (k := .elastic) first desired (first :: after)) :=
      covers_mergedPorts (k := .elastic) first (by rw [none.1]; exact .nil) named currentApart
        currentNamed
    refine .inl ⟨base, ?_, covers, .refl base, fun x => by simp [Survives, none.2]⟩
    rw [hmerged]
    rfl
  · rcases (adds_freshPort (k := .elastic) base name first).effect_forEach missingNamed
      currentApart with ⟨apart, hregister⟩ | ⟨taken, e, done, hbegins, -, hfailed⟩
    · have covers : Covers name desired
          (mergedPorts (k := .elastic) first desired (first :: after)) :=
        covers_mergedPorts (k := .elastic) first (List.pairwise_append.1 apart).2.1 named
          currentApart currentNamed
      have staleHeld : portDifferences (first :: after) desired ⊆ first :: after ++
          (portDifferences desired (first :: after)).map (freshPort (k := .elastic) first) :=
        fun p hp => List.mem_append_left _ (mem_portDifferences.1 hp).1
      obtain ⟨base', hdelete, same, holds⟩ := effect_deleteStales base
        (apart_grown (k := .elastic) first apart)
        (apart_portDifferences currentApart desired) staleHeld
        (named_grown (k := .elastic) first currentNamed missingNamed)
        fun p hp => routed p (mem_portDifferences.1 hp).1
      rw [filter_grown (k := .elastic)] at hdelete
      refine .inl ⟨base', ?_, covers, same, holds⟩
      refine (Job.effect_bind_ok hregister).trans ((Job.effect_bind_ok hdelete).trans ?_)
      exact effect_describeExisting (k := .elastic) (covers.ne_nil hnew)
    · have undetermined : ¬ Apart desired := fun apart =>
        taken (apart_append_missing currentApart apart)
      refine .inr ⟨undetermined, e, done, fun p hp => ?_, Job.effect_bind_error hfailed⟩
      exact (mem_portDifferences.1 (hbegins.subset hp)).1

theorem sameButRules_allocated (base : Inventory) (k : Kind) (a : k.Attachment) :
    base.SameButRules (base.allocated k a) :=
  ⟨fun k => by cases k <;> rfl, fun _ => rfl⟩

theorem holds_allocated (base : Inventory) (k : Kind) (a : k.Attachment) (x : Grant) :
    (base.allocated k a).Holds x ↔ base.Holds x := Iff.rfl

/-- Creating a balancer with all its ports. It fails where two of them are the same, and then it has
some of them. -/
theorem effect_createPorts (base : Inventory) (hnew : desired ≠ [])
    (named : ∀ d ∈ desired, d.name = name) :
    ∃ base', base.SameButRules base' ∧ (∀ x, base'.Holds x ↔ base.Holds x) ∧
      (Apart desired ∧ (createPorts name desired).effect (base.withPorts .elastic name []) =
          (.ok (), base'.withPorts .elastic name (newPorts (k := .elastic) base desired)) ∨
        ¬ Apart desired ∧ ∃ e done, done ⊆ desired ∧
          (createPorts name desired).effect (base.withPorts .elastic name []) =
            (.error e, base'.withPorts .elastic name (newPorts (k := .elastic) base done))) := by
  cases desired with
  | nil => exact absurd rfl hnew
  | cons p rest =>
      refine ⟨base.allocated .elastic p.attachment, sameButRules_allocated ..,
        holds_allocated base .elastic p.attachment, ?_⟩
      let top : ElasticPort := firstPort (k := .elastic) base p
      have apart_top : Apart ([top] ++ rest) ↔ Apart (p :: rest) := by
        rw [Apart, List.singleton_append, Apart, List.pairwise_cons, List.pairwise_cons]
        rfl
      have hcreate : (createPort (k := .elastic) name p).effect (base.withPorts .elastic name []) =
          (.ok (), (base.allocated .elastic p.attachment).withPorts .elastic name [top]) :=
        effect_createPort (named p List.mem_cons_self)
      rw [createPorts, Job.effect_bind_ok hcreate]
      rcases (adds_registerPort (k := .elastic) (base.allocated .elastic p.attachment) name
        top).effect_forEach (fun q hq => named q (List.mem_cons_of_mem p hq))
          (List.pairwise_singleton ..) with
        ⟨apart, hregister⟩ | ⟨taken, e, done, hbegins, -, hfailed⟩
      · exact .inl ⟨apart_top.1 apart, hregister⟩
      · exact .inr ⟨fun apart => taken (apart_top.2 apart), e, p :: done,
          List.cons_subset_cons p hbegins.subset, hfailed⟩

theorem effect_configureAll (base : Inventory) (unambiguous : Unambiguous desired)
    (named : ∀ d ∈ desired, d.name = name) (covers : Covers name desired current)
    (routed : ∀ p ∈ current, Routed desired p)
    (bare : ∀ p ∈ current, ∀ d ∈ desired, d.same p = true →
      p.settings = d.settings ∧ p.backends = [] ∧ p.filters = []) :
    ∃ base', (Program.forEach current fun p => do
          configureNewPort name (← Program.ofExcept (desiredFor desired p)) p).effect
          (base.withPorts .elastic name current) =
        (.ok (), base'.withPorts .elastic name (current.map (Port.syncedBy desired))) ∧
      base.SameButRules base' ∧
      ∀ x, base'.Holds x ↔
        base.Holds x ∨ ∃ p ∈ current, Joins base (counterpart desired p) p x := by
  let Reached (done rest : List ElasticPort) (inv : Inventory) : Prop :=
    current = done ++ rest ∧ ∃ base',
      inv = base'.withPorts .elastic name (done.map (Port.syncedBy desired) ++ rest) ∧
      base.SameButRules base' ∧
      ∀ x, base'.Holds x ↔ base.Holds x ∨ ∃ p ∈ done, Joins base (counterpart desired p) p x
  have hstep : ∀ done p rest inv, Reached done (p :: rest) inv →
      ∃ inv', (do configureNewPort name (← Program.ofExcept (desiredFor desired p)) p).effect inv =
        (.ok (), inv') ∧ Reached (done ++ [p]) rest inv' := by
    rintro done p rest _ ⟨rfl, base₁, rfl, same₁, holds₁⟩
    obtain ⟨d, hd, hsame⟩ := covers.sound p (by simp)
    obtain ⟨settings, backends, filters⟩ := bare p (by simp) d hd hsame
    have hfor (inv : Inventory) :
        (Program.ofExcept (desiredFor desired p)).effect inv = (.ok d, inv) := by
      rw [Program.effect_ofExcept, desiredFor_eq unambiguous hd hsame]
    have selects := covers.selects hsame
    have derivable : ∃ rules, deriveRules (ruleView d p) = .ok rules :=
      placed_of_same hsame ▸ (routed p (by simp)).placed d hd
    obtain ⟨base₂, heffect, same₂, holds₂⟩ := effect_configureNewPort base₁ rest (named d hd)
      selects settings backends filters derivable
    refine ⟨_, (Program.effect_bind_ok (hfor _)).trans heffect, by simp, base₂, ?_,
      same₁.trans same₂, fun x => ?_⟩
    · simp [Port.syncedBy_eq unambiguous hd hsame]
    · rw [holds₂, holds₁, joins_congr same₁.protects, or_assoc]
      simp [or_and_right, exists_or, counterpart_eq unambiguous hd hsame]
  have start : Reached [] current (base.withPorts .elastic name current) :=
    ⟨rfl, base, rfl, .refl base, fun x => by simp⟩
  obtain ⟨_, heffect, -, base', rfl, same, holds⟩ := Program.effect_forEach Reached hstep start
  exact ⟨base', by simpa using heffect, same, by simpa using holds⟩

theorem effect_dropPort_of_underivable {p : ElasticPort} (name : String) (inv : Inventory)
    (busy : p.backends ≠ []) (underivable : ∀ rules, grantedRules p ≠ .ok rules) :
    ∃ e inv', (dropPort name p).effect inv = (.error e, inv') := by
  obtain ⟨e, he⟩ : ∃ e, grantedRules p = .error e := by
    cases h : grantedRules p with
    | ok rules => exact absurd h (underivable rules)
    | error e => exact ⟨e, rfl⟩
  have hderegister : ∃ e inv', (deregisterTargets p p.backends [] []).effect inv =
      (.error e, inv') := by
    rw [deregisterTargets]
    cases hleaving : (deregisterLeaving p p.backends).effect inv with
    | mk result inv' =>
        cases result with
        | error e => exact ⟨e, inv', Job.effect_bind_error hleaving⟩
        | ok done =>
            rw [Job.effect_bind_ok hleaving, he]
            exact ⟨e, inv', rfl⟩
  obtain ⟨e, inv', hfailed⟩ := hderegister
  have hbusy : p.backends.isEmpty = false := by simpa using busy
  refine ⟨e, inv', ?_⟩
  simp only [dropPort, hbusy]
  exact Job.effect_bind_error hfailed

/-- What comes of deleting the ports of a balancer: they go with all their grants, or there is one
with backends whose rules cannot be derived. -/
def Cleared (name : String) (base : Inventory) (ports : List ElasticPort)
    (outcome : Except EngineError Unit × Inventory) : Prop :=
  (∃ base', outcome = (.ok (), base'.withPorts .elastic name []) ∧ base.SameButRules base' ∧
      ∀ x, base'.Holds x ↔ base.Holds x ∧
        ∀ p ∈ ports, ¬ (base.Protects p.backends x.1 ∧ Derives p x.2)) ∨
    ∃ e inv', outcome = (.error e, inv') ∧
      ∃ p ∈ ports, p.backends ≠ [] ∧ ∀ rules, grantedRules p ≠ .ok rules

theorem effect_dropAll {ports : List ElasticPort} (base : Inventory) (apart : Apart ports)
    (named : ∀ p ∈ ports, p.name = name) :
    Cleared name base ports
      ((Job.forEach ports (dropPort name)).effect (base.withPorts .elastic name ports)) := by
  let Reached (done rest : List ElasticPort) (inv : Inventory) : Prop :=
    ports = done ++ rest ∧ ∃ base',
      inv = base'.withPorts .elastic name (ports.filter fun p => !done.any (p.same ·)) ∧
      base.SameButRules base' ∧
      ∀ x, base'.Holds x ↔ base.Holds x ∧
        ∀ p ∈ done, ¬ (base.Protects p.backends x.1 ∧ Derives p x.2)
  let Failed (_ : Inventory) : Prop :=
    ∃ p ∈ ports, p.backends ≠ [] ∧ ∀ rules, grantedRules p ≠ .ok rules
  have hstep : ∀ done p rest inv, Reached done (p :: rest) inv →
      (∃ inv', (dropPort name p).effect inv = (.ok (), inv') ∧
          Reached (done ++ [p]) rest inv') ∨
        ∃ e inv', (dropPort name p).effect inv = (.error e, inv') ∧ Failed inv' := by
    rintro done p rest _ ⟨hsplit, base₁, rfl, same₁, holds₁⟩
    have hp : p ∈ ports := by simp [hsplit]
    by_cases underivable : p.backends ≠ [] ∧ ∀ rules, grantedRules p ≠ .ok rules
    · obtain ⟨e, inv', hfailed⟩ :=
        effect_dropPort_of_underivable name _ underivable.1 underivable.2
      exact .inr ⟨e, inv', hfailed, p, hp, underivable⟩
    · have left : p ∈ ports.filter fun q => !done.any (q.same ·) :=
        mem_left (k := .elastic) (hsplit ▸ apart) hp
      have granted : p.backends ≠ [] → ∃ rules, grantedRules p = .ok rules := by
        simpa using underivable
      obtain ⟨base₂, heffect, same₂, holds₂⟩ :=
        effect_deleteListed base₁ (apart.filter _) left (named p hp) granted
      refine .inl ⟨_, heffect, by simp [hsplit], base₂, ?_, same₁.trans same₂, fun x => ?_⟩
      · rw [filter_more (k := .elastic)]
      · rw [holds₂, holds₁, same₁.protects]
        simp only [List.mem_append, List.mem_singleton, or_imp, forall_and, forall_eq, and_assoc]
  have start : Reached [] ports (base.withPorts .elastic name ports) :=
    ⟨rfl, base, congrArg _ (List.filter_eq_self.2 fun _ _ => rfl).symm, .refl base, by simp⟩
  rcases Job.effect_forEach_cases Reached Failed hstep start with
    ⟨_, heffect, -, base', rfl, same, holds⟩ | ⟨e, inv', hfailed, failed⟩
  · refine .inl ⟨base', ?_, same, holds⟩
    rw [heffect, List.nil_append, filter_none (k := .elastic)]
  · exact .inr ⟨e, inv', hfailed, failed⟩

theorem effect_delete {ports : List ElasticPort} (base : Inventory) (apart : Apart ports)
    (named : ∀ p ∈ ports, p.name = name) :
    Cleared name base ports ((delete name).effect (base.withPorts .elastic name ports)) := by
  by_cases none : ports = []
  · subst none
    refine .inl ⟨base, ?_, .refl base, by simp⟩
    rw [delete, Job.effect_bind_ok (effect_describe_nil (k := .elastic))]
    rfl
  · rw [delete, Job.effect_bind_ok (effect_describe (k := .elastic) none)]
    exact effect_dropAll base apart named

end Reconcile.Elastic

end CloudBalancer
