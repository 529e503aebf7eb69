import CloudBalancer.Proofs.Steps
import CloudBalancer.Reconcile.Ingress

/-!
The upkeep of security groups in its effect. Granting and withdrawing change nothing but the rules
of groups, and which grants hold afterwards is said exactly, each grant for itself.
-/

namespace CloudBalancer

namespace Inventory

variable {inv : Inventory} {k : Kind} {name : String} {x y : Grant} {grants : List Grant}

/-- The instances that a group protects. -/
def members (inv : Inventory) (group : String) : List String :=
  ((inv.groups.get? group).getD {}).instanceIds

theorem rulesOf_eq (inv : Inventory) (group : String) :
    inv.rulesOf group = ((inv.groups.get? group).getD {}).rules := by
  rw [rulesOf]
  cases inv.groups.get? group <;> rfl

/-- Whether a grant is in force. -/
def Holds (inv : Inventory) (x : Grant) : Prop :=
  x.2 ∈ inv.rulesOf x.1

/-- Whether a group protects one of the backends. -/
def Protects (inv : Inventory) (backends : List Backend) (group : String) : Prop :=
  ∃ b ∈ backends, b.instanceId ∈ inv.members group

theorem Protects.mono {backends more : List Backend} {group : String}
    (h : inv.Protects backends group) (subset : backends ⊆ more) : inv.Protects more group := by
  obtain ⟨b, hb, hmember⟩ := h
  exact ⟨b, subset hb, hmember⟩

@[simp]
theorem not_protects_nil (inv : Inventory) (group : String) : ¬ inv.Protects [] group := by
  simp [Protects]

theorem mem_groupsOf {ids : List String} {group : String} :
    group ∈ inv.groupsOf ids ↔ ∃ id ∈ ids, id ∈ inv.members group := by
  rw [groupsOf, List.mem_map]
  constructor
  · rintro ⟨⟨key, value⟩, hentry, rfl⟩
    obtain ⟨hentry, hany⟩ := List.mem_filter.1 hentry
    obtain ⟨id, hid, hids⟩ := List.any_eq_true.1 hany
    have held := (inv.groups.mem_entries_iff key value).1 hentry
    exact ⟨id, by simpa using hids, by simpa [members, held] using hid⟩
  · rintro ⟨id, hid, hmember⟩
    cases hgroup : inv.groups.get? group with
    | none => simp [members, hgroup] at hmember
    | some value =>
        simp only [members, hgroup, Option.getD_some] at hmember
        refine ⟨(group, value), List.mem_filter.2 ⟨?_, ?_⟩, rfl⟩
        · exact (inv.groups.mem_entries_iff group value).2 hgroup
        · exact List.any_eq_true.2 ⟨id, hmember, by simpa using hid⟩

/-- The inventory with other rules on one group. -/
def setRules (inv : Inventory) (group : String) (rules : List Rule) : Inventory :=
  { inv with groups := inv.groups.insert group { instanceIds := inv.members group, rules } }

@[simp]
theorem members_setRules (inv : Inventory) (group key : String) (rules : List Rule) :
    (inv.setRules group rules).members key = inv.members key := by
  by_cases h : key = group <;> simp [members, setRules, h]

theorem rulesOf_setRules (inv : Inventory) (group key : String) (rules : List Rule) :
    (inv.setRules group rules).rulesOf key = if key = group then rules else inv.rulesOf key := by
  by_cases h : key = group <;> simp [rulesOf, setRules, h]

theorem setRules_withPorts (inv : Inventory) (k : Kind) (name : String) (ports : List k.Port)
    (group : String) (rules : List Rule) :
    (inv.withPorts k name ports).setRules group rules =
      (inv.setRules group rules).withPorts k name ports := by
  cases k <;> rfl

@[simp]
theorem members_withPorts (inv : Inventory) (k : Kind) (name : String) (ports : List k.Port)
    (group : String) : (inv.withPorts k name ports).members group = inv.members group := by
  rw [members, groups_withPorts, ← members]

@[simp]
theorem rulesOf_withPorts (inv : Inventory) (k : Kind) (name : String) (ports : List k.Port)
    (group : String) : (inv.withPorts k name ports).rulesOf group = inv.rulesOf group := by
  rw [rulesOf, groups_withPorts, ← rulesOf]

@[simp]
theorem holds_withPorts (inv : Inventory) (k : Kind) (name : String) (ports : List k.Port)
    (x : Grant) : (inv.withPorts k name ports).Holds x ↔ inv.Holds x := by
  simp [Holds]

/-- The inventory with one grant more. -/
def grant (inv : Inventory) (x : Grant) : Inventory :=
  if x.2 ∈ inv.rulesOf x.1 then inv else inv.setRules x.1 (inv.rulesOf x.1 ++ [x.2])

/-- The inventory without one grant. -/
def withdraw (inv : Inventory) (x : Grant) : Inventory :=
  if x.2 ∈ inv.rulesOf x.1 then inv.setRules x.1 ((inv.rulesOf x.1).filter (· != x.2)) else inv

def grantAll (inv : Inventory) (grants : List Grant) : Inventory :=
  grants.foldl grant inv

def withdrawAll (inv : Inventory) (grants : List Grant) : Inventory :=
  grants.foldl withdraw inv

theorem holds_grant : (inv.grant x).Holds y ↔ inv.Holds y ∨ y = x := by
  unfold grant
  split
  · next h => exact ⟨.inl, fun hy => hy.elim id fun heq => heq ▸ h⟩
  · by_cases h : y.1 = x.1 <;> simp [Holds, rulesOf_setRules, h, Prod.ext_iff]

theorem holds_withdraw : (inv.withdraw x).Holds y ↔ inv.Holds y ∧ y ≠ x := by
  unfold withdraw
  split
  · by_cases h : y.1 = x.1 <;> simp [Holds, rulesOf_setRules, h, Prod.ext_iff]
  · next h => exact ⟨fun hy => ⟨hy, fun heq => h (heq ▸ hy)⟩, And.left⟩

theorem holds_grantAll : (inv.grantAll grants).Holds y ↔ inv.Holds y ∨ y ∈ grants := by
  induction grants generalizing inv with
  | nil => simp [grantAll]
  | cons x rest ih =>
      show ((inv.grant x).grantAll rest).Holds y ↔ _
      rw [ih, holds_grant, List.mem_cons, or_assoc]

theorem holds_withdrawAll : (inv.withdrawAll grants).Holds y ↔ inv.Holds y ∧ y ∉ grants := by
  induction grants generalizing inv with
  | nil => simp [withdrawAll]
  | cons x rest ih =>
      show ((inv.withdraw x).withdrawAll rest).Holds y ↔ _
      rw [ih, holds_withdraw, List.mem_cons, not_or, and_assoc]

theorem grantAll_withPorts (inv : Inventory) (k : Kind) (name : String) (ports : List k.Port)
    (grants : List Grant) :
    (inv.withPorts k name ports).grantAll grants =
      (inv.grantAll grants).withPorts k name ports := by
  induction grants generalizing inv with
  | nil => rfl
  | cons x rest ih =>
      refine Eq.trans ?_ (ih (inv.grant x))
      have first : (inv.withPorts k name ports).grant x = (inv.grant x).withPorts k name ports := by
        simp only [grant, rulesOf_withPorts, setRules_withPorts]
        split <;> rfl
      exact congrArg (grantAll · rest) first

theorem withdrawAll_withPorts (inv : Inventory) (k : Kind) (name : String) (ports : List k.Port)
    (grants : List Grant) :
    (inv.withPorts k name ports).withdrawAll grants =
      (inv.withdrawAll grants).withPorts k name ports := by
  induction grants generalizing inv with
  | nil => rfl
  | cons x rest ih =>
      refine Eq.trans ?_ (ih (inv.withdraw x))
      have first :
          (inv.withPorts k name ports).withdraw x = (inv.withdraw x).withPorts k name ports := by
        simp only [withdraw, rulesOf_withPorts, setRules_withPorts]
        split <;> rfl
      exact congrArg (withdrawAll · rest) first

end Inventory

namespace Reconcile

variable {inv : Inventory}

theorem effect_grant (target : Target) (x : Grant) :
    (grant target x.1 x.2).effect inv = (.ok (), inv.grant x) := by
  by_cases h : x.2 ∈ inv.rulesOf x.1
  · have refused : inv.apply (.authorize x.1 x.2) =
        .error ⟨.duplicateRule, s!"security group {x.1} already has rule {x.2.text}"⟩ := by
      have hcontains : ((inv.groups.get? x.1).getD {}).rules.contains x.2 = true := by
        simpa [Inventory.rulesOf_eq] using h
      rw [Inventory.apply, Inventory.authorize, if_pos hcontains]
      rfl
    rw [grant, Job.effect_bind_ok (Job.effect_remoteUnless_harmless target refused)]
    simp [Inventory.grant, h]
  · have granted : inv.apply (.authorize x.1 x.2) = .ok ((), inv.grant x) := by
      have hcontains : ¬ ((inv.groups.get? x.1).getD {}).rules.contains x.2 = true := by
        simpa [Inventory.rulesOf_eq] using h
      rw [Inventory.apply, Inventory.authorize, if_neg hcontains, Inventory.grant, if_neg h,
        Inventory.rulesOf_eq]
      rfl
    rw [grant, Job.effect_bind_ok (Job.effect_remoteUnless_ok _ target granted)]
    rfl

theorem effect_withdraw (target : Target) (x : Grant) :
    (withdraw target x.1 x.2).effect inv = (.ok (), inv.withdraw x) := by
  by_cases h : x.2 ∈ inv.rulesOf x.1
  · have withdrawn : inv.apply (.revoke x.1 x.2) = .ok ((), inv.withdraw x) := by
      cases hgroup : inv.groups.get? x.1 with
      | none => simp [Inventory.rulesOf, hgroup] at h
      | some group =>
          have held : inv.rulesOf x.1 = group.rules := by simp [Inventory.rulesOf, hgroup]
          have shorter : ¬ (group.rules.filter (· != x.2)).length = group.rules.length := by
            rw [List.length_filter_eq_length_iff, ← held]
            exact fun hall => by simpa using hall x.2 h
          rw [Inventory.apply, Inventory.revoke, hgroup, Inventory.withdraw, if_pos h, held]
          simp only [shorter, if_false, Except.map, Inventory.setRules, Inventory.members, hgroup]
          rfl
    rw [withdraw, Job.effect_bind_ok (Job.effect_remoteUnless_ok _ target withdrawn)]
    rfl
  · obtain ⟨e, hcode, refused⟩ : ∃ e : ApiError, e.code = .ingressNotFound ∧
        inv.apply (.revoke x.1 x.2) = .error e := by
      cases hgroup : inv.groups.get? x.1 with
      | none =>
          exact ⟨_, rfl, by rw [Inventory.apply, Inventory.revoke, hgroup]; rfl⟩
      | some group =>
          have held : inv.rulesOf x.1 = group.rules := by simp [Inventory.rulesOf, hgroup]
          have unchanged : group.rules.filter (· != x.2) = group.rules := by
            rw [List.filter_eq_self, ← held]
            intro rule hrule
            simpa using fun heq : rule = x.2 => h (heq ▸ hrule)
          exact ⟨_, rfl, by simp [Inventory.apply, Inventory.revoke, hgroup, unchanged]; rfl⟩
    rw [withdraw, ← hcode, Job.effect_bind_ok (Job.effect_remoteUnless_harmless target refused)]
    simp [Inventory.withdraw, h]

theorem effect_awaitApplied (target : Target) (group : String) :
    (awaitApplied target group).effect inv = (.ok (), inv) :=
  Job.effect_remote_ok target rfl

theorem grantAll_append (inv : Inventory) (first second : List Grant) :
    inv.grantAll (first ++ second) = (inv.grantAll first).grantAll second :=
  List.foldl_append ..

theorem withdrawAll_append (inv : Inventory) (first second : List Grant) :
    inv.withdrawAll (first ++ second) = (inv.withdrawAll first).withdrawAll second :=
  List.foldl_append ..

theorem effect_forEach_grant (target : Target) (group : String) (rules : List Rule) :
    (Job.forEach rules (grant target group)).effect inv =
      (.ok (), inv.grantAll (rules.map (group, ·))) := by
  induction rules generalizing inv with
  | nil => rfl
  | cons rule rest ih =>
      rw [Job.forEach_cons, Job.effect_bind_ok (effect_grant target (group, rule)), ih]
      rfl

theorem effect_forEach_withdraw (target : Target) (group : String) (rules : List Rule) :
    (Job.forEach rules (withdraw target group)).effect inv =
      (.ok (), inv.withdrawAll (rules.map (group, ·))) := by
  induction rules generalizing inv with
  | nil => rfl
  | cons rule rest ih =>
      rw [Job.forEach_cons, Job.effect_bind_ok (effect_withdraw target (group, rule)), ih]
      rfl

theorem effect_authorize (target : Target) (groups : List String) (rules : List Rule) :
    (authorize target groups rules).effect inv =
      (.ok (), inv.grantAll (groups.flatMap fun group => rules.map (group, ·))) := by
  unfold authorize
  split
  · next none =>
    have nothing : groups.flatMap (fun group => rules.map (group, ·)) = [] := by
      simp [List.isEmpty_iff.1 none]
    rw [nothing]
    rfl
  · induction groups generalizing inv with
    | nil => rfl
    | cons group rest ih =>
        have first : (do Job.forEach rules (grant target group); awaitApplied target group :
            Job Unit).effect inv = (.ok (), inv.grantAll (rules.map (group, ·))) := by
          rw [Job.effect_bind_ok (effect_forEach_grant target group rules), effect_awaitApplied]
        rw [Job.forEach_cons, Job.effect_bind_ok first, ih, List.flatMap_cons, grantAll_append]

theorem effect_revoke (target : Target) (groups : List String) (rules : List Rule)
    (retained : List Grant) :
    (revoke target groups rules retained).effect inv =
      (.ok (), inv.withdrawAll (groups.flatMap fun group =>
        (rules.filter fun rule => !retained.contains (group, rule)).map (group, ·))) := by
  unfold revoke
  induction groups generalizing inv with
  | nil => rfl
  | cons group rest ih =>
      rw [Job.forEach_cons, List.flatMap_cons, withdrawAll_append, ← ih]
      refine Job.effect_bind_ok (?_ : _ = (Except.ok (), _))
      dsimp only
      split
      · next none =>
        rw [List.isEmpty_iff.1 none]
        rfl
      · rw [Job.effect_bind_ok (effect_forEach_withdraw target group _), effect_awaitApplied]

/-- The groups of the backends, as a look-up answers. -/
theorem effect_groupsOf (inv : Inventory) (target : Target) (backends : List Backend) :
    ∃ groups, (groupsOf target backends).effect inv = (.ok groups, inv) ∧
      ∀ group, group ∈ groups ↔ inv.Protects backends group := by
  unfold groupsOf
  split
  · next none => exact ⟨[], rfl, by simp [List.isEmpty_iff.1 none]⟩
  · have answered : inv.apply (.groupsOf (instanceIds backends)) =
        .ok (inv.groupsOf (instanceIds backends), inv) := rfl
    refine ⟨_, Job.effect_bind_ok (Job.effect_remote_ok target answered), fun group => ?_⟩
    simp [Inventory.mem_groupsOf, Inventory.Protects, instanceIds]

theorem effect_groupsOfLeaving (inv : Inventory) (target : Target) (backends : List Backend) :
    ∃ groups, (groupsOfLeaving target backends).effect inv = (.ok (some groups), inv) ∧
      ∀ group, group ∈ groups ↔ inv.Protects backends group := by
  unfold groupsOfLeaving
  split
  · next none => exact ⟨[], rfl, by simp [List.isEmpty_iff.1 none]⟩
  · have answered : inv.apply (.groupsOf (instanceIds backends)) =
        .ok (inv.groupsOf (instanceIds backends), inv) := rfl
    refine ⟨_, Job.effect_bind_ok (Job.effect_remoteUnless_ok _ target answered), fun group => ?_⟩
    simp [Inventory.mem_groupsOf, Inventory.Protects, instanceIds]

end Reconcile

end CloudBalancer
