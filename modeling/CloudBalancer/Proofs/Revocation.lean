import CloudBalancer.Proofs.Administration
import CloudBalancer.Proofs.Exactness
import CloudBalancer.Proofs.Passage

/-!
A reconciliation of an elastic balancer never asks to withdraw what one of the desired ports needs,
whatever becomes of its calls, as long as it is not misled about the balancer and the groups. What
is withdrawn depends on how the balancer is wired in; that is settled before anything is withdrawn,
and does not change until the end.
-/

namespace CloudBalancer

/-- Grants that desired ports need in the state `inv` are not among those that the `issued` calls
withdraw, and are in force if they were to `start` with. -/
def Safeguarded (start : Inventory) (name : String) (desired : List ElasticPort)
    (issued : List Call) (inv : Inventory) : Prop :=
  ∀ topology ∈ inv.ports .elastic name, ∀ d ∈ desired, ∀ group rule,
    Reconcile.Elastic.Wants inv topology d (group, rule) →
      .revoke group rule ∉ issued ∧ (start.Holds (group, rule) → inv.Holds (group, rule))

namespace Inventory

variable {inv after : Inventory}

theorem holds_setRules {group : String} {rules : List Rule} {x : Grant}
    (kept : x.1 = group → x.2 ∈ rules) (held : inv.Holds x) :
    (inv.setRules group rules).Holds x := by
  unfold Holds
  rw [rulesOf_setRules]
  split
  · next hgroup => exact kept hgroup
  · exact held

/-- Nothing but its withdrawal ends a grant. -/
theorem holds_apply {c : Call} {answer : c.Answer} (h : inv.apply c = .ok (answer, after))
    {x : Grant} (spared : c ≠ .revoke x.1 x.2) (held : inv.Holds x) : after.Holds x := by
  cases c with
  | describe k name => rwa [(describe_eq_ok h).2]
  | create k p =>
      obtain ⟨-, rfl⟩ := create_eq_ok h
      rwa [holds_withPorts, Reconcile.Elastic.holds_allocated]
  | registerPort k p =>
      obtain ⟨ports, -, -, rfl⟩ := registerPort_eq_ok (of_map_ok h)
      rwa [holds_withPorts]
  | deletePort k p =>
      rw [deletePort_eq_ok h]
      rwa [holds_withPorts]
  | update | configureHealthCheck | registerBackends | deregisterBackends | setFilter =>
      obtain ⟨before, p, rest, new, -, -, -, rfl⟩ := modifyPort_eq_ok (of_map_ok h)
      rwa [holds_withPorts]
  | authorize group rule =>
      obtain ⟨-, rfl⟩ := authorize_eq_ok (of_map_ok h)
      exact holds_setRules (fun hgroup => List.mem_append_left _ (hgroup ▸ held)) held
  | revoke group rule =>
      rw [revoke_eq_ok (of_map_ok h)]
      refine holds_setRules (fun hgroup => List.mem_filter.2 ⟨hgroup ▸ held, ?_⟩) held
      have other : x.2 ≠ rule := fun hrule => spared (by rw [hgroup, hrule])
      simpa using other
  | groupsOf | awaitApplied =>
      cases h
      exact held

end Inventory

namespace Reconcile.Elastic

open Inventory

variable {start inv after : Inventory} {topology : ElasticPort} {name : String}
  {backends : List Backend} {desired : List ElasticPort}

section Adjusting

/-- What may be asked for, and is told, where the balancer is wired in like `topology`. -/
def safekeeping (start : Inventory) (topology : ElasticPort) (name : String)
    (desired : List ElasticPort) : Contract where
  allowed
    | .create .elastic _ => False
    | .revoke group rule => ∀ d ∈ desired, ¬ Wants start topology d (group, rule)
    | _ => True
  told
    | .describe .elastic other, ports => other = name → ∀ p ∈ ports,
        p.vip = topology.vip ∧ p.attachment.interfaces = topology.attachment.interfaces
    | .groupsOf ids, groups => ∀ group, group ∈ groups ↔ ∃ id ∈ ids, id ∈ start.members group
    | _, _ => True

/-- What stays the same, or at least in force, in the meantime. -/
structure Safe (start : Inventory) (topology : ElasticPort) (name : String)
    (desired : List ElasticPort) (inv : Inventory) : Prop where
  stocked : inv.Stocked .elastic
  wired : ∀ p ∈ inv.ports .elastic name,
    p.vip = topology.vip ∧ p.attachment.interfaces = topology.attachment.interfaces
  members : ∀ group, inv.members group = start.members group
  held : ∀ d ∈ desired, ∀ x, Wants start topology d x → start.Holds x → inv.Holds x

theorem safe_start {first : ElasticPort} {rest : List ElasticPort}
    (stocked : start.Stocked .elastic) (held : start.ports .elastic name = first :: rest)
    (desired : List ElasticPort) : Safe start first name desired start := by
  refine ⟨stocked, ?_, fun _ => rfl, fun _ _ _ _ => id⟩
  have valid := stocked.ports name
  rw [held] at valid ⊢
  exact fun p hp =>
    ⟨valid.vip_eq hp List.mem_cons_self, valid.interfaces_eq hp List.mem_cons_self⟩

theorem Safe.wants_iff (safe : Safe start topology name desired inv) {p : ElasticPort}
    (hp : p ∈ inv.ports .elastic name) (d : ElasticPort) (x : Grant) :
    Wants inv p d x ↔ Wants start topology d x := by
  obtain ⟨vip, interfaces⟩ := safe.wired p hp
  simp only [Wants, Protects, safe.members, derives_placed_iff vip interfaces]

theorem Safe.safeguarded (safe : Safe start topology name desired inv) {issued : List Call}
    (allowed : ∀ c ∈ issued, (safekeeping start topology name desired).allowed c) :
    Safeguarded start name desired issued inv := by
  intro p hp d hd group rule wants
  rw [safe.wants_iff hp] at wants
  exact ⟨fun revoked => allowed _ revoked d hd wants, safe.held d hd _ wants⟩

theorem safe_apply {c : Call} {answer : c.Answer}
    (allowed : (safekeeping start topology name desired).allowed c)
    (h : inv.apply c = .ok (answer, after)) (safe : Safe start topology name desired inv) :
    Safe start topology name desired after := by
  refine ⟨safe.stocked.changes (changes_apply h), ?wired,
    fun group => ((changes_apply h).members_eq group).trans (safe.members group),
    fun d hd x wants held => holds_apply h ?spared (safe.held d hd x wants held)⟩
  case spared =>
    rintro rfl
    exact allowed d hd wants
  case wired =>
    refine forall_ports_apply (k := .elastic) (safe.stocked.solid _) h safe.wired ?_ ?_ ?_
    · rintro p rfl -
      exact allowed.elim
    · rintro p first rfl wired
      exact wired
    · intro d p new revises _ wired
      rwa [revises.vip, revises.attachment]

theorem safekeeping_keeps (start : Inventory) (topology : ElasticPort) (name : String)
    (desired : List ElasticPort) : (safekeeping start topology name desired).Keeps
      fun cloud => Safe start topology name desired cloud.inventory := by
  refine Contract.keeps_of_apply _ safe_apply fun {inv after c answer} _ h safe => ?_
  cases c with
  | describe k other =>
      cases k with
      | l4 => trivial
      | elastic =>
          rintro rfl
          rw [← (describe_eq_ok (k := .elastic) h).1]
          exact safe.wired
  | groupsOf ids =>
      cases h
      intro group
      rw [mem_groupsOf, safe.members]
  | _ => trivial

theorem agrees_safekeeping {script : Script}
    (truthful : script.TruthfulAbout fun c =>
      c.operation = .describe .elastic ∨ c.operation = .groupsOf) :
    script.Agrees (safekeeping start topology name desired) := by
  refine truthful.agrees fun c answer untold => ?_
  cases c with
  | describe k other =>
      cases k with
      | l4 => trivial
      | elastic => exact absurd (.inl rfl) untold
  | groupsOf ids => exact absurd (.inr rfl) untold
  | _ => trivial

theorem safekeeping_grants : (safekeeping start topology name desired).LetsGrant :=
  ⟨fun _ => trivial, fun _ _ => trivial, fun _ => trivial⟩

theorem safekeeping_adjusts :
    (safekeeping start topology name desired).LetsAdjust (k := .elastic) name desired :=
  ⟨⟨trivial, fun _ _ => trivial, fun _ _ => trivial, fun _ _ _ => trivial⟩, fun _ _ => trivial,
    fun _ _ _ _ _ _ => trivial, fun _ _ _ _ _ _ => trivial, fun _ _ _ => trivial,
    fun _ _ => trivial⟩

/-- What no desired port needs, for all that was told, none of them wants. -/
theorem safekeeping_withdraws (unambiguous : Unambiguous desired) :
    (safekeeping start topology name desired).LetsWithdraw name desired := by
  rintro p ⟨ports, told, hp⟩ x spares d hd ⟨⟨b, hb, hmember⟩, derives⟩
  obtain ⟨vip, interfaces⟩ := told rfl p hp
  obtain ⟨groups, ⟨answer, listed, hgroups⟩, unlisted⟩ := spares unambiguous d hd
    (List.ne_nil_of_mem hb) ((derives_placed_iff vip interfaces d x.2).2 derives)
  refine unlisted ((hgroups x.1).2 ((listed x.1).2 ⟨b.instanceId, ?_, hmember⟩))
  exact List.mem_map_of_mem hb

end Adjusting

section Founding

/-- What may be asked for where no balancer is known of. -/
def founding : Contract where
  allowed
    | .revoke _ _ => False
    | _ => True
  told _ _ := True

theorem founding_keeps (start : Inventory) :
    founding.Keeps fun cloud => ∀ x, start.Holds x → cloud.inventory.Holds x := by
  refine Contract.keeps_of_apply (fun inv => ∀ x, start.Holds x → inv.Holds x)
    (fun {inv after c answer} allowed h safe x held => holds_apply h ?_ (safe x held))
    fun _ _ _ => trivial
  rintro rfl
  exact allowed

theorem founding_grants : founding.LetsGrant :=
  ⟨fun _ => trivial, fun _ _ => trivial, fun _ => trivial⟩

theorem founding_founds : founding.LetsFound (k := .elastic) name desired :=
  ⟨⟨trivial, fun _ _ => trivial, fun _ _ => trivial, fun _ _ _ => trivial⟩, fun _ _ => trivial,
    fun _ _ _ _ => trivial⟩

end Founding

end Reconcile.Elastic

open Reconcile.Elastic Inventory

/-- However the calls of a reconciliation fare, it asks for no grant to be withdrawn that a desired
port needs, and none ends on the way. -/
theorem reconcile_safeguards {w : World} (administered : Administered w.cloud.inventory)
    {name : String} {service : Service} {backends : List Backend} {desired : List ElasticPort}
    (wanted : desiredElastic name backends service = .ok desired)
    (truthful : w.script.TruthfulAbout fun c =>
      c.operation = .describe .elastic ∨ c.operation = .groupsOf) (config : Config) :
    let final := ((reconcile name desired).simulate config w).2
    ∃ issued performed, final.calls = w.calls ++ issued ∧
      final.cloud = w.cloud.performAll performed ∧
      ∀ before, before <+: performed →
        Safeguarded w.cloud.inventory name desired issued
          (w.cloud.performAll before).inventory := by
  have stocked := administered.provisioned.stocked
  rcases eq_or_ne desired [] with rfl | hnew
  · exact ⟨[], [], (List.append_nil _).symm, rfl, fun before _ topology _ d hd => by cases hd⟩
  by_cases known : ∃ first after,
      (w.await (config.timeout .api) (.describe .elastic name)).1 = .answered (first :: after)
  case pos =>
    obtain ⟨first, after, answered⟩ := known
    have held := Reconcile.ports_of_described truthful (.inl rfl) answered
    have unambiguous := (ofService_desiredElastic wanted).unambiguous
    obtain ⟨⟨-, performed, hcloud, all⟩, -, issued, hcalls, allowed⟩ :=
      Reconcile.sound_reconcile (k := .elastic) name hnew config
        (safekeeping_keeps w.cloud.inventory first name desired) (safe_start stocked held desired)
        (fun _ h => h) (agrees_safekeeping truthful) trivial fun heard => by
          rw [answered] at heard ⊢
          exact Reconcile.Elastic.within_adjust safekeeping_grants safekeeping_adjusts
            (safekeeping_withdraws unambiguous) heard
    exact ⟨issued, performed, hcalls, hcloud,
      fun before hbefore => (all before hbefore).safeguarded allowed⟩
  case neg =>
    obtain ⟨⟨-, performed, hcloud, all⟩, -, issued, hcalls, allowed⟩ :=
      Reconcile.sound_reconcile (k := .elastic) name hnew config
        (founding_keeps w.cloud.inventory) (fun _ h => h) (fun _ h => h)
        (truthful.agrees fun _ _ _ => trivial) trivial fun _ => Reconcile.within_resume
          (Reconcile.within_found (k := .elastic) founding_grants founding_founds)
          fun first after answered => absurd ⟨first, after, answered⟩ known
    exact ⟨issued, performed, hcalls, hcloud, fun before hbefore topology _ d _ group rule _ =>
      ⟨fun revoked => allowed _ revoked, all before hbefore _⟩⟩

/-- The second port goes, and its grant is to be withdrawn, which fails. The first one keeps its. -/
theorem reconcile_safeguards_narrowed :
    let w := Sample.refusing .revoke Sample.widened.inventory
    let final := ((reconcile Sample.service.balancerName Sample.desired).simulate {} w).2
    .revoke ∈ final.calls.map Call.operation ∧
      ∃ issued performed, final.calls = w.calls ++ issued ∧
        final.cloud = w.cloud.performAll performed ∧
        ∀ before, before <+: performed →
          Safeguarded w.cloud.inventory Sample.service.balancerName Sample.desired issued
            (w.cloud.performAll before).inventory :=
  ⟨by decide +kernel,
    reconcile_safeguards (w := Sample.refusing .revoke Sample.widened.inventory)
      Sample.administered_widened Sample.desiredElastic_service
      (fun entry hentry c _ => Sample.truthful_refusing .revoke _ entry hentry c) {}⟩

end CloudBalancer
