import CloudBalancer.Proofs.Administration
import CloudBalancer.Proofs.PortChanges
import CloudBalancer.Proofs.Stages

/-!
What an operation on a balancer leaves alone, at every moment and whatever becomes of its calls:
all other balancers, the members of all groups, the rules of groups that none of its backends is in,
and the rules that are not from its own addresses. An operation on an L4 balancer leaves the groups
alone altogether.
-/

namespace CloudBalancer

variable {k : Kind}

namespace Inventory

variable {inv : Inventory}

/-- The members of a group, if there is one. -/
def membership (inv : Inventory) (group : String) : Option (List String) :=
  (inv.groups.get? group).map SecurityGroup.instanceIds

theorem members_eq_membership (inv : Inventory) (group : String) :
    inv.members group = (inv.membership group).getD [] := by
  rw [members, membership]
  cases inv.groups.get? group <;> rfl

theorem membership_setRules {group : String} (held : inv.members group ≠ []) (rules : List Rule)
    (key : String) : (inv.setRules group rules).membership key = inv.membership key := by
  by_cases hkey : key = group
  · subst hkey
    rw [members_eq_membership] at held
    cases hmembers : inv.membership key with
    | none => simp [hmembers] at held
    | some ids =>
        have members : inv.members key = ids := by rw [members_eq_membership, hmembers]; rfl
        simp [membership, setRules, members]
  · simp [membership, setRules, hkey]

/-- A backend that the balancer has, or is to have, is a member of the group. -/
def Involves (inv : Inventory) (name : String) (desired : List k.Port) (group : String) : Prop :=
  ∃ b : Backend, ((∃ p ∈ inv.ports k name, b ∈ p.backends) ∨ ∃ d ∈ desired, b ∈ d.backends) ∧
    b.instanceId ∈ inv.members group

end Inventory

open Inventory

/-- What an operation on the balancer `name` has left as it was at the `start`. -/
structure Framed (name : String) (desired : List k.Port) (start inv : Inventory) : Prop where
  balancers : ∀ k' other, (k', other) ≠ (k, name) →
    (inv.table k').get? other = (start.table k').get? other
  groups : k = .l4 → inv.groups = start.groups
  members : ∀ group, inv.membership group = start.membership group
  uninvolved : ∀ group, ¬ start.Involves name desired group →
    inv.rulesOf group = start.rulesOf group
  /-- All rules but those from addresses of the balancer, in their order. -/
  foreign : ∀ group,
    (inv.rulesOf group).filter (¬ ·.From (start.addresses name ++ inv.addresses name)) =
      (start.rulesOf group).filter (¬ ·.From (start.addresses name ++ inv.addresses name))

/-- The addresses that rules may be granted for, which L4 ports have none of. -/
def Kind.addresses : (k : Kind) → k.Port → List String
  | .l4, _ => []
  | .elastic, p => p.addresses

namespace Reconcile

variable {name : String} {desired : List k.Port} {start inv after : Inventory} {own : List String}
  {settled : Prop} {c : Call}

/-- The call is about the balancer, and about rules from its `own` addresses on groups with one of
its backends. Once the addresses are `settled`, it is not created any more, and it is not deleted
if it got them only after the `start`. -/
structure Confined (name : String) (desired : List k.Port) (start : Inventory) (own : List String)
    (settled : Prop) (c : Call) : Prop where
  subject : ∀ s, c.subject = some s → s = (k, name)
  creates : ∀ p, c = .create k p → ¬ settled
  joins : ∀ p joining, c = .registerBackends k p joining →
    ∀ b ∈ joining, ∃ d ∈ desired, b ∈ d.backends
  deletes : ∀ p, c = .deletePort k p → own ⊆ start.addresses name
  regulates : ∀ group rule, c = .authorize group rule ∨ c = .revoke group rule →
    k = .elastic ∧ start.Involves name desired group ∧ rule.From own

def confining (name : String) (desired : List k.Port) (start : Inventory) (own : List String)
    (settled : Prop) : Contract where
  allowed := Confined name desired start own settled
  told
    | .describe k' other, ports => ∀ hk : k' = k, other = name →
        ∀ p ∈ (hk ▸ ports : List k.Port), p.name = name ∧
          (∀ b ∈ p.backends, (∃ q ∈ start.ports k name, b ∈ q.backends) ∨
            ∃ d ∈ desired, b ∈ d.backends) ∧
          (settled → k.addresses p = own)
    | .groupsOf ids, groups => ∀ group ∈ groups, ∃ id ∈ ids, id ∈ start.members group
    | _, _ => True

/-- How far the operation has got. -/
structure Bounded (name : String) (desired : List k.Port) (start : Inventory) (own : List String)
    (settled : Prop) (inv : Inventory) : Prop where
  stocked : inv.Stocked k
  balancers : ∀ k' other, (k', other) ≠ (k, name) →
    (inv.table k').get? other = (start.table k').get? other
  groups : k = .l4 → inv.groups = start.groups
  members : ∀ group, inv.membership group = start.membership group
  uninvolved : ∀ group, ¬ start.Involves name desired group →
    inv.rulesOf group = start.rulesOf group
  foreign : ∀ group, (inv.rulesOf group).filter (¬ ·.From own) =
    (start.rulesOf group).filter (¬ ·.From own)
  backends : ∀ p ∈ inv.ports k name, ∀ b ∈ p.backends,
    (∃ q ∈ start.ports k name, b ∈ q.backends) ∨ ∃ d ∈ desired, b ∈ d.backends
  wired : settled → ∀ p ∈ inv.ports k name, k.addresses p = own
  owned : own ⊆ start.addresses name ∨ ∃ p ∈ inv.ports k name, k.addresses p = own

theorem addresses_revised {d p new : k.Port} (revises : Revises c d p new) :
    k.addresses new = k.addresses p := by
  cases k with
  | l4 => rfl
  | elastic => exact revises.addresses

theorem bounded_start (stocked : start.Stocked k)
    (wired : settled → ∀ p ∈ start.ports k name, k.addresses p = own)
    (owned : own ⊆ start.addresses name) : Bounded name desired start own settled start :=
  ⟨stocked, fun _ _ _ => rfl, fun _ => rfl, fun _ => rfl, fun _ _ => rfl, fun _ => rfl,
    fun p hp _ hb => .inl ⟨p, hp, hb⟩, wired, .inl owned⟩

theorem subset_addresses {p : k.Port} (hp : p ∈ inv.ports k name) :
    k.addresses p ⊆ inv.addresses name := by
  cases k with
  | l4 => exact List.nil_subset _
  | elastic => exact fun a ha => List.mem_flatMap.2 ⟨p, hp, ha⟩

theorem filter_foreign {rules others : List Rule} {addresses : List String}
    (h : rules.filter (¬ ·.From own) = others.filter (¬ ·.From own))
    (subset : own ⊆ addresses) :
    rules.filter (¬ ·.From addresses) = others.filter (¬ ·.From addresses) := by
  have narrower (rules : List Rule) : rules.filter (¬ ·.From addresses) =
      (rules.filter (¬ ·.From own)).filter (¬ ·.From addresses) := by
    rw [List.filter_filter]
    refine List.filter_congr fun rule _ => ?_
    have : rule.From own → rule.From addresses := fun source => source.mono subset
    by_cases source : rule.From addresses <;> simp_all
  rw [narrower, h, ← narrower]

theorem Bounded.framed (bounded : Bounded name desired start own settled inv) :
    Framed name desired start inv := by
  refine ⟨bounded.balancers, bounded.groups, bounded.members, bounded.uninvolved, fun group => ?_⟩
  refine filter_foreign (bounded.foreign group) ?_
  rcases bounded.owned with owned | ⟨p, hp, rfl⟩
  · exact List.Subset.trans owned (List.subset_append_left ..)
  · exact List.Subset.trans (subset_addresses hp) (List.subset_append_right ..)

section Apply

variable {answer : c.Answer}

/-- Rules that do not count are granted and withdrawn unnoticed. -/
theorem filter_regulated {group : String} {rule : Rule} (keep : Rule → Bool)
    (dropped : keep rule = false)
    (h : c = .authorize group rule ∧ after = inv.setRules group (inv.rulesOf group ++ [rule]) ∨
      c = .revoke group rule ∧
        after = inv.setRules group ((inv.rulesOf group).filter (· != rule)))
    (key : String) : (after.rulesOf key).filter keep = (inv.rulesOf key).filter keep := by
  by_cases hkey : key = group
  · subst hkey
    rcases h with ⟨-, rfl⟩ | ⟨-, rfl⟩
    · simp [rulesOf_setRules, dropped]
    · rw [rulesOf_setRules, if_pos rfl, List.filter_filter]
      refine List.filter_congr fun r _ => ?_
      by_cases hr : r = rule <;> simp [hr, dropped]
  · rcases h with ⟨-, rfl⟩ | ⟨-, rfl⟩ <;> rw [rulesOf_setRules, if_neg hkey]

/-- What becomes of the groups. -/
theorem Bounded.groups_apply (bounded : Bounded name desired start own settled inv)
    (confined : Confined name desired start own settled c) (h : inv.apply c = .ok (answer, after)) :
    (k = .l4 → after.groups = start.groups) ∧
      (∀ group, after.membership group = start.membership group) ∧
      (∀ group, ¬ start.Involves name desired group → after.rulesOf group = start.rulesOf group) ∧
      ∀ group, (after.rulesOf group).filter (¬ ·.From own) =
        (start.rulesOf group).filter (¬ ·.From own) := by
  rcases Inventory.groups_apply h with same | ⟨group, rule, regulated⟩
  · simp only [membership, rulesOf, same]
    exact ⟨bounded.groups, bounded.members, bounded.uninvolved, bounded.foreign⟩
  · obtain ⟨elastic, involved, source⟩ :=
      confined.regulates group rule (regulated.imp And.left And.left)
    have some_member : inv.members group ≠ [] := by
      obtain ⟨b, -, hmember⟩ := involved
      rw [members_eq_membership, bounded.members, ← members_eq_membership]
      exact List.ne_nil_of_mem hmember
    obtain ⟨rules, hafter⟩ : ∃ rules, after = inv.setRules group rules :=
      regulated.elim (fun granted => ⟨_, granted.2⟩) fun withdrawn => ⟨_, withdrawn.2⟩
    refine ⟨fun l4 => by simp [l4] at elastic, fun key => ?_, fun key uninvolved => ?_,
      fun key => ?_⟩
    · rw [hafter, membership_setRules some_member, bounded.members]
    · rw [hafter, rulesOf_setRules, if_neg, bounded.uninvolved key uninvolved]
      rintro rfl
      exact uninvolved involved
    · rw [filter_regulated _ (by simpa using source) regulated, bounded.foreign]

theorem Bounded.apply (bounded : Bounded name desired start own settled inv)
    (confined : Confined name desired start own settled c) (h : inv.apply c = .ok (answer, after)) :
    Bounded name desired start own settled after := by
  obtain ⟨groups, members, uninvolved, foreign⟩ := bounded.groups_apply confined h
  refine ⟨bounded.stocked.changes (changes_apply h), fun k' other hother => ?balancers, groups,
    members, uninvolved, foreign, ?backends, fun hsettled => ?wired, ?owned⟩
  case balancers =>
    rw [table_apply h fun subject => hother (confined.subject _ subject), bounded.balancers k' other
      hother]
  case backends =>
    refine forall_ports_apply (bounded.stocked.solid _) h bounded.backends ?_ ?_ ?_
    · rintro p rfl - b ⟨⟩
    · rintro p first rfl - b ⟨⟩
    · intro d p new revises _ known b hb
      cases revises with
      | join d p joining =>
          rcases mem_addBackends hb with hb | hb
          · exact known b hb
          · exact .inr (confined.joins d joining rfl b hb)
      | leave removed => exact known b ((mem_removeBackends removed).1 hb).1
      | update | check | filter => exact known b hb
  case wired =>
    refine forall_ports_apply (bounded.stocked.solid _) h (bounded.wired hsettled) ?_ ?_ ?_
    · exact fun p hc _ => absurd hsettled (confined.creates p hc)
    · rintro p first - rfl
      cases k <;> rfl
    · exact fun d p new revises _ wired => (addresses_revised revises).trans wired
  case owned =>
    by_cases former : own ⊆ start.addresses name
    · exact .inl former
    · refine .inr (exists_ports_apply h (bounded.owned.resolve_left former) ?_ ?_)
      · exact fun p q hc _ => absurd (confined.deletes q hc) former
      · exact fun d p new revises _ wired => (addresses_revised revises).trans wired

theorem confining_keeps (name : String) (desired : List k.Port) (start : Inventory)
    (own : List String) (settled : Prop) : (confining name desired start own settled).Keeps
      fun cloud => Bounded name desired start own settled cloud.inventory := by
  refine Contract.keeps_of_apply _ (fun confined h bounded => bounded.apply confined h)
    fun {inv after c answer} _ h bounded => ?_
  cases c with
  | describe k' other =>
      intro hk hother
      subst hk hother
      rw [← (describe_eq_ok h).1]
      exact fun p hp => ⟨(bounded.stocked.ports _).named hp, bounded.backends p hp,
        fun hsettled => bounded.wired hsettled p hp⟩
  | groupsOf ids =>
      cases h
      intro group hgroup
      obtain ⟨id, hid, hmember⟩ := mem_groupsOf.1 hgroup
      rw [members_eq_membership, bounded.members, ← members_eq_membership] at hmember
      exact ⟨id, hid, hmember⟩
  | _ => trivial

end Apply

section Conduct

variable {p : k.Port}

theorem confined_about (subject : c.subject = some (k, name))
    (creates : ∀ p, c = .create k p → ¬ settled)
    (joins : ∀ p joining, c = .registerBackends k p joining →
      ∀ b ∈ joining, ∃ d ∈ desired, b ∈ d.backends)
    (deletes : ∀ p, c = .deletePort k p → own ⊆ start.addresses name) :
    Confined name desired start own settled c := by
  refine ⟨fun s hs => ?_, creates, joins, deletes, ?_⟩
  · rw [subject] at hs
    exact (Option.some.inj hs).symm
  · rintro group rule (rfl | rfl) <;> cases subject

theorem shown_known (shown : (confining name desired start own settled).Shows k name p) :
    p.name = name ∧
      (∀ b ∈ p.backends, (∃ q ∈ start.ports k name, b ∈ q.backends) ∨
        ∃ d ∈ desired, b ∈ d.backends) ∧
      (settled → k.addresses p = own) := by
  obtain ⟨ports, told, hp⟩ := shown
  exact told rfl rfl p hp

theorem confining_asks : (confining name desired start own settled).LetsAsk :=
  ⟨fun _ => ⟨nofun, nofun, nofun, nofun, by rintro _ _ (h | h) <;> cases h⟩,
    fun _ => ⟨nofun, nofun, nofun, nofun, by rintro _ _ (h | h) <;> cases h⟩⟩

theorem confining_describes (name : String) (desired : List k.Port) (start : Inventory)
    (own : List String) (settled : Prop) :
    (confining name desired start own settled).allowed (.describe k name) :=
  ⟨nofun, nofun, nofun, nofun, by rintro _ _ (h | h) <;> cases h⟩

theorem confining_builds (named : ∀ d ∈ desired, d.name = name) :
    (confining name desired start own settled).LetsBuild name desired where
  describe := confining_describes ..
  register d hd := confined_about (by rw [Call.subject, named d hd]) nofun nofun nofun
  check d hd := confined_about (by rw [Call.subject, named d hd]) nofun nofun nofun
  filter d hd _ := confined_about (by rw [Call.subject, named d hd]) nofun nofun nofun

theorem confining_fills (named : ∀ d ∈ desired, d.name = name) {d view : k.Port} (hd : d ∈ desired)
    (hview : d.same view = true) :
    (confining name desired start own settled).allowed (.registerBackends k view d.backends) := by
  have viewNamed : view.name = name := by rw [← (Port.same_iff.1 hview).1, named d hd]
  refine confined_about (by rw [Call.subject, viewNamed]) nofun ?_ nofun
  rintro _ _ ⟨⟩ b hb
  exact ⟨d, hd, hb⟩

theorem confining_founds (named : ∀ d ∈ desired, d.name = name) :
    (confining name desired start own False).LetsFound name desired where
  toLetsBuild := confining_builds named
  create d hd := confined_about (by rw [Call.subject, named d hd]) (fun _ _ => id) nofun nofun
  fill _ hd _ hview := confining_fills named hd hview

theorem confining_adjusts (named : ∀ d ∈ desired, d.name = name)
    (owned : own ⊆ start.addresses name) :
    (confining name desired start own settled).LetsAdjust name desired where
  toLetsBuild := confining_builds named
  update d hd := confined_about (by rw [Call.subject, named d hd]) nofun nofun nofun
  join d p pairs _ view hview := by
    have viewNamed : view.name = name := by
      rw [(Port.same_iff.1 hview).1, (shown_known pairs.shown).1]
    refine confined_about (by rw [Call.subject, viewNamed]) nofun ?_ nofun
    rintro _ _ ⟨⟩ b hb
    exact ⟨d, pairs.wanted, (mem_backendDifferences.1 hb).1⟩
  leave d p pairs _ view hview := by
    have viewNamed : view.name = name := by
      rw [(Port.same_iff.1 hview).1, (shown_known pairs.shown).1]
    exact confined_about (by rw [Call.subject, viewNamed]) nofun nofun nofun
  clear p discards _ := confined_about (by rw [Call.subject, (shown_known discards.shown).1])
    nofun nofun nofun
  drop p discards := confined_about (by rw [Call.subject, (shown_known discards.shown).1])
    nofun nofun fun _ _ => owned

theorem confining_deletes (owned : own ⊆ start.addresses name) :
    (confining name desired start own settled).LetsDelete name k where
  describe := confining_describes ..
  clear p shown := confined_about (by rw [Call.subject, (shown_known shown).1]) nofun nofun nofun
  drop p shown := confined_about (by rw [Call.subject, (shown_known shown).1]) nofun nofun
    fun _ _ => owned

/-- What is granted or withdrawn concerns the balancer only. -/
theorem confining_regulates {desired : List ElasticPort} {p : ElasticPort} {x : Grant}
    (hsettled : settled)
    (shown : (confining (k := .elastic) name desired start own settled).Shows .elastic name p)
    (concerns : (confining (k := .elastic) name desired start own settled).Concerns desired p x) :
    start.Involves (k := .elastic) name desired x.1 ∧ x.2.From own := by
  obtain ⟨-, known, wired⟩ := shown_known shown
  obtain ⟨⟨backends, hbackends, groups, told, hgroup⟩, source⟩ := concerns
  obtain ⟨id, hid, hmember⟩ := told _ hgroup
  obtain ⟨b, hb, rfl⟩ := List.mem_map.1 hid
  refine ⟨⟨b, ?_, hmember⟩, wired hsettled ▸ source⟩
  exact (hbackends b hb).elim (known b) .inr

theorem confining_upholds {desired : List ElasticPort} (hsettled : settled) :
    (confining (k := .elastic) name desired start own settled).LetsUphold name desired where
  toLetsAsk := confining_asks
  grant p shown x concerns := by
    refine ⟨nofun, nofun, nofun, nofun, fun group rule hc => ?_⟩
    rcases hc with ⟨⟨⟩⟩ | ⟨⟨⟩⟩
    exact ⟨rfl, confining_regulates hsettled shown concerns⟩
  withdraw p shown x concerns _ := by
    refine ⟨nofun, nofun, nofun, nofun, fun group rule hc => ?_⟩
    rcases hc with ⟨⟨⟩⟩ | ⟨⟨⟩⟩
    exact ⟨rfl, confining_regulates hsettled shown concerns⟩

end Conduct

section Simulation

variable {w : World} {config : Config}

/-- The calls that are not answered by anything made up. -/
def Asks (k : Kind) (c : Call) : Prop :=
  c.operation = .describe k ∨ c.operation = .groupsOf

/-- An operation that began in the cloud `start` is under way, and has kept to the frame so far. -/
structure Underway (name : String) (desired : List k.Port) (start : Cloud) (own : List String)
    (settled : Prop) (w : World) : Prop where
  truthful : w.script.TruthfulAbout (Asks k)
  bounded : Bounded name desired start.inventory own settled w.cloud.inventory
  passed : Cloud.Passed (Framed name desired start.inventory ·.inventory) start w.cloud

theorem underway_start (truthful : w.script.TruthfulAbout (Asks k))
    (bounded : Bounded name desired w.cloud.inventory own settled w.cloud.inventory) :
    Underway name desired w.cloud own settled w :=
  ⟨truthful, bounded, .refl bounded.framed⟩

theorem Underway.simulate {α : Type} {post : α → Prop} {program : Program α} {start : Cloud}
    (underway : Underway name desired start own settled w)
    (within : program.Within (confining name desired start.inventory own settled) post)
    (config : Config) :
    Underway name desired start own settled (program.simulate config w).2 := by
  have keeps := (confining_keeps name desired start.inventory own settled).passed
    (fun _ bounded => bounded.framed) start
  have agrees : w.script.Agrees (confining name desired start.inventory own settled) := by
    refine underway.truthful.agrees fun c answer untold => ?_
    cases c with
    | describe k' other =>
        rintro rfl
        exact absurd (.inl rfl) untold
    | groupsOf ids => exact absurd (.inr rfl) untold
    | _ => trivial
  have good := (within.simulate (.start ⟨underway.bounded, underway.passed⟩ agrees) keeps
    config).good
  exact ⟨underway.truthful.left (Program.script_simulate config program w), good.1, good.2⟩

/-- Once a new balancer is there, its addresses are settled. -/
theorem Bounded.settle {first : ElasticPort} {rest desired : List ElasticPort}
    (bounded : Bounded (k := .elastic) name desired start [] False inv)
    (held : inv.ports .elastic name = first :: rest) :
    Bounded (k := .elastic) name desired start first.addresses True inv := by
  refine ⟨bounded.stocked, bounded.balancers, bounded.groups, bounded.members, bounded.uninvolved,
    fun group => filter_foreign (bounded.foreign group) (List.nil_subset _), bounded.backends,
    fun _ p hp => ?_, .inr ⟨first, by simp [held], rfl⟩⟩
  have valid := bounded.stocked.ports name
  have hfirst : first ∈ inv.ports .elastic name := by simp [held]
  exact Port.addresses_congr (valid.vip_eq hp hfirst) (valid.interfaces_eq hp hfirst)

theorem leads_within {α : Type} {post : α → Prop} {program : Program α} {start : Cloud}
    (within : program.Within (confining name desired start.inventory own settled) post) :
    program.Leads config (Underway name desired start own settled)
      (fun _ => Underway name desired start own settled)
      fun w => Cloud.Passed (Framed name desired start.inventory ·.inventory) start w.cloud := by
  intro w underway
  have ended := underway.simulate within config
  split
  all_goals
    next heq =>
    rw [heq] at ended
    first
      | exact ended
      | exact ended.passed

section Founding

variable {start : Cloud} {desired : List ElasticPort} (named : ∀ d ∈ desired, d.name = name)

/-- The first description of a new balancer settles its addresses. -/
theorem leads_describeExisting : (Program.ofJob (describeExisting .elastic name)).Leads config
    (Underway (k := .elastic) name desired start [] False)
    (fun current w => ∃ first ∈ current, w.cloud.inventory.ports .elastic name = current ∧
      Underway (k := .elastic) name desired start first.addresses True w)
    fun w => Cloud.Passed (Framed (k := .elastic) name desired start.inventory ·.inventory) start
      w.cloud := by
  intro w underway
  have described := underway.simulate
    (.ofJob (within_describeExisting (k := .elastic) (confining_describes ..))) config
  split
  · next current after heq =>
    obtain ⟨held, some_port⟩ := ports_of_describeExisting underway.truthful (.inl rfl) heq
    rw [heq] at described
    obtain ⟨first, rest, rfl⟩ := List.exists_cons_of_ne_nil some_port
    exact ⟨first, List.mem_cons_self, held, described.truthful, described.bounded.settle held,
      described.passed⟩
  · next heq =>
    rw [heq] at described
    exact described.passed

include named in
theorem leads_configureAll (current : List ElasticPort) :
    (Elastic.configureAll name desired current).Leads config
      (fun w => ∃ first ∈ current, w.cloud.inventory.ports .elastic name = current ∧
        Underway (k := .elastic) name desired start first.addresses True w)
      (fun _ w => Cloud.Passed (Framed (k := .elastic) name desired start.inventory ·.inventory)
        start w.cloud)
      fun w => Cloud.Passed (Framed (k := .elastic) name desired start.inventory ·.inventory)
        start w.cloud := by
  rintro w ⟨first, -, held, underway⟩
  have shown : ∀ p ∈ current, (confining (k := .elastic) name desired start.inventory
      first.addresses True).Shows .elastic name p := by
    refine fun p hp => ⟨current, ?_, hp⟩
    intro hk hname q hq
    replace hq : q ∈ w.cloud.inventory.ports .elastic name := held ▸ hq
    exact ⟨(underway.bounded.stocked.ports name).named hq, underway.bounded.backends q hq,
      fun _ => underway.bounded.wired trivial q hq⟩
  have within := Elastic.within_configureAll (confining_upholds trivial).toLetsOpen
    (confining_builds named) (fun d hd view => confining_fills (k := .elastic) named hd) shown
  have ended := underway.simulate within config
  split
  all_goals
    next heq =>
    rw [heq] at ended
    exact ended.passed

include named in
/-- Where no balancer is known of, one is created, and its groups are opened once it is known. -/
theorem leads_found : (found name .elastic desired).Leads config
    (Underway (k := .elastic) name desired start [] False)
    (fun _ w => Cloud.Passed (Framed (k := .elastic) name desired start.inventory ·.inventory)
      start w.cloud)
    fun w => Cloud.Passed (Framed (k := .elastic) name desired start.inventory ·.inventory)
      start w.cloud := by
  have founds : (confining (k := .elastic) name desired start.inventory [] False).LetsFound
      (k := .elastic) name desired := confining_founds named
  refine Program.Leads.bind (?_ : (Elastic.create name desired).Leads ..) fun ports =>
    .ofExcept (fun _ _ _ passed => passed) fun _ passed => passed
  exact (leads_within (.ofJob (Elastic.within_createPorts founds))).bind fun _ =>
    leads_describeExisting.bind fun current => leads_configureAll named current

end Founding

/-- The addresses of a balancer that is there already. -/
theorem Bounded.of_existing (stocked : start.Stocked k) {first : k.Port} {rest : List k.Port}
    (held : start.ports k name = first :: rest) (desired : List k.Port) :
    Bounded name desired start (k.addresses first) True start := by
  have hfirst : first ∈ start.ports k name := by simp [held]
  refine bounded_start stocked (fun _ p hp => ?_) (subset_addresses hfirst)
  cases k with
  | l4 => rfl
  | elastic =>
      have valid := stocked.ports name
      exact Port.addresses_congr (valid.vip_eq hp hfirst) (valid.interfaces_eq hp hfirst)

variable (stocked : w.cloud.inventory.Stocked k) (truthful : w.script.TruthfulAbout (Asks k))

include stocked truthful in
theorem framed_delete (name : String) (config : Config) :
    Cloud.Passed (Framed (k := k) name [] w.cloud.inventory ·.inventory) w.cloud
      ((Program.ofJob (delete name k)).simulate config w).2.cloud := by
  obtain ⟨own, bounded, owned⟩ : ∃ own, Bounded (k := k) name [] w.cloud.inventory own True
      w.cloud.inventory ∧ own ⊆ w.cloud.inventory.addresses name := by
    cases held : w.cloud.inventory.ports k name with
    | nil => exact ⟨[], bounded_start stocked (by simp [held]) (by simp), by simp⟩
    | cons first rest =>
        exact ⟨_, .of_existing stocked held [], subset_addresses (by simp [held])⟩
  have within : (delete name k).Within (confining (k := k) name [] w.cloud.inventory own True)
      fun _ => True := by
    cases k with
    | l4 => exact L4.within_deletion (confining_deletes owned)
    | elastic => exact Elastic.within_deletion (confining_upholds trivial) (confining_deletes owned)
  exact ((underway_start truthful bounded).simulate (.ofJob within) config).passed

include truthful in
/-- The operation has asked for the balancer, and the rest of it is to follow. -/
theorem underway_described {desired : List k.Port} {own : List String} {settled : Prop}
    (config : Config)
    (bounded : Bounded name desired w.cloud.inventory own settled w.cloud.inventory) :
    Underway name desired w.cloud own settled
      (w.await (config.timeout .api) (.describe k name)).2 := by
  have within : (Program.call ⟨.balancer name, .api⟩ (.describe k name) fun _ => .done ()).Within
      (confining name desired w.cloud.inventory own settled) fun _ => True :=
    ⟨confining_describes .., fun _ _ => trivial⟩
  exact (underway_start truthful bounded).simulate within config

include stocked truthful in
theorem framed_adjust {desired : List k.Port} (named : ∀ d ∈ desired, d.name = name)
    {first : k.Port} {rest : List k.Port}
    (held : w.cloud.inventory.ports k name = first :: rest) (config : Config) :
    Cloud.Passed (Framed name desired w.cloud.inventory ·.inventory) w.cloud
      ((adjust name k desired (first :: rest)).simulate config
        (w.await (config.timeout .api) (.describe k name)).2).2.cloud := by
  have bounded := Bounded.of_existing stocked held desired
  have owned : k.addresses first ⊆ w.cloud.inventory.addresses name :=
    subset_addresses (by simp [held])
  have told : (confining name desired w.cloud.inventory (k.addresses first) True).told
      (.describe k name) (first :: rest) := by
    intro hk hname p hp
    replace hp : p ∈ w.cloud.inventory.ports k name := held ▸ hp
    exact ⟨(stocked.ports name).named hp, bounded.backends p hp,
      fun _ => bounded.wired trivial p hp⟩
  have within : (adjust name k desired (first :: rest)).Within
      (confining name desired w.cloud.inventory (k.addresses first) True) fun _ => True := by
    cases k with
    | l4 => exact L4.within_adjust (confining_adjusts named owned) told
    | elastic =>
        exact Elastic.within_upkeep (confining_upholds trivial) (confining_adjusts named owned)
          told
  exact ((underway_described truthful config bounded).simulate within config).passed

include stocked truthful in
theorem framed_found {desired : List k.Port} (named : ∀ d ∈ desired, d.name = name)
    (config : Config) :
    Cloud.Passed (Framed name desired w.cloud.inventory ·.inventory) w.cloud
      ((found name k desired).simulate config
        (w.await (config.timeout .api) (.describe k name)).2).2.cloud := by
  have described : Underway name desired w.cloud [] False
      (w.await (config.timeout .api) (.describe k name)).2 :=
    underway_described truthful config (bounded_start stocked nofun (by simp))
  cases k with
  | l4 => exact (described.simulate (L4.within_found (confining_founds named)) config).passed
  | elastic => exact (leads_found named).final described

include stocked truthful in
theorem framed_reconcile {desired : List k.Port} (named : ∀ d ∈ desired, d.name = name)
    (config : Config) :
    Cloud.Passed (Framed name desired w.cloud.inventory ·.inventory) w.cloud
      ((reconcile name k desired).simulate config w).2.cloud := by
  have bounded : Bounded name desired w.cloud.inventory [] False w.cloud.inventory :=
    bounded_start stocked nofun (by simp)
  by_cases hnew : desired = []
  · subst hnew
    cases k <;> exact .refl bounded.framed
  have given_up := (underway_described truthful config bounded).passed
  have founds := framed_found stocked truthful named config
  rw [simulate_reconcile hnew, cloud_reporting]
  rcases answer : (w.await (config.timeout .api) (.describe k name)).1
    with (_ | ⟨first, rest⟩) | e | _
  · exact founds
  · have held := ports_of_described truthful (.inl rfl) answer
    exact framed_adjust stocked truthful named held config
  · simp only [resume]
    split
    · exact founds
    · exact given_up
  · exact given_up

end Simulation

end Reconcile

open Reconcile in
/-- However the calls of an operation on a balancer fare, it keeps to the frame of that balancer at
every moment. -/
theorem operations_framed {w : World} (reachable : w.cloud.Reachable) {name : String}
    {desired : List k.Port} (named : ∀ d ∈ desired, d.name = name)
    (truthful : w.script.TruthfulAbout fun c =>
      c.operation = .describe k ∨ c.operation = .groupsOf) (config : Config) :
    (∃ performed,
      ((reconcile name k desired).simulate config w).2.cloud = w.cloud.performAll performed ∧
      ∀ before, before <+: performed →
        Framed name desired w.cloud.inventory (w.cloud.performAll before).inventory) ∧
    ∃ performed,
      ((Program.ofJob (delete name k)).simulate config w).2.cloud =
        w.cloud.performAll performed ∧
      ∀ before, before <+: performed →
        Framed (k := k) name [] w.cloud.inventory (w.cloud.performAll before).inventory :=
  have stocked := reachable.valid.stocked k
  ⟨framed_reconcile stocked truthful named config, framed_delete stocked truthful name config⟩

namespace Sample

/-- The sample group is opened to a new balancer, but never answers that it is. -/
def opening : World where
  cloud := { inventory }
  script := [(.awaitApplied, { hang := true })]

theorem operations_framed_opening :
    ((Reconcile.reconcile "web" .elastic desired).simulate {} opening).2.cloud.inventory.rulesOf
        "g" ≠ [] ∧
    (∃ performed,
      ((Reconcile.reconcile "web" .elastic desired).simulate {} opening).2.cloud =
        opening.cloud.performAll performed ∧
      ∀ before, before <+: performed →
        Framed (k := .elastic) "web" desired opening.cloud.inventory
          (opening.cloud.performAll before).inventory) ∧
    ∃ performed,
      ((Program.ofJob (Reconcile.delete "web" .elastic)).simulate {} opening).2.cloud =
        opening.cloud.performAll performed ∧
      ∀ before, before <+: performed →
        Framed (k := .elastic) "web" [] opening.cloud.inventory
          (opening.cloud.performAll before).inventory :=
  ⟨by decide +kernel,
    operations_framed (k := .elastic) (w := opening) (.addToGroup "g" ["i-1"] .empty)
      (by decide +kernel)
      (fun entry hentry c _ => by
        rw [List.mem_singleton.1 hentry]
        exact Reply.madeUp?_eq_none rfl rfl rfl rfl c) {}⟩

end Sample

end CloudBalancer
