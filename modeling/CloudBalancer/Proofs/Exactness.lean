import CloudBalancer.Proofs.Deployment
import CloudBalancer.Proofs.Requests

/-!
The grants of an elastic balancer are exact: after every request, a rule is on a group if and only
if some port of the balancer derives it and has a backend that the group protects. In the middle
of a request this does not hold; there, each grant is followed on its own, and what decides about
it is whether it is wanted in the end, and which port it belonged to before.
-/

namespace CloudBalancer

namespace Reconcile.Elastic

open Inventory

/-- The grant is needed by a stored port. -/
def Needs (inv : Inventory) (p : ElasticPort) (x : Grant) : Prop :=
  inv.Protects p.backends x.1 ∧ Derives p x.2

/-- The grant will be needed by the desired port `d`, wired in like `topology`. -/
def Wants (inv : Inventory) (topology d : ElasticPort) (x : Grant) : Prop :=
  inv.Protects d.backends x.1 ∧ Derives (placed d topology) x.2

/-- The backends are told apart by their instance ids. -/
def Identified (backends others : List Backend) : Prop :=
  ∀ a ∈ backends, ∀ b ∈ others, a.same b = true ↔ a.instanceId = b.instanceId

/-- How a stored port goes with the wiring of its balancer. -/
structure WiredLike (topology p : ElasticPort) : Prop where
  vip : p.vip = topology.vip
  interfaces : p.attachment.interfaces = topology.attachment.interfaces
  protocol : p.attachment.protocol = tcp

theorem derives_placed_iff {topology other : ElasticPort} (vip : other.vip = topology.vip)
    (interfaces : other.attachment.interfaces = topology.attachment.interfaces) (d : ElasticPort)
    (rule : Rule) : Derives (placed d other) rule ↔ Derives (placed d topology) rule := by
  have hrules : deriveRules (placed d other) = deriveRules (placed d topology) :=
    deriveRules_congr rfl rfl rfl vip rfl interfaces
  simp only [Derives, hrules]

section Port

variable {inv : Inventory} {desired : List ElasticPort} {topology d p : ElasticPort} {x : Grant}

/-- The new rules of a port. -/
theorem derives_ruleView_iff (wired : WiredLike topology p) (hsame : d.same p = true)
    (rule : Rule) : Derives (ruleView d p) rule ↔ Derives (placed d topology) rule := by
  rw [← placed_of_same hsame]
  exact derives_placed_iff wired.vip wired.interfaces d rule

theorem derives_iff_of_check (wired : WiredLike topology p) (hsame : d.same p = true)
    (protocol : d.attachment.protocol = tcp) (check : d.healthCheck = p.healthCheck) (rule : Rule) :
    Derives p rule ↔ Derives (placed d topology) rule := by
  obtain ⟨hname, hpair⟩ := Port.same_iff.1 hsame
  have hrules : deriveRules p = deriveRules (placed d topology) :=
    deriveRules_congr hname.symm hpair.symm (congrArg _ check.symm) wired.vip
      (wired.protocol.trans protocol.symm) wired.interfaces
  simp only [Derives, hrules]

theorem retains_iff (wired : WiredLike topology p) (except : ElasticPort) :
    Retains inv desired p except x ↔
      ∃ e ∈ desired, e.same except = false ∧ Wants inv topology e x := by
  simp only [Retains, Wants, derives_placed_iff wired.vip wired.interfaces]

/-- What is wanted is not taken away. It comes with a changed health check or a new backend. -/
theorem upheld_iff_of_wanted {e : ElasticPort} {held : Prop} (unambiguous : Unambiguous desired)
    (wired : WiredLike topology p) (hd : d ∈ desired) (hsame : d.same p = true)
    (common : ∀ e ∈ desired, e.backends = d.backends) (he : e ∈ desired)
    (wanted : Wants inv topology e x) :
    Upheld inv desired d p x held ↔ held ∨ Refreshes inv d p x ∨ Joins inv d p x := by
  have protects : inv.Protects d.backends x.1 := common e he ▸ wanted.1
  have stays : ¬ Leaves inv desired d p x := fun leaves => leaves.2.1 protects
  have lasts : ¬ Expires inv desired d p x := by
    rintro ⟨-, -, -, unwanted, unretained⟩
    refine unretained ((retains_iff wired d).2 ⟨e, he, ?_, wanted⟩)
    rw [Bool.eq_false_iff]
    intro hsame_ed
    have heq : e = d := unambiguous e he d hd hsame_ed
    exact unwanted ((derives_ruleView_iff wired hsame x.2).2 (heq ▸ wanted.2))
  simp [Upheld, stays, lasts, or_assoc]

theorem upheld_of_wanted {e : ElasticPort} {held : Prop} (unambiguous : Unambiguous desired)
    (wired : WiredLike topology p) (hd : d ∈ desired) (hsame : d.same p = true)
    (common : ∀ e ∈ desired, e.backends = d.backends) (he : e ∈ desired)
    (wanted : Wants inv topology e x) (hheld : held) : Upheld inv desired d p x held :=
  (upheld_iff_of_wanted unambiguous wired hd hsame common he wanted).2 (.inl hheld)

/-- What a port wants is there once it is synchronised. -/
theorem upheld_of_reached {held : Prop} (unambiguous : Unambiguous desired)
    (wired : WiredLike topology p) (hd : d ∈ desired) (hsame : d.same p = true)
    (common : ∀ e ∈ desired, e.backends = d.backends) (protocol : d.attachment.protocol = tcp)
    (identified : Identified d.backends p.backends) (wanted : Wants inv topology d x)
    (hneeded : Needs inv p x → held) : Upheld inv desired d p x held := by
  obtain ⟨⟨b, hb, hmember⟩, derives⟩ := wanted
  have newRule : Derives (ruleView d p) x.2 := (derives_ruleView_iff wired hsame x.2).2 derives
  have unleft : ¬ Leaves inv desired d p x := fun leaves => leaves.2.1 ⟨b, hb, hmember⟩
  by_cases joins : b ∈ backendDifferences d.backends p.backends
  · exact ⟨.inr ⟨⟨b, joins, hmember⟩, newRule⟩, unleft⟩
  · obtain ⟨c, hc, hbc⟩ : ∃ c ∈ p.backends, b.same c = true := by
      simpa [mem_backendDifferences, hb] using joins
    have hid : b.instanceId = c.instanceId := (identified b hb c hc).1 hbc
    have protects : inv.Protects p.backends x.1 := ⟨c, hc, hid ▸ hmember⟩
    by_cases old : Derives p x.2
    · exact upheld_of_wanted unambiguous wired hd hsame common hd ⟨⟨b, hb, hmember⟩, derives⟩
        (hneeded ⟨protects, old⟩)
    · have changed : d.healthCheck ≠ p.healthCheck := fun check =>
        old ((derives_iff_of_check wired hsame protocol check x.2).2 derives)
      refine ⟨.inl ⟨.inr ⟨changed, protects, newRule, old⟩, ?_⟩, unleft⟩
      exact fun expires => old expires.2.2.1

/-- What nothing wants is not there once the port that needed it is synchronised, and does not come
back with another one. -/
theorem held_of_upheld {held : Prop} (wired : WiredLike topology p) (hd : d ∈ desired)
    (hsame : d.same p = true) (protocol : d.attachment.protocol = tcp)
    (identified : Identified p.backends d.backends)
    (unwanted : ∀ e ∈ desired, ¬ Wants inv topology e x) (h : Upheld inv desired d p x held) :
    held ∧ ¬ Needs inv p x := by
  obtain ⟨upheld, unleft⟩ := h
  have newRule (rule : Rule) := derives_ruleView_iff (d := d) wired hsame rule
  have unretained : ¬ Retains inv desired p d x := fun retains => by
    obtain ⟨e, he, -, wanted⟩ := (retains_iff wired d).1 retains
    exact unwanted e he wanted
  -- A backend that is not desired takes along what only it gave reason for.
  have leaves : inv.Protects p.backends x.1 → Derives (ruleView d p) x.2 → False := by
    rintro ⟨c, hc, hmember⟩ derives
    have unprotected : ¬ inv.Protects d.backends x.1 := fun protects =>
      unwanted d hd ⟨protects, (newRule x.2).1 derives⟩
    have leaving : c ∈ backendDifferences p.backends d.backends := by
      refine mem_backendDifferences.2 ⟨hc, fun b hb => ?_⟩
      rw [Bool.eq_false_iff]
      intro hcb
      have hid : c.instanceId = b.instanceId := (identified c hc b hb).1 hcb
      exact unprotected ⟨b, hb, hid ▸ hmember⟩
    exact unleft ⟨⟨c, leaving, hmember⟩, unprotected, derives, unretained⟩
  rcases upheld with ⟨hheld | ⟨-, protects, derives, -⟩, unexpired⟩ | ⟨joins, derives⟩
  · refine ⟨hheld, fun needs => ?_⟩
    by_cases new : Derives (ruleView d p) x.2
    · exact leaves needs.1 new
    · have changed : d.healthCheck ≠ p.healthCheck := fun check => new
        ((newRule x.2).2 ((derives_iff_of_check wired hsame protocol check x.2).1 needs.2))
      exact unexpired ⟨changed, needs.1, needs.2, new, unretained⟩
  · exact (leaves protects derives).elim
  · have protects : inv.Protects d.backends x.1 :=
      joins.mono fun b hb => (mem_backendDifferences.1 hb).1
    exact absurd ⟨protects, (newRule x.2).1 derives⟩ (unwanted d hd)

end Port

/-- A balancer whose ports are to be brought to `desired`, with one wiring between them. -/
structure Scene (desired : List ElasticPort) (topology : ElasticPort) (ports : List ElasticPort) :
    Prop where
  unambiguous : Unambiguous desired
  common : ∀ d ∈ desired, ∀ e ∈ desired, e.backends = d.backends
  protocol : ∀ d ∈ desired, d.attachment.protocol = tcp
  wired : ∀ p ∈ ports, WiredLike topology p
  sound : ∀ p ∈ ports, ∃ d ∈ desired, d.same p = true
  identified : ∀ d ∈ desired, ∀ p ∈ ports, Identified d.backends p.backends

theorem Identified.symm {backends others : List Backend} (h : Identified backends others) :
    Identified others backends := by
  intro a ha b hb
  rw [Backend.same_comm, h b hb a ha, eq_comm]

section Scene

variable {inv : Inventory} {desired ports rest : List ElasticPort} {topology p : ElasticPort}
  {x : Grant} {held : Prop}

theorem Scene.tail (scene : Scene desired topology (p :: rest)) : Scene desired topology rest := by
  obtain ⟨unambiguous, common, protocol, wired, sound, identified⟩ := scene
  exact ⟨unambiguous, common, protocol, fun q hq => wired q (.tail p hq),
    fun q hq => sound q (.tail p hq), fun d hd q hq => identified d hd q (.tail p hq)⟩

/-- What is wanted is there in the end if it was or comes with one of the ports. -/
theorem upheldAll_iff_of_wanted (unambiguous : Unambiguous desired)
    (common : ∀ d ∈ desired, ∀ e ∈ desired, e.backends = d.backends)
    (wired : ∀ p ∈ ports, WiredLike topology p)
    (sound : ∀ p ∈ ports, ∃ d ∈ desired, d.same p = true) {e : ElasticPort} (he : e ∈ desired)
    (wanted : Wants inv topology e x) :
    UpheldAll inv desired ports x held ↔ held ∨ ∃ p ∈ ports,
      Refreshes inv (counterpart desired p) p x ∨ Joins inv (counterpart desired p) p x := by
  induction ports generalizing held with
  | nil => simp [UpheldAll]
  | cons p rest ih =>
      obtain ⟨d, hd, hsame⟩ := sound p List.mem_cons_self
      rw [upheldAll_cons, ih (fun q hq => wired q (.tail p hq)) fun q hq => sound q (.tail p hq),
        counterpart_eq unambiguous hd hsame, upheld_iff_of_wanted unambiguous
          (wired p List.mem_cons_self) hd hsame (common d hd) he wanted, or_assoc]
      simp [counterpart_eq unambiguous hd hsame]

/-- What is wanted and there stays through all ports. -/
theorem upheldAll_of_wanted (scene : Scene desired topology ports) {e : ElasticPort}
    (he : e ∈ desired) (wanted : Wants inv topology e x) (hheld : held) :
    UpheldAll inv desired ports x held :=
  (upheldAll_iff_of_wanted scene.unambiguous scene.common scene.wired scene.sound he wanted).2
    (.inl hheld)

/-- What one of the ports wants is there in the end. -/
theorem upheldAll_of_reached (scene : Scene desired topology ports) {d : ElasticPort}
    (hp : p ∈ ports) (hd : d ∈ desired) (hsame : d.same p = true)
    (wanted : Wants inv topology d x) (hneeded : Needs inv p x → held) :
    UpheldAll inv desired ports x held := by
  induction ports generalizing held with
  | nil => simp at hp
  | cons q rest ih =>
      obtain ⟨e, he, hsame_eq⟩ := scene.sound q List.mem_cons_self
      have wired := scene.wired q List.mem_cons_self
      rcases List.mem_cons.1 hp with rfl | hp
      · rw [upheldAll_cons, counterpart_eq scene.unambiguous hd hsame]
        refine upheldAll_of_wanted scene.tail hd wanted ?_
        exact upheld_of_reached scene.unambiguous wired hd hsame (scene.common d hd)
          (scene.protocol d hd) (scene.identified d hd p List.mem_cons_self) wanted hneeded
      · rw [upheldAll_cons, counterpart_eq scene.unambiguous he hsame_eq]
        refine ih scene.tail hp fun needs => ?_
        exact upheld_of_wanted scene.unambiguous wired he hsame_eq (scene.common e he) hd wanted
          (hneeded needs)

/-- What nothing wants and is there in the end was there before, and no port needed it. -/
theorem held_of_upheldAll (scene : Scene desired topology ports)
    (unwanted : ∀ e ∈ desired, ¬ Wants inv topology e x)
    (h : UpheldAll inv desired ports x held) : held ∧ ∀ p ∈ ports, ¬ Needs inv p x := by
  induction ports generalizing held with
  | nil => exact ⟨h, by simp⟩
  | cons p rest ih =>
      obtain ⟨d, hd, hsame⟩ := scene.sound p List.mem_cons_self
      rw [upheldAll_cons, counterpart_eq scene.unambiguous hd hsame] at h
      obtain ⟨upheld, others⟩ := ih scene.tail h
      obtain ⟨hheld, unneeded⟩ := held_of_upheld (scene.wired p List.mem_cons_self) hd hsame
        (scene.protocol d hd) (scene.identified d hd p List.mem_cons_self).symm unwanted upheld
      refine ⟨hheld, fun q hq => ?_⟩
      rcases List.mem_cons.1 hq with rfl | hq
      · exact unneeded
      · exact others q hq

end Scene

/-- What is registered in the end is protected as what is desired. -/
theorem protects_syncedBackends_iff {inv : Inventory} {known desired current : List Backend}
    (identified : Identified known known) (hdesired : desired ⊆ known) (hcurrent : current ⊆ known)
    (distinct : Distinct current) (group : String) :
    inv.Protects (syncedBackends desired current) group ↔ inv.Protects desired group := by
  have registered : syncedBackends desired current ⊆ known := fun r hr => by
    rcases mem_addBackends (mem_syncedBackends.1 hr).1 with h | h
    · exact hcurrent h
    · exact hdesired (mem_backendDifferences.1 h).1
  constructor
  · rintro ⟨r, hr, hmember⟩
    obtain ⟨b, hb, hsame⟩ := exists_same_desired hr
    have hid := (identified r (registered hr) b (hdesired hb)).1 hsame
    exact ⟨b, hb, hid ▸ hmember⟩
  · rintro ⟨b, hb, hmember⟩
    obtain ⟨r, hr, hsame⟩ := exists_same_syncedBackends distinct hb
    have hid := (identified b (hdesired hb) r (registered hr)).1 hsame
    exact ⟨r, hr, hid ▸ hmember⟩

theorem derives_synced_iff {topology d p : ElasticPort} (wired : WiredLike topology p)
    (hsame : d.same p = true) (protocol : d.attachment.protocol = tcp) (rule : Rule) :
    Derives (d.synced p) rule ↔ Derives (placed d topology) rule := by
  obtain ⟨hname, hpair⟩ := Port.same_iff.1 hsame
  have hrules : deriveRules (d.synced p) = deriveRules (placed d topology) :=
    deriveRules_congr hname.symm hpair.symm rfl wired.vip (wired.protocol.trans protocol.symm)
      wired.interfaces
  simp only [Derives, hrules]

/-- A grant is in force just where a port of the balancer `name` needs it. -/
structure Exact (known : List Backend) (name : String) (inv : Inventory) : Prop where
  stocked : inv.Stocked .elastic
  deployed : ∀ p ∈ inv.ports .elastic name, Deployed known p
  probed : ∀ p ∈ inv.ports .elastic name, p.backends = [] ∨ Probed p
  grants : ∀ x, inv.Holds x ↔ ∃ p ∈ inv.ports .elastic name, Needs inv p x

variable {known backends : List Backend} {name : String} {inv base base' : Inventory}
  {first : ElasticPort} {after desired current ports : List ElasticPort}

theorem not_needs_of_idle {p : ElasticPort} (idle : p.backends = []) (x : Grant) :
    ¬ Needs inv p x := by
  simp [Needs, idle]

theorem Exact.of_ports (stocked : (base'.withPorts .elastic name ports).Stocked .elastic)
    (same : base.SameButRules base') (deployed : ∀ p ∈ ports, Deployed known p)
    (probed : ∀ p ∈ ports, p.backends = [] ∨ Probed p)
    (grants : ∀ x, base'.Holds x ↔ ∃ p ∈ ports, Needs base p x) :
    Exact known name (base'.withPorts .elastic name ports) := by
  refine ⟨stocked, by simpa using deployed, by simpa using probed, fun x => ?_⟩
  simpa [Needs, same.protects] using grants x

/-- The ports need together what the desired ones want. -/
theorem needs_syncedAll_iff {topology : ElasticPort} (scene : Scene desired topology current)
    (service : OfService name backends desired) (covers : Covers name desired current)
    (identified : Identified known known) (hknown : backends ⊆ known)
    (deployed : ∀ p ∈ current, Deployed known p) (distinct : ∀ p ∈ current, Distinct p.backends)
    (x : Grant) :
    (∃ p ∈ current.map (Port.syncedBy desired), Needs base p x) ↔
      ∃ d ∈ desired, Wants base topology d x := by
  have synced : ∀ p ∈ current, ∀ d ∈ desired, d.same p = true →
      (Needs base (p.syncedBy desired) x ↔ Wants base topology d x) := by
    intro p hp d hd hsame
    rw [Port.syncedBy_eq scene.unambiguous hd hsame]
    refine and_congr ?_ (derives_synced_iff (scene.wired p hp) hsame (scene.protocol d hd) x.2)
    exact protects_syncedBackends_iff identified (service.backends d hd ▸ hknown)
      (deployed p hp).known (distinct p hp) x.1
  constructor
  · rintro ⟨_, hmem, needs⟩
    obtain ⟨p, hp, rfl⟩ := List.mem_map.1 hmem
    obtain ⟨d, hd, hsame⟩ := covers.sound p hp
    exact ⟨d, hd, (synced p hp d hd hsame).1 needs⟩
  · rintro ⟨d, hd, wants⟩
    obtain ⟨p, hp, hsame⟩ := covers.complete d hd
    exact ⟨_, List.mem_map_of_mem hp, (synced p hp d hd hsame).2 wants⟩

/-- A balancer whose ports go with `topology`, as far as what is desired comes from a service. -/
theorem scene_of_service {topology : ElasticPort} (service : OfService name backends desired)
    (covers : Covers name desired current) (identified : Identified known known)
    (hknown : backends ⊆ known) (deployed : ∀ p ∈ current, Deployed known p)
    (wired : ∀ p ∈ current, WiredLike topology p) : Scene desired topology current := by
  refine ⟨service.unambiguous, fun d hd e he => ?_, service.protocol, wired, covers.sound,
    fun d hd p hp a ha b hb => ?_⟩
  · rw [service.backends d hd, service.backends e he]
  · exact identified a (hknown (service.backends d hd ▸ ha)) b ((deployed p hp).known hb)

theorem stocked_effect {α : Type} (program : Program α) (stocked : inv.Stocked .elastic) :
    (program.effect inv).2.Stocked .elastic := by
  have keeps {inv after : Inventory} {c : Call} {answer : c.Answer}
      (happly : inv.apply c = .ok (answer, after)) (stocked : inv.Stocked .elastic) :
      after.Stocked .elastic := stocked.changes (changes_apply happly)
  exact program.effect_keeps keeps stocked

/-- All ports of a balancer go with one of them, before and after they are arranged. -/
theorem wired_arrangedPorts (base : Inventory) (service : OfService name backends desired)
    (hnew : desired ≠ []) (valid : ValidPorts .elastic name current)
    (deployed : ∀ p ∈ current, Deployed known p) :
    ∃ topology, (∀ p ∈ current, WiredLike topology p) ∧
      ∀ p ∈ arrangedPorts (k := .elastic) base desired current, WiredLike topology p := by
  cases current with
  | nil =>
      cases desired with
      | nil => exact absurd rfl hnew
      | cons d rest =>
          refine ⟨firstPort (k := .elastic) base d, by simp, fun p hp => ?_⟩
          rcases List.mem_cons.1 hp with rfl | hp
          · exact ⟨rfl, rfl, service.protocol d List.mem_cons_self⟩
          · obtain ⟨e, he, rfl⟩ := List.mem_map.1 hp
            exact ⟨rfl, rfl, service.protocol e (List.mem_cons_of_mem d he)⟩
  | cons first after =>
      have held : ∀ p ∈ first :: after, WiredLike first p := fun p hp =>
        ⟨valid.vip_eq hp List.mem_cons_self, valid.interfaces_eq hp List.mem_cons_self,
          (deployed p hp).protocol⟩
      refine ⟨first, held, fun p hp => ?_⟩
      rcases List.mem_append.1 hp with hp | hp
      · exact held p (mem_keptPorts.1 hp).1
      · obtain ⟨d, hd, rfl⟩ := List.mem_map.1 hp
        exact ⟨rfl, rfl, service.protocol d (mem_portDifferences.1 hd).1⟩

/-- What is held in the end, where what was held before is what was needed. -/
theorem upheldAll_iff_wants {topology : ElasticPort} {arranged : List ElasticPort} {x : Grant}
    (scene : Scene desired topology arranged) (covers : Covers name desired arranged)
    (stale : ∀ p ∈ current, (∃ d ∈ desired, d.same p = true) → p ∈ arranged)
    (origin : ∀ p ∈ arranged, p ∈ current ∨ p.backends = [])
    (wired : ∀ p ∈ current, WiredLike topology p)
    (held : base.Holds x ↔ ∃ p ∈ current, Needs base p x) :
    UpheldAll base desired arranged x
        (base.Holds x ∧ Survives base desired (portDifferences current desired) x) ↔
      ∃ d ∈ desired, Wants base topology d x := by
  have retained : ∀ p ∈ portDifferences current desired,
      (Retains base desired p p x ↔ ∃ d ∈ desired, Wants base topology d x) := by
    intro p hp
    obtain ⟨hp, undesired⟩ := mem_portDifferences.1 hp
    rw [retains_iff (wired p hp)]
    refine exists_congr fun e => and_congr_right fun he => and_iff_right ?_
    rw [Port.same_comm, undesired e he]
  constructor
  · intro upheld
    by_contra unwanted
    have unwanted : ∀ d ∈ desired, ¬ Wants base topology d x := by simpa using unwanted
    obtain ⟨⟨hheld, survives⟩, unneeded⟩ := held_of_upheldAll scene unwanted upheld
    obtain ⟨p, hp, needs⟩ := held.1 hheld
    -- The port that needed it loses it while it is synchronised, or is deleted with it.
    by_cases kept : ∃ d ∈ desired, d.same p = true
    · exact unneeded p (stale p hp kept) needs
    · have hstale : p ∈ portDifferences current desired := by
        refine mem_portDifferences.2 ⟨hp, fun d hd => ?_⟩
        rw [Port.same_comm, Bool.eq_false_iff]
        exact fun hsame => kept ⟨d, hd, hsame⟩
      refine survives p hstale ⟨needs.1, needs.2, fun retains => ?_⟩
      obtain ⟨d, hd, wants⟩ := (retained p hstale).1 retains
      exact unwanted d hd wants
  · rintro ⟨d, hd, wants⟩
    obtain ⟨p, hp, hsame⟩ := covers.complete d hd
    refine upheldAll_of_reached scene hp hd hsame wants fun needs => ⟨held.2 ⟨p, ?_, needs⟩, ?_⟩
    · exact (origin p hp).resolve_right fun idle => not_needs_of_idle idle x needs
    · exact fun q hq doomed => doomed.2.2 ((retained q hq).2 ⟨d, hd, wants⟩)

theorem exact_reconcile (exact : Exact known name inv) (identified : Identified known known)
    (service : OfService name backends desired) (hknown : backends ⊆ known) :
    Exact known name ((reconcile name desired).effect inv).2 := by
  by_cases hnew : desired = []
  · rw [hnew]
    exact exact
  have valid := exact.stocked.ports name
  have stocked := stocked_effect (reconcile name desired) exact.stocked
  rcases effect_reconcile exact.stocked service hnew exact.deployed with
    completed | ⟨-, aborted⟩
  · obtain ⟨-, covers, base', heffect, same, holds⟩ := completed
    obtain ⟨topology, wired, arranged⟩ :=
      wired_arrangedPorts inv service hnew valid exact.deployed
    have deployed := deployed_arrangedPorts inv service exact.deployed
    have scene := scene_of_service service covers identified hknown deployed arranged
    have origin : ∀ p ∈ arrangedPorts (k := .elastic) inv desired (inv.ports .elastic name),
        p ∈ inv.ports .elastic name ∨ p.backends = [] := fun p hp =>
      (mem_arrangedPorts hp).imp_right And.left
    have distinct : ∀ p ∈ arrangedPorts (k := .elastic) inv desired (inv.ports .elastic name),
        Distinct p.backends := fun p hp => distinct_arrangedPorts valid hp
    rw [heffect] at stocked ⊢
    refine .of_ports stocked same (deployed_syncedAll service hknown covers deployed)
      (fun p hp => .inr (probed_syncedAll service covers p hp)) fun x => ?_
    rw [holds, needs_syncedAll_iff scene service covers identified hknown deployed distinct]
    exact upheldAll_iff_wants scene covers
      (fun p hp kept => arrangedPorts_of_desired (k := .elastic) inv hp kept) origin wired
      (exact.grants x)
  · obtain ⟨-, base', added, heffect, fresh, same, holds⟩ := aborted
    -- The ports that were added have no backends, so they need nothing.
    rw [heffect] at stocked ⊢
    refine .of_ports stocked same (fun p hp => ?_) (fun p hp => ?_) fun x => ?_
    · rcases List.mem_append.1 hp with hp | hp
      · exact exact.deployed p hp
      · exact (fresh p hp).2
    · rcases List.mem_append.1 hp with hp | hp
      · exact exact.probed p hp
      · exact .inl (fresh p hp).1
    · rw [holds, exact.grants]
      constructor
      · rintro ⟨p, hp, needs⟩
        exact ⟨p, List.mem_append_left _ hp, needs⟩
      · rintro ⟨p, hp, needs⟩
        rcases List.mem_append.1 hp with hp | hp
        · exact ⟨p, hp, needs⟩
        · exact absurd needs (not_needs_of_idle (fresh p hp).1 x)

theorem exact_delete (exact : Exact known name inv) :
    ∃ after, (delete name).effect inv = (.ok (), after) ∧ Exact known name after ∧
      ∀ x, ¬ after.Holds x := by
  have valid := exact.stocked.ports name
  have hinv := exact.stocked.withPorts_ports name
  rcases effect_delete inv (apart_of_pairs valid.pairs) fun p hp => valid.named hp with
    ⟨base', heffect, same, holds⟩ | ⟨-, -, -, p, hp, -, underivable⟩
  · rw [hinv] at heffect
    have stocked := stocked_effect (.ofJob (delete name)) exact.stocked
    have ungranted (x : Grant) : ¬ base'.Holds x := by
      rw [holds, exact.grants]
      rintro ⟨⟨p, hp, needs⟩, gone⟩
      exact gone p hp needs
    rw [Program.effect_ofJob, heffect] at stocked
    refine ⟨_, heffect, .of_ports stocked same (by simp) (by simp) fun x => by simp [ungranted], ?_⟩
    exact fun x held => ungranted x ((holds_withPorts ..).1 held)
  · obtain ⟨rules, hrules⟩ := (exact.deployed p hp).granted
    exact absurd hrules (underivable rules)

end Reconcile.Elastic

section Requests

open Reconcile.Elastic Inventory

variable {known : List Backend} {name : String} {inv : Inventory} {request : Request}

theorem exact_request (exact : Exact known name inv) (identified : Identified known known)
    (elastic : request.service.kind = .ok .elastic) (named : request.service.balancerName = name)
    (hknown : request.backends ⊆ known) : Exact known name (request.program.effect inv).2 := by
  subst named
  have reconciled (service : Service) (backends : List Backend) (hknown : backends ⊆ known)
      (exact : Exact known service.balancerName inv) (elastic : service.kind = .ok .elastic) :
      Exact known service.balancerName ((discard (service.ensure backends)).effect inv).2 := by
    rw [Program.effect_discard]
    cases hdesired : desiredElastic service.balancerName backends service with
    | error e =>
        rw [Service.ensure_eq_fail elastic hdesired]
        exact exact
    | ok desired =>
        rw [Service.ensure_eq elastic hdesired]
        exact exact_reconcile exact identified (ofService_desiredElastic hdesired) hknown
  cases request with
  | ensure service backends => exact reconciled service backends hknown exact elastic
  | update service backends => exact reconciled service backends hknown exact elastic
  | delete service =>
      dsimp only [Request.service] at elastic exact ⊢
      obtain ⟨after, heffect, deleted, -⟩ := exact_delete exact
      show Exact known _ (service.delete.effect inv).2
      rwa [Service.delete_eq elastic, Program.effect_ofJob, heffect]

theorem exact_serveAll {requests : List Request} {s : Session} (prompt : s.cloud.failures = [])
    (exact : Exact known name s.cloud.inventory) (identified : Identified known known)
    (elastic : ∀ r ∈ requests, r.service.kind = .ok .elastic)
    (named : ∀ r ∈ requests, r.service.balancerName = name)
    (hknown : ∀ r ∈ requests, r.backends ⊆ known) :
    (s.serveAll requests).cloud.failures = [] ∧
      Exact known name (s.serveAll requests).cloud.inventory ∧
      ∀ group, (s.serveAll requests).cloud.inventory.members group =
        s.cloud.inventory.members group := by
  induction requests generalizing s with
  | nil => exact ⟨prompt, exact, fun _ => rfl⟩
  | cons request rest ih =>
      obtain ⟨inventory, served⟩ := s.serve_inventory prompt request
      have next := exact_request exact identified (elastic request List.mem_cons_self)
        (named request List.mem_cons_self) (hknown request List.mem_cons_self)
      rw [← inventory] at next
      obtain ⟨prompt, exact, members⟩ := ih served next
        (fun r hr => elastic r (.tail request hr)) (fun r hr => named r (.tail request hr))
        fun r hr => hknown r (.tail request hr)
      refine ⟨prompt, exact, fun group => (members group).trans ?_⟩
      rw [inventory, members_request]

theorem exact_of_empty (empty : inv.elastic = ∅) (unruled : ∀ group, inv.rulesOf group = []) :
    Exact known name inv := by
  have none : inv.ports .elastic name = [] := by
    simp [Inventory.ports, table, empty]
  refine ⟨stocked_of_empty empty, by simp [none], by simp [none], fun x => ?_⟩
  simp [none, Holds, unruled]

/-- Whatever is requested of one elastic balancer, where nothing goes wrong: afterwards a rule is
on a group if and only if some port of the balancer derives it and has a backend that is a member
of the group, and there is no rule after a deletion. -/
theorem serveAll_exact {s : Session} (prompt : s.cloud.failures = [])
    (empty : s.cloud.inventory.elastic = ∅)
    (unruled : ∀ group, s.cloud.inventory.rulesOf group = []) {requests : List Request}
    (elastic : ∀ r ∈ requests, r.service.kind = .ok .elastic)
    (named : ∀ r ∈ requests, r.service.balancerName = name)
    (identified : ∀ r ∈ requests, ∀ q ∈ requests, ∀ a ∈ r.backends, ∀ b ∈ q.backends,
      a.same b = true ↔ a.instanceId = b.instanceId) :
    (∀ p ∈ (s.serveAll requests).cloud.inventory.ports .elastic name,
        p.backends ≠ [] → ∃ rules, deriveRules p = .ok rules) ∧
      (∀ group rule, rule ∈ (s.serveAll requests).cloud.inventory.rulesOf group ↔
        ∃ p ∈ (s.serveAll requests).cloud.inventory.ports .elastic name,
          (∃ b ∈ p.backends, b.instanceId ∈ s.cloud.inventory.members group) ∧
            ∃ rules, deriveRules p = .ok rules ∧ rule ∈ rules) ∧
      ∀ service, requests.getLast? = some (.delete service) →
        ∀ group, (s.serveAll requests).cloud.inventory.rulesOf group = [] := by
  let known := requests.flatMap Request.backends
  have identified : Identified known known := by
    intro a ha b hb
    obtain ⟨r, hr, ha⟩ := List.mem_flatMap.1 ha
    obtain ⟨q, hq, hb⟩ := List.mem_flatMap.1 hb
    exact identified r hr q hq a ha b hb
  have hknown : ∀ r ∈ requests, r.backends ⊆ known := fun r hr b hb =>
    List.mem_flatMap.2 ⟨r, hr, hb⟩
  have start : Exact known name s.cloud.inventory := exact_of_empty empty unruled
  obtain ⟨-, exact, members⟩ := exact_serveAll prompt start identified elastic named hknown
  refine ⟨fun p hp busy => ?_, fun group rule => ?_, fun service last group => ?_⟩
  · exact deriveRules_ok ((exact.probed p hp).resolve_left busy) (exact.deployed p hp).wired
  · simpa [Holds, Needs, Protects, Derives, members] using exact.grants (group, rule)
  · obtain ⟨earlier, rfl⟩ := List.getLast?_eq_some_iff.1 last
    obtain ⟨prompt, exact, -⟩ := exact_serveAll prompt start identified
      (fun r hr => elastic r (List.mem_append_left _ hr))
      (fun r hr => named r (List.mem_append_left _ hr))
      fun r hr => hknown r (List.mem_append_left _ hr)
    obtain ⟨inventory, -⟩ := (s.serveAll earlier).serve_inventory prompt (.delete service)
    have kind : service.kind = .ok .elastic := elastic (.delete service) (by simp)
    have hname : service.balancerName = name := named (.delete service) (by simp)
    obtain ⟨after, heffect, -, ungranted⟩ := exact_delete exact
    have deleted : ((s.serveAll earlier).serve (.delete service)).cloud.inventory = after := by
      rw [inventory]
      show (service.delete.effect _).2 = _
      rw [Service.delete_eq kind, Program.effect_ofJob, hname, heffect]
    rw [Session.serveAll, List.foldl_append, List.eq_nil_iff_forall_not_mem]
    intro rule hrule
    exact ungranted (group, rule) (deleted ▸ hrule)

/-- What comes and goes for the sample balancer. -/
def Sample.requests : List Request :=
  [.ensure service backends, .update service [], .ensure service backends, .delete service]

/-- The rule of the port is back on the group after the second request to ensure the balancer, and
gone in the end. -/
theorem serveAll_exact_sample :
    let start : Session := { cloud := { inventory := Sample.inventory } }
    let ensured := start.serveAll Sample.requests.dropLast
    let s := start.serveAll Sample.requests
    ensured.cloud.inventory.rulesOf "g" = [.inbound "TCP" (some 30080) "203.0.113.1"] ∧
      (∀ group rule, rule ∈ ensured.cloud.inventory.rulesOf group ↔
        ∃ p ∈ ensured.cloud.inventory.ports .elastic "web",
          (∃ b ∈ p.backends, b.instanceId ∈ Sample.inventory.members group) ∧
            ∃ rules, deriveRules p = .ok rules ∧ rule ∈ rules) ∧
      (∀ p ∈ s.cloud.inventory.ports .elastic "web",
        p.backends ≠ [] → ∃ rules, deriveRules p = .ok rules) ∧
      (∀ group rule, rule ∈ s.cloud.inventory.rulesOf group ↔
        ∃ p ∈ s.cloud.inventory.ports .elastic "web",
          (∃ b ∈ p.backends, b.instanceId ∈ Sample.inventory.members group) ∧
            ∃ rules, deriveRules p = .ok rules ∧ rule ∈ rules) ∧
      ∀ service, Sample.requests.getLast? = some (.delete service) →
        ∀ group, s.cloud.inventory.rulesOf group = [] := by
  dsimp only
  refine ⟨by decide +kernel, (serveAll_exact (s := { cloud := { inventory := Sample.inventory } })
    rfl rfl Sample.unruled ?_ ?_ ?_).2.1, serveAll_exact
    (s := { cloud := { inventory := Sample.inventory } }) rfl rfl Sample.unruled ?_ ?_ ?_⟩
  all_goals decide +kernel

end Requests

end CloudBalancer
