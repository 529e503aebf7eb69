import CloudBalancer.Proofs.Administration
import CloudBalancer.Proofs.PortChanges
import CloudBalancer.Proofs.Stages

/-!
Where the rules in force are from. A balancer that none of its ports checks has granted nothing, if
no call that configures a health check has to wait: a new port gets its health check before its
groups are opened. Such a call that is under way for long does not keep the groups from being
opened, and then the rules are there without the health check.
-/

namespace CloudBalancer

/-- The health check of the port is configured. -/
def Port.Checked {α : Type} (p : Port α) : Prop :=
  p.healthCheck.target ≠ ""

theorem Script.Truthful.about {script : Script} (truthful : script.Truthful)
    (about : Call → Prop) : script.TruthfulAbout about :=
  fun entry hentry c _ => truthful entry hentry c

/-- Each rule in force is from addresses of a balancer with a port that has its health check. -/
structure Inventory.Accounted (inv : Inventory) : Prop where
  stocked : inv.Stocked .elastic
  vouched : ∀ x, inv.Holds x → ∃ name, ∃ p ∈ inv.ports .elastic name,
    p.Checked ∧ x.2.From p.addresses

/-- How far a reconciliation has got. -/
inductive Phase
  /-- Nothing is known of the balancer. -/
  | founding
  /-- The balancer is there, and so are its addresses. -/
  | wired
  /-- A desired port has its health check, too. -/
  | checked
  deriving DecidableEq

namespace Inventory

variable {inv after : Inventory} {c : Call} {answer : c.Answer}

/-- A grant that is in force was so before or is what the call was for. -/
theorem holds_of_apply (h : inv.apply c = .ok (answer, after)) {x : Grant} (held : after.Holds x) :
    inv.Holds x ∨ c = .authorize x.1 x.2 := by
  obtain ⟨group', rule'⟩ := x
  rcases groups_apply h with same | ⟨group, rule, ⟨rfl, rfl⟩ | ⟨-, rfl⟩⟩
  · exact .inl (by simpa only [Holds, rulesOf, same] using held)
  all_goals
    simp only [Holds, rulesOf_setRules] at held ⊢
    split at held
    case isFalse => exact .inl held
  · next hgroup =>
    subst hgroup
    rcases List.mem_append.1 held with held | held
    · exact .inl held
    · exact .inr (by rw [List.mem_singleton.1 held])
  · next hgroup =>
    subst hgroup
    exact .inl (List.mem_filter.1 held).1

end Inventory

namespace Reconcile.Elastic

open Inventory

variable {name : String} {desired : List ElasticPort} {own : List String} {phase : Phase}
  {inv after : Inventory} {c : Call}

/-- The call is about the balancer. It opens no group and deletes no port before a desired port has
its health check. -/
structure Cautious (name : String) (desired : List ElasticPort) (own : List String) (phase : Phase)
    (c : Call) : Prop where
  subject : ∀ s, c.subject = some s → s = (.elastic, name)
  creates : ∀ p, c = .create .elastic p → phase = .founding
  checks : ∀ p, c = .configureHealthCheck .elastic p → p.Checked
  deletes : ∀ p, c = .deletePort .elastic p →
    phase = .checked ∧ ∀ d ∈ desired, d.same p = false
  grants : ∀ group rule, c = .authorize group rule → phase = .checked ∧ rule.From own

def watching (name : String) (desired : List ElasticPort) (own : List String) (phase : Phase) :
    Contract where
  allowed := Cautious name desired own phase
  told
    | .describe .elastic other, ports => other = name → ∀ p ∈ ports, p.name = name ∧
        (phase ≠ .founding → p.addresses = own)
    | _, _ => True

/-- How the balancer is in the meantime. -/
structure Guarded (name : String) (desired : List ElasticPort) (own : List String) (phase : Phase)
    (inv : Inventory) : Prop extends inv.Accounted where
  wired : phase ≠ .founding → ∀ p ∈ inv.ports .elastic name, p.addresses = own
  checked : phase = .checked → ∃ p ∈ inv.ports .elastic name, p.Checked ∧
    ∃ d ∈ desired, d.same p = true

/-- What is checked stays so. -/
theorem Cautious.checked_of_revises {d p new : Kind.elastic.Port}
    (cautious : Cautious name desired own phase c) (revises : Revises c d p new)
    (checked : p.Checked) : new.Checked := by
  cases revises with
  | check d p => exact cautious.checks d rfl
  | update | join | leave | filter => exact checked

section Apply

variable {answer : c.Answer} (guarded : Guarded name desired own phase inv)
  (cautious : Cautious name desired own phase c) (h : inv.apply c = .ok (answer, after))

include guarded cautious h

theorem Guarded.wired_apply (known : phase ≠ .founding) :
    ∀ p ∈ after.ports .elastic name, p.addresses = own := by
  refine forall_ports_apply (k := .elastic) (guarded.stocked.solid _) h (guarded.wired known)
    ?_ ?_ ?_
  · exact fun p hc _ => absurd (cautious.creates p hc) known
  · rintro p first - wired
    exact wired
  · exact fun d p new revises _ wired => revises.addresses.trans wired

theorem Guarded.checked_apply (done : phase = .checked) :
    ∃ p ∈ after.ports .elastic name, p.Checked ∧ ∃ d ∈ desired, d.same p = true := by
  refine exists_ports_apply (k := .elastic) h (guarded.checked done) ?_ ?_
  · rintro p gone hc ⟨-, d, hd, same⟩
    rw [← Port.same_congr same]
    exact (cautious.deletes gone hc).2 d hd
  · rintro d p new revises - ⟨checked, e, he, same⟩
    exact ⟨cautious.checked_of_revises revises checked, e, he,
      by rwa [Port.same_comm, revises.same, Port.same_comm]⟩

/-- What vouched for a rule still does, or else the port of this balancer that has its health
check does instead. -/
theorem Guarded.vouched_apply {rule : Rule} (vouched : ∃ other, ∃ p ∈ inv.ports .elastic other,
    p.Checked ∧ rule.From p.addresses) :
    ∃ other, ∃ p ∈ after.ports .elastic other, p.Checked ∧ rule.From p.addresses := by
  obtain ⟨other, p, hp, checked, source⟩ := vouched
  by_cases hother : other = name
  case neg =>
    have same : after.ports .elastic other = inv.ports .elastic other := by
      rw [Inventory.ports, Inventory.ports, table_apply (k := .elastic) h fun subject =>
        hother (by simpa using cautious.subject _ subject)]
    exact ⟨other, p, same ▸ hp, checked, source⟩
  case pos =>
    subst hother
    by_cases done : phase = .checked
    case pos =>
      have known : phase ≠ .founding := by simp [done]
      obtain ⟨q, hq, qchecked, -⟩ := guarded.checked_apply cautious h done
      refine ⟨other, q, hq, qchecked, ?_⟩
      rw [guarded.wired_apply cautious h known q hq, ← guarded.wired known p hp]
      exact source
    case neg =>
      refine ⟨other, exists_ports_apply (k := .elastic) h
        ⟨p, hp, checked, source⟩ ?_ ?_⟩
      · exact fun _ gone hc _ => absurd (cautious.deletes gone hc).1 done
      · rintro d p new revises - ⟨checked, source⟩
        exact ⟨cautious.checked_of_revises revises checked,
          revises.addresses.symm ▸ source⟩

theorem Guarded.apply : Guarded name desired own phase after := by
  refine ⟨⟨guarded.stocked.changes (changes_apply h), fun x held => ?vouched⟩,
    guarded.wired_apply cautious h, guarded.checked_apply cautious h⟩
  rcases holds_of_apply h held with held | hc
  · exact guarded.vouched_apply cautious h (guarded.vouched x held)
  · obtain ⟨done, source⟩ := cautious.grants _ _ hc
    obtain ⟨q, hq, checked, -⟩ := guarded.checked_apply cautious h done
    have known : phase ≠ .founding := by simp [done]
    exact ⟨name, q, hq, checked, guarded.wired_apply cautious h known q hq ▸ source⟩

end Apply

theorem watching_keeps (name : String) (desired : List ElasticPort) (own : List String)
    (phase : Phase) : (watching name desired own phase).Keeps
      fun cloud => Guarded name desired own phase cloud.inventory := by
  refine Contract.keeps_of_apply _ (fun cautious h guarded => guarded.apply cautious h)
    fun {inv after c answer} _ h guarded => ?_
  cases c with
  | describe k other =>
      cases k with
      | l4 => trivial
      | elastic =>
          rintro rfl
          rw [← (describe_eq_ok (k := .elastic) h).1]
          exact fun p hp => ⟨(guarded.stocked.ports _).named hp,
            fun known => guarded.wired known p hp⟩
  | _ => trivial

section Conduct

variable {p : ElasticPort}

theorem cautious_about (subject : c.subject = some (.elastic, name))
    (creates : ∀ p, c = .create .elastic p → phase = .founding)
    (checks : ∀ p, c = .configureHealthCheck .elastic p → p.Checked)
    (deletes : ∀ p, c = .deletePort .elastic p →
      phase = .checked ∧ ∀ d ∈ desired, d.same p = false) :
    Cautious name desired own phase c := by
  refine ⟨fun s hs => ?_, creates, checks, deletes, ?_⟩
  · rw [subject] at hs
    exact (Option.some.inj hs).symm
  · rintro group rule rfl
    cases subject

theorem known_of_shown (shown : (watching name desired own phase).Shows .elastic name p) :
    p.name = name ∧ (phase ≠ .founding → p.addresses = own) := by
  obtain ⟨ports, told, hp⟩ := shown
  exact told rfl p hp

theorem watching_asks : (watching name desired own phase).LetsAsk :=
  ⟨fun _ => ⟨nofun, nofun, nofun, nofun, nofun⟩, fun _ => ⟨nofun, nofun, nofun, nofun, nofun⟩⟩

variable (named : ∀ d ∈ desired, d.name = name) (checkable : ∀ d ∈ desired, d.Checked)

include named checkable

theorem watching_builds :
    (watching name desired own phase).LetsBuild (k := .elastic) name desired where
  describe := ⟨nofun, nofun, nofun, nofun, nofun⟩
  register d hd := cautious_about (by rw [Call.subject, named d hd]) nofun nofun nofun
  check d hd := by
    refine cautious_about (by rw [Call.subject, named d hd]) nofun ?_ nofun
    rintro _ ⟨⟩
    exact checkable d hd
  filter d hd _ := cautious_about (by rw [Call.subject, named d hd]) nofun nofun nofun

omit checkable in
theorem watching_fills {d view : ElasticPort} (hd : d ∈ desired) (hview : d.same view = true) :
    (watching name desired own phase).allowed (.registerBackends .elastic view d.backends) := by
  have viewNamed : view.name = name := by rw [← (Port.same_iff.1 hview).1, named d hd]
  exact cautious_about (by rw [Call.subject, viewNamed]) nofun nofun nofun

theorem watching_founds :
    (watching name desired own .founding).LetsFound (k := .elastic) name desired where
  toLetsBuild := watching_builds named checkable
  create d hd := cautious_about (by rw [Call.subject, named d hd]) (fun _ _ => rfl) nofun nofun
  fill _ hd _ hview := watching_fills named hd hview

theorem watching_adjusts :
    (watching name desired own .checked).LetsAdjust (k := .elastic) name desired where
  toLetsBuild := watching_builds named checkable
  update d hd := cautious_about (by rw [Call.subject, named d hd]) nofun nofun nofun
  join d p pairs _ view hview := by
    have viewNamed : view.name = name := by
      rw [(Port.same_iff.1 hview).1, (known_of_shown pairs.shown).1]
    exact cautious_about (by rw [Call.subject, viewNamed]) nofun nofun nofun
  leave d p pairs _ view hview := by
    have viewNamed : view.name = name := by
      rw [(Port.same_iff.1 hview).1, (known_of_shown pairs.shown).1]
    exact cautious_about (by rw [Call.subject, viewNamed]) nofun nofun nofun
  clear p discards _ := cautious_about (by rw [Call.subject, (known_of_shown discards.shown).1])
    nofun nofun nofun
  drop p discards := by
    refine cautious_about (by rw [Call.subject, (known_of_shown discards.shown).1]) nofun nofun ?_
    rintro _ ⟨⟩
    exact ⟨rfl, fun d hd => by rw [Port.same_comm, discards.unwanted d hd]⟩

omit named checkable in
theorem watching_upholds :
    (watching name desired own .checked).LetsUphold name desired where
  toLetsAsk := watching_asks
  grant p shown x concerns := by
    refine ⟨nofun, nofun, nofun, nofun, ?_⟩
    rintro _ _ ⟨⟩
    exact ⟨rfl, (known_of_shown shown).2 nofun ▸ concerns.source⟩
  withdraw _ _ _ _ _ := ⟨nofun, nofun, nofun, nofun, nofun⟩

end Conduct

section Runs

variable {config : Config} {current : List ElasticPort} {d p : ElasticPort}

/-- A reconciliation is under way in a world that makes nothing up and answers at once to what
configures a health check. -/
structure Watched (name : String) (desired : List ElasticPort) (own : List String) (phase : Phase)
    (w : World) : Prop where
  truthful : w.script.Truthful
  immediate : w.script.Immediate (.configureHealthCheck .elastic)
  guarded : Guarded name desired own phase w.cloud.inventory

/-- The ports are those of the balancer that has the addresses. -/
def Wirings (name : String) (own : List String) (current : List ElasticPort) : Prop :=
  ∀ p ∈ current, p.name = name ∧ p.addresses = own

theorem Watched.within {α : Type} {post : α → Prop} {program : Program α} (config : Config)
    (within : program.Within (watching name desired own phase) post) :
    program.Leads config (Watched name desired own phase)
      (fun value w => post value ∧ Watched name desired own phase w)
      (·.cloud.inventory.Accounted) := by
  intro w watched
  have keeps := watching_keeps name desired own phase
  have start : w.Sound (watching name desired own phase)
      (Guarded name desired own phase ·.inventory) w.calls :=
    .start watched.guarded (watched.truthful.agrees _)
  have guarded := (within.simulate start keeps config).good
  have left := Program.script_simulate config program w
  split
  · next value after heq =>
    have hvalue : post value := Program.Within.value within start keeps config (by rw [heq])
    rw [heq] at guarded left
    exact ⟨hvalue, fun entry hentry => watched.truthful entry (left hentry),
      watched.immediate.left left, guarded⟩
  · next heq =>
    rw [heq] at guarded
    exact guarded.toAccounted

theorem Watched.await {w : World} (watched : Watched name desired own phase w)
    (cautious : Cautious name desired own phase c) (limit : Limit) :
    Watched name desired own phase (w.await (config.timeout limit) c).2 := by
  have within : (Program.call ⟨.balancer name, limit⟩ c fun _ => .done ()).Within
      (watching name desired own phase) fun _ => True :=
    ⟨cautious, fun _ _ => trivial⟩
  exact (Watched.within config within w watched).2

/-- Once a desired port is there with its health check, groups may be opened. -/
theorem Guarded.settle (guarded : Guarded name desired own .wired inv)
    (there : ∃ p ∈ inv.ports .elastic name, p.Checked ∧ ∃ d ∈ desired, d.same p = true) :
    Guarded name desired own .checked inv :=
  ⟨guarded.toAccounted, fun _ => guarded.wired nofun, fun _ => there⟩

theorem Guarded.wirings {first : ElasticPort} {rest : List ElasticPort}
    (guarded : Guarded name desired [] .founding inv)
    (held : inv.ports .elastic name = first :: rest) :
    Wirings name first.addresses (first :: rest) ∧
      Guarded name desired first.addresses .wired inv := by
  have valid := guarded.stocked.ports name
  rw [held] at valid
  have alike : ∀ p ∈ first :: rest, p.addresses = first.addresses := fun p hp =>
    Port.addresses_congr (valid.vip_eq hp List.mem_cons_self)
      (valid.interfaces_eq hp List.mem_cons_self)
  exact ⟨fun p hp => ⟨valid.named hp, alike p hp⟩, guarded.toAccounted, fun _ => held ▸ alike,
    nofun⟩

variable (named : ∀ d ∈ desired, d.name = name) (checkable : ∀ d ∈ desired, d.Checked)

include named checkable

theorem leads_check (hd : d ∈ desired) :
    (Program.ofJob (configureHealthCheck (k := .elastic) d)).Leads config
      (Watched name desired own .wired) (fun _ => Watched name desired own .checked)
      (·.cloud.inventory.Accounted) := by
  have cautious : Cautious name desired own .wired (.configureHealthCheck .elastic d) :=
    (watching_builds named checkable).check d hd
  have logged (event : AuditEvent) :
      (Program.ofJob (Job.log event)).Within (watching name desired own .checked) fun _ => True :=
    trivial
  refine Program.Leads.bindJob (.remote _ (fun w watched answer answered => ?_) fun w watched =>
    (watched.await cautious .api).guarded.toAccounted) fun _ =>
      (Watched.within _ (logged _)).imp fun _ _ => And.right
  have checked : Watched name desired own .wired (w.await (config.timeout .api) _).2 :=
    watched.await cautious .api
  refine ⟨checked.truthful, checked.immediate, checked.guarded.settle ?_⟩
  obtain ⟨before, p, rest, new, -, selects, hnew, hafter⟩ :=
    modifyPort_eq_ok (of_map_ok (World.await_applied rfl answered))
  obtain rfl := Except.ok.inj hnew
  refine ⟨{ p with healthCheck := d.healthCheck }, ?_, checkable d hd, d, hd, ?_⟩
  · rw [hafter, ← named d hd, ports_withPorts]
    simp
  · rw [Port.same_comm]
    exact selects.same

omit named checkable in
theorem ended_configureHealthCheck {w : World} (d : ElasticPort)
    (immediate : w.script.Immediate (.configureHealthCheck .elastic)) :
    ∃ result after, (configureHealthCheck (k := .elastic) d).advance config w =
      (.ended result, after) := by
  obtain ⟨outcome, after, issued⟩ :=
    World.issue_of_immediate (config.timeout .api) (c := .configureHealthCheck .elastic d) immediate
  simp only [configureHealthCheck, Job.remote, bind, Job.bind, Job.advance, issued]
  cases outcome <;> exact ⟨_, _, rfl⟩

/-- The groups of a new port are opened once it has its health check, and not if that fails. -/
theorem leads_configureNewPort (told : Wirings name own current) (hp : p ∈ current)
    (hd : d ∈ desired) (same : d.same p = true) :
    (configureNewPort name d p).Leads config (Watched name desired own .wired)
      (fun _ => Watched name desired own .checked) (·.cloud.inventory.Accounted) := by
  have pairs : (watching name desired own .checked).Pairs (k := .elastic) name desired d p :=
    ⟨⟨current, fun _ q hq => ⟨(told q hq).1, fun _ => (told q hq).2⟩, hp⟩, hd, same⟩
  have within := within_configureNewPort watching_upholds.toLetsOpen
    (watching_builds named checkable) (fun d hd view => watching_fills named hd) pairs
  refine Program.Leads.group (fun w watched => ended_configureHealthCheck d watched.immediate)
    (leads_check named checkable hd) ?_
  exact (Watched.within _ (.group _ fun job hjob => within.1 job (.tail _ hjob))).imp
    fun _ _ => And.right

theorem leads_configureAll (some_port : current ≠ []) (told : Wirings name own current) :
    (configureAll name desired current).Leads config (Watched name desired own .wired)
      (fun _ => Watched name desired own .checked) (·.cloud.inventory.Accounted) := by
  obtain ⟨p, rest, rfl⟩ := List.exists_cons_of_ne_nil some_port
  have pairs {d q : ElasticPort} (hq : q ∈ p :: rest) (h : desiredFor desired q = .ok d) :
      (watching name desired own .checked).Pairs (k := .elastic) name desired d q := by
    obtain ⟨wanted, same⟩ := desiredFor_eq_ok h
    exact ⟨⟨_, fun _ q hq => ⟨(told q hq).1, fun _ => (told q hq).2⟩, hq⟩, wanted, same⟩
  refine Program.Leads.bind (?_ : (Program.forEach (p :: rest) _).Leads _ _
    (fun _ => Watched name desired own .checked) _) fun _ => .pure fun _ => id
  rw [Program.forEach_cons]
  refine Program.Leads.bind (?first : Program.Leads _ _ _
    (fun _ => Watched name desired own .checked) _) fun _ => ?others
  case first =>
    have chosen : (Program.ofExcept (desiredFor desired p)).Leads config
        (Watched name desired own .wired)
        (fun d w => (d ∈ desired ∧ d.same p = true) ∧ Watched name desired own .wired w)
        (·.cloud.inventory.Accounted) :=
      .ofExcept (fun d h w watched => ⟨desiredFor_eq_ok h, watched⟩)
        fun w watched => watched.guarded.toAccounted
    refine chosen.bind fun d => ?_
    rintro w ⟨⟨hd, same⟩, watched⟩
    exact leads_configureNewPort named checkable told List.mem_cons_self hd same w watched
  case others =>
    refine (Watched.within _ (.forEach fun q hq => Program.Within.bind
      (.ofExcept fun d h => pairs (.tail p hq) h) fun d pairs => ?_)).imp fun _ _ => And.right
    exact within_configureNewPort watching_upholds.toLetsOpen (watching_builds named checkable)
      (fun d hd view => watching_fills named hd) pairs

/-- The first description of a new balancer tells its addresses. -/
theorem leads_describeExisting : (Program.ofJob (describeExisting .elastic name)).Leads config
    (Watched name desired [] .founding)
    (fun current w => ∃ own, current ≠ [] ∧ Wirings name own current ∧
      Watched name desired own .wired w) (·.cloud.inventory.Accounted) := by
  intro w watched
  have truthful := watched.truthful.about fun _ => True
  have describes : (Program.ofJob (describeExisting .elastic name)).Within
      (watching name desired [] .founding) _ :=
    .ofJob (within_describeExisting (k := .elastic) (watching_builds named checkable).describe)
  have described := Watched.within config describes w watched
  split
  · next current after heq =>
    rw [heq] at described
    obtain ⟨held, some_port⟩ := ports_of_describeExisting truthful trivial heq
    obtain ⟨first, rest, rfl⟩ := List.exists_cons_of_ne_nil some_port
    obtain ⟨told, guarded⟩ := described.2.guarded.wirings held
    exact ⟨_, some_port, told, described.2.truthful, described.2.immediate, guarded⟩
  · next heq =>
    rw [heq] at described
    exact described

theorem leads_found : (found name .elastic desired).Leads config
    (Watched name desired [] .founding) (fun _ w => w.cloud.inventory.Accounted)
    (·.cloud.inventory.Accounted) := by
  refine Program.Leads.bind (?_ : (create name desired).Leads _ _
    (fun _ w => w.cloud.inventory.Accounted) _) fun ports =>
      .ofExcept (fun _ _ _ accounted => accounted) fun _ accounted => accounted
  have founds : (watching name desired [] .founding).LetsFound (k := .elastic) name desired :=
    watching_founds named checkable
  refine Program.Leads.bind ((Watched.within _ (.ofJob (within_createPorts founds))).imp
    fun _ _ => And.right) fun _ => (leads_describeExisting named checkable).bind fun current => ?_
  rintro w ⟨own, some_port, told, watched⟩
  exact (leads_configureAll named checkable some_port told).imp
    (fun _ _ watched => watched.guarded.toAccounted) w watched

omit named checkable in
theorem told_of_wirings (told : Wirings name own current) :
    (watching name desired own .checked).told (.describe .elastic name) current :=
  fun _ p hp => ⟨(told p hp).1, fun _ => (told p hp).2⟩

theorem leads_eachPort (told : Wirings name own current) :
    (Program.ofJob (Job.forEach current fun p => do
      syncPort desired (← Job.ofExcept (desiredFor desired p)) p)).Leads config
        (Watched name desired own .checked) (fun _ => Watched name desired own .checked)
        (·.cloud.inventory.Accounted) := by
  refine (Watched.within _ (.ofJob (within_eachDesired (k := .elastic) (told_of_wirings told)
    fun d p pairs => ?_))).imp fun _ _ => And.right
  exact within_syncPort watching_upholds (watching_adjusts named checkable) pairs

/-- The first port that is registered gets its health check before any stale port goes. -/
theorem leads_syncPorts (told : Wirings name own current)
    (some_missing : portDifferences desired current ≠ []) :
    (Program.ofJob (syncPorts name desired current)).Leads config
      (Watched name desired own .wired)
      (fun ports w => Wirings name own ports ∧ Watched name desired own .checked w)
      (·.cloud.inventory.Accounted) := by
  have adjusts : (watching name desired own .checked).LetsAdjust (k := .elastic) name desired :=
    watching_adjusts named checkable
  have builds : (watching name desired own .wired).LetsBuild (k := .elastic) name desired :=
    watching_builds named checkable
  have wanted : ∀ d ∈ portDifferences desired current, d ∈ desired :=
    fun d hd => (mem_portDifferences.1 hd).1
  unfold syncPorts
  dsimp only
  rw [if_neg (by simp [some_missing])]
  refine Program.Leads.bindJob (?missing : Program.Leads _ _ _
    (fun _ => Watched name desired own .checked) _) fun _ => ?stale
  case missing =>
    obtain ⟨d, more, hmissing⟩ := List.exists_cons_of_ne_nil some_missing
    rw [hmissing] at wanted ⊢
    rw [Job.forEach_cons]
    have registers : (registerPort (k := .elastic) name d).Within
        (watching name desired own .wired) fun _ => True :=
      within_registerPort (k := .elastic) (builds.register d (wanted d (.head more)))
    refine Program.Leads.bindJob (.bindJob ((Watched.within config (.ofJob registers)).imp
      fun _ _ => And.right) fun _ => leads_check named checkable (wanted d (.head more)))
        fun _ => ?_
    refine (Watched.within _ (.ofJob (.forEach fun e he => ?_))).imp fun _ _ => And.right
    exact (within_registerPort (k := .elastic) (adjusts.register e (wanted e (.tail d he)))).bind
      fun _ _ => within_configureHealthCheck (k := .elastic)
        (adjusts.check e (wanted e (.tail d he)))
  case stale =>
    refine (Watched.within _ (.ofJob (Job.Within.bind (.forEach fun p hp => ?_) fun _ _ =>
      within_describeExisting (k := .elastic) adjusts.describe))).imp
        fun ports w h => ⟨fun p hp => ⟨(h.1 rfl p hp).1, (h.1 rfl p hp).2 nofun⟩, h.2⟩
    obtain ⟨hp, unwanted⟩ := mem_portDifferences.1 hp
    exact within_deleteStale watching_upholds adjusts
      ⟨⟨current, told_of_wirings told, hp⟩, unwanted⟩

/-- A port without its health check gets it before its groups are opened. -/
theorem leads_syncPort (told : Wirings name own current) (hp : p ∈ current) (hd : d ∈ desired)
    (same : d.same p = true) (unchecked : ¬ p.Checked) :
    (Program.ofJob (syncPort desired d p)).Leads config (Watched name desired own .wired)
      (fun _ => Watched name desired own .checked) (·.cloud.inventory.Accounted) := by
  have pairs : (watching name desired own .checked).Pairs (k := .elastic) name desired d p :=
    ⟨⟨current, told_of_wirings told, hp⟩, hd, same⟩
  have upholds : (watching name desired own .checked).LetsUphold name desired := watching_upholds
  have adjusts : (watching name desired own .checked).LetsAdjust (k := .elastic) name desired :=
    watching_adjusts named checkable
  have revokes (x : Grant) : (watching name desired own .checked).allowed (.revoke x.1 x.2) :=
    ⟨nofun, nofun, nofun, nofun, nofun⟩
  have changed : d.healthCheck ≠ p.healthCheck := fun alike =>
    unchecked (by rw [Port.Checked, ← alike]; exact checkable d hd)
  have updates : (watching name desired own .wired).allowed (.update .elastic d) :=
    cautious_about (by rw [Call.subject, named d hd]) nofun nofun nofun
  rw [syncPort_eq]
  refine Program.Leads.bindJob ((Watched.within config
    (.ofJob (within_updateSettings (k := .elastic) updates))).imp fun _ _ => And.right) fun _ => ?_
  refine Program.Leads.bindJob ((Watched.within config
    (.ofJob (within_retention watching_asks desired d p))).imp fun _ _ => And.right)
      fun retained => ?_
  have check : (Program.ofJob (changeCheck d p retained)).Leads config
      (Watched name desired own .wired) (fun _ => Watched name desired own .checked)
      (·.cloud.inventory.Accounted) := by
    unfold changeCheck
    rw [if_pos changed]
    refine Program.Leads.bindJob (leads_check named checkable hd) fun _ => ?_
    have refreshes : (unless p.backends.isEmpty do refreshRules p (ruleView d p) retained).Within
        (watching name desired own .checked) fun _ => True := by
      split
      · trivial
      · exact within_refreshRules upholds.toLetsAsk
          (grant_of_pairs upholds.toLetsOpen pairs fun _ => .inl) fun x _ _ _ _ => revokes x
    exact (Watched.within _ (.ofJob refreshes)).imp fun _ _ => And.right
  refine Program.Leads.bindJob check fun _ => ?_
  refine (Watched.within _ (.ofJob (Job.Within.bind (within_join upholds.toLetsAsk ?_ ?_) fun _ _ =>
    Job.Within.bind (within_leave upholds.toLetsAsk ?_ fun _ x _ _ _ _ => revokes x) fun _ _ =>
      within_setFilter (k := .elastic) (adjusts.filter d hd) p.filters))).imp fun _ _ => And.right
  · exact fun joining => adjusts.join d p pairs joining (ruleView d p) p.same_refl
  · exact grant_of_pairs upholds.toLetsOpen pairs fun b hb => .inr (mem_backendDifferences.1 hb).1
  · exact fun leaving => adjusts.leave d p pairs leaving (ruleView d p) p.same_refl

/-- The first of the ports gets its health check before any group is opened. -/
theorem leads_eachUnchecked (told : Wirings name own current) (some_port : current ≠ [])
    (unchecked : ∀ p ∈ current, ∀ d ∈ desired, d.same p = true → ¬ p.Checked) :
    (Program.ofJob (Job.forEach current fun p => do
      syncPort desired (← Job.ofExcept (desiredFor desired p)) p)).Leads config
        (Watched name desired own .wired) (fun _ => Watched name desired own .checked)
        (·.cloud.inventory.Accounted) := by
  obtain ⟨p, rest, rfl⟩ := List.exists_cons_of_ne_nil some_port
  rw [Job.forEach_cons]
  refine Program.Leads.bindJob (?first : Program.Leads _ _ _
    (fun _ => Watched name desired own .checked) _) fun _ =>
      leads_eachPort named checkable fun q hq => told q (.tail p hq)
  have chosen : (Program.ofJob (Job.ofExcept (desiredFor desired p))).Leads config
      (Watched name desired own .wired)
      (fun d w => (d ∈ desired ∧ d.same p = true) ∧ Watched name desired own .wired w)
      (·.cloud.inventory.Accounted) := by
    rw [Program.ofJob_ofExcept]
    exact .ofExcept (fun d h w watched => ⟨desiredFor_eq_ok h, watched⟩)
      fun w watched => watched.guarded.toAccounted
  refine chosen.bindJob fun d => ?_
  rintro w ⟨⟨hd, same⟩, watched⟩
  exact leads_syncPort named checkable told List.mem_cons_self hd same
    (unchecked p List.mem_cons_self d hd same) w watched

/-- No port has to go, or there is a desired port that is not there yet or has its health check. -/
def Replaces (desired current : List ElasticPort) : Prop :=
  (∀ p ∈ current, ∃ d ∈ desired, d.same p = true) ∨
    ∃ d ∈ desired, ∀ p ∈ current, d.same p = true → p.Checked

omit named checkable in
/-- Where no desired port has its health check and none is missing, there is nothing to register
or to delete. -/
theorem syncPorts_of_replaces (replaces : Replaces desired current)
    (unchecked : ∀ p ∈ current, ∀ d ∈ desired, d.same p = true → ¬ p.Checked)
    (none_missing : portDifferences desired current = []) :
    syncPorts name desired current = pure current := by
  have none_stale : portDifferences current desired = [] := by
    rcases replaces with covered | ⟨d, hd, checked⟩
    · refine List.eq_nil_iff_forall_not_mem.2 fun p hp => ?_
      obtain ⟨hp, unwanted⟩ := mem_portDifferences.1 hp
      obtain ⟨d, hd, same⟩ := covered p hp
      rw [Port.same_comm, unwanted d hd] at same
      cases same
    · have absent : d ∉ portDifferences desired current := by simp [none_missing]
      rw [mem_portDifferences] at absent
      push Not at absent
      obtain ⟨p, hp, same⟩ := absent hd
      have same : d.same p = true := by simpa using same
      exact absurd (checked p hp same) (unchecked p hp d hd same)
  unfold syncPorts
  simp [none_missing, none_stale]

theorem leads_adjust (told : Wirings name own current) (some_port : current ≠ [])
    (replaces : Replaces desired current) :
    (adjust name .elastic desired current).Leads config
      (fun w => w.cloud.inventory.ports .elastic name = current ∧
        Watched name desired own .wired w)
      (fun _ w => w.cloud.inventory.Accounted) (·.cloud.inventory.Accounted) := by
  rintro w ⟨held, watched⟩
  by_cases kept : ∃ p ∈ current, p.Checked ∧ ∃ d ∈ desired, d.same p = true
  case pos =>
    have settled : Watched name desired own .checked w :=
      ⟨watched.truthful, watched.immediate, watched.guarded.settle (held ▸ kept)⟩
    exact ((Watched.within config (within_upkeep watching_upholds
      (watching_adjusts named checkable) (told_of_wirings told))).imp
        fun _ _ settled => settled.2.guarded.toAccounted) w settled
  case neg =>
    have unchecked : ∀ p ∈ current, ∀ d ∈ desired, d.same p = true → ¬ p.Checked :=
      fun p hp d hd same checked => kept ⟨p, hp, checked, d, hd, same⟩
    have status {ports : List ElasticPort} :
        (Program.ofExcept (statusOf name ports)).Leads config
          (Watched name desired own .checked)
          (fun _ w => w.cloud.inventory.Accounted) (·.cloud.inventory.Accounted) :=
      .ofExcept (fun _ _ _ watched => watched.guarded.toAccounted)
        fun _ watched => watched.guarded.toAccounted
    by_cases none_missing : portDifferences desired current = []
    case pos =>
      have synced : (Program.ofJob (syncPorts name desired current)).Leads config
          (Watched name desired own .wired)
          (fun ports w => ports = current ∧ Watched name desired own .wired w)
          (·.cloud.inventory.Accounted) := by
        rw [syncPorts_of_replaces replaces unchecked none_missing]
        exact .pure fun _ watched => ⟨rfl, watched⟩
      refine Program.Leads.bind synced (fun ports => ?_) w watched
      rintro w ⟨rfl, watched⟩
      exact Program.Leads.bind (leads_eachUnchecked named checkable told some_port unchecked)
        (fun _ => status) w watched
    case neg =>
      refine Program.Leads.bind (leads_syncPorts named checkable told none_missing)
        (fun ports => ?_) w watched
      rintro w ⟨told, watched⟩
      exact Program.Leads.bind (leads_eachPort named checkable told) (fun _ => status) w watched

theorem accounted_reconcile {w : World} (accounted : w.cloud.inventory.Accounted)
    (truthful : w.script.Truthful)
    (immediate : w.script.Immediate (.configureHealthCheck .elastic))
    (replaces : Replaces desired (w.cloud.inventory.ports .elastic name)) :
    ((reconcile name desired).simulate config w).2.cloud.inventory.Accounted := by
  rcases eq_or_ne desired [] with rfl | hnew
  · exact accounted
  have described {own : List String} {phase : Phase}
      (guarded : Guarded name desired own phase w.cloud.inventory) :
      Watched name desired own phase
        (w.await (config.timeout .api) (.describe .elastic name)).2 :=
    Watched.await ⟨truthful, immediate, guarded⟩ (watching_builds named checkable).describe .api
  have start : Guarded name desired [] .founding w.cloud.inventory :=
    ⟨accounted, nofun, nofun⟩
  have founds : ((found name .elastic desired).simulate config
      (w.await (config.timeout .api) (.describe .elastic name)).2).2.cloud.inventory.Accounted :=
    (leads_found named checkable).final (described start)
  show ((Reconcile.reconcile name .elastic desired).simulate config w).2.cloud.inventory.Accounted
  rw [simulate_reconcile (k := .elastic) hnew, cloud_reporting]
  rcases answered : (w.await (config.timeout .api) (.describe .elastic name)).1
    with (_ | ⟨first, rest⟩) | e | _
  · exact founds
  · have genuine := ((truthful.about fun _ => True).take (.describe .elastic)).1
      (.describe .elastic name) trivial
    obtain ⟨held, unchanged⟩ := Inventory.describe_eq_ok (k := .elastic)
      (World.await_applied (c := .describe .elastic name) genuine answered)
    obtain ⟨told, guarded⟩ := start.wirings held
    exact (leads_adjust named checkable told (List.cons_ne_nil _ _) (held ▸ replaces)).final
      ⟨unchanged ▸ held, described guarded⟩
  · simp only [resume]
    split
    · exact founds
    · exact (described start).guarded.toAccounted
  · exact (described start).guarded.toAccounted

end Runs

end Reconcile.Elastic

open Reconcile.Elastic

/-- What is left of an inventory by requests to ensure elastic services. No call that configures a
health check has to wait, and no ports of a balancer have to go while those that stay are all there
without their health checks. -/
inductive Ensured (start : Inventory) : Inventory → Prop
  | start : Ensured start start
  | ensure {w : World} {service : Service} {backends : List Backend} (config : Config)
    (elastic : service.kind = .ok .elastic) (truthful : w.script.Truthful)
    (immediate : w.script.Immediate (.configureHealthCheck .elastic))
    (replaces : ∀ desired, desiredElastic service.balancerName backends service = .ok desired →
      Replaces desired (w.cloud.inventory.ports .elastic service.balancerName)) :
    Ensured start w.cloud.inventory →
      Ensured start ((service.ensure backends).simulate config w).2.cloud.inventory

theorem Ensured.accounted {start inv : Inventory} (h : Ensured start inv)
    (empty : start.elastic = ∅) (unruled : ∀ group, start.rulesOf group = []) :
    inv.Accounted := by
  induction h with
  | start =>
      refine ⟨Inventory.stocked_of_empty empty, fun x held => ?_⟩
      rw [Inventory.Holds, unruled] at held
      cases held
  | @ensure w service backends config elastic truthful immediate replaces _ ih =>
      cases wanted : desiredElastic service.balancerName backends service with
      | error e =>
          rw [Service.ensure_eq_fail elastic wanted]
          exact ih
      | ok desired =>
          have ofService := ofService_desiredElastic wanted
          rw [Service.ensure_eq elastic wanted]
          exact accounted_reconcile ofService.named
            (fun d hd blank => not_probed_of_blank blank (ofService.probed d hd)) ih truthful
            immediate (replaces desired wanted)

/-- A balancer none of whose ports has its health check has granted nothing, if no call that
configures a health check had to wait and no ports went before those that stay had theirs. -/
theorem unchecked_granted_nothing {start inv : Inventory} (empty : start.elastic = ∅)
    (unruled : ∀ group, start.rulesOf group = []) (ensured : Ensured start inv)
    (apart : ∀ name other, name ≠ other → ∀ a ∈ inv.addresses name, a ∉ inv.addresses other)
    {name : String} (unchecked : ∀ p ∈ inv.ports .elastic name, p.healthCheck.target = "")
    (group : String) :
    ∀ rule ∈ inv.rulesOf group, ∀ a ∈ rule.sources, a ∉ inv.addresses name := by
  intro rule held a source own
  obtain ⟨other, p, hp, checked, b, hb, only⟩ :=
    (ensured.accounted empty unruled).vouched (group, rule) held
  obtain rfl : a = b := List.mem_singleton.1 (only ▸ source)
  have vouching : a ∈ inv.addresses other := List.mem_flatMap.2 ⟨p, hp, hb⟩
  have same : name = other := by_contra fun differs => apart name other differs a own vouching
  exact checked (unchecked p (same ▸ hp))

namespace Sample

/-- A second service with the same backends. -/
def sibling : Service :=
  { service with uid := "api", ports := [{ protocol := tcp, port := 81, nodePort := some 30081 }] }

/-- The balancer of the first one, with its group open. -/
def established : Inventory :=
  ((service.ensure backends).simulate {} { cloud := { inventory } }).2.cloud.inventory

/-- The balancers of both. The second one did not get its health check. -/
def siblings : Inventory :=
  ((sibling.ensure backends).simulate {}
    (refusing (.configureHealthCheck .elastic) established)).2.cloud.inventory

theorem ensured_siblings : Ensured inventory siblings := by
  have first : Ensured inventory established :=
    .ensure (w := { cloud := { inventory } }) {} (by decide +kernel)
      (fun _ hentry => nomatch hentry) (fun _ hentry => nomatch hentry)
      (fun _ _ => .inl fun _ hp => nomatch hp) .start
  have vacant : established.ports .elastic sibling.balancerName = [] := by decide +kernel
  refine .ensure (w := refusing (.configureHealthCheck .elastic) established) {} (by decide +kernel)
    (truthful_refusing _ _) ?immediate (fun _ _ => .inl fun p hp => ?vacant) first
  case immediate =>
    intro entry hentry _
    rw [List.mem_singleton.1 hentry]
    exact ⟨rfl, rfl, rfl⟩
  case vacant =>
    rw [show (refusing (.configureHealthCheck .elastic) established).cloud.inventory = established
      from rfl, vacant] at hp
    cases hp

/-- What no two entries of the table have in common, no two balancers do. -/
theorem apart_of_entries {inv : Inventory}
    (h : ∀ e ∈ inv.elastic.entries, ∀ e' ∈ inv.elastic.entries, e.1 ≠ e'.1 →
      ∀ a ∈ e.2.flatMap Port.addresses, a ∉ e'.2.flatMap Port.addresses) (name other : String)
    (differs : name ≠ other) : ∀ a ∈ inv.addresses name, a ∉ inv.addresses other := by
  have entry {name a : String} (ha : a ∈ inv.addresses name) :
      ∃ ports, (name, ports) ∈ inv.elastic.entries ∧ a ∈ ports.flatMap Port.addresses := by
    cases held : inv.elastic.get? name with
    | none => simp [Inventory.addresses, Inventory.ports, Inventory.table, held] at ha
    | some ports =>
        refine ⟨ports, ?_, by
          simpa [Inventory.addresses, Inventory.ports, Inventory.table, held] using ha⟩
        obtain ⟨before, after, split, -⟩ := List.lookup_eq_some_iff.1 held
        simp [split]
  intro a own foreign
  obtain ⟨ports, hports, ha⟩ := entry own
  obtain ⟨ports', hports', ha'⟩ := entry foreign
  exact h _ hports _ hports' differs a ha ha'

end Sample

theorem unchecked_granted_nothing_sibling :
    Sample.siblings.ports .elastic Sample.sibling.balancerName ≠ [] ∧
      Sample.siblings.rulesOf "g" ≠ [] ∧
      ∀ rule ∈ Sample.siblings.rulesOf "g", ∀ a ∈ rule.sources,
        a ∉ Sample.siblings.addresses Sample.sibling.balancerName :=
  ⟨by decide +kernel, by decide +kernel,
    unchecked_granted_nothing (rfl : Sample.inventory.elastic = ∅) Sample.unruled
      Sample.ensured_siblings (Sample.apart_of_entries (by decide +kernel)) (by decide +kernel) "g"⟩

namespace Sample

/-- The call that configures the health check is never answered. -/
def racing : World where
  cloud := { inventory }
  script := [(.configureHealthCheck .elastic, { hang := true })]

/-- What is left when it is given up. -/
def raced : Inventory :=
  ((Request.ensure service backends).program.simulate {} racing).2.cloud.inventory

end Sample

/-- While the call that configures the health check is under way, the group is opened. It stays so
when the call is given up. -/
theorem unchecked_port_opened :
    Sample.service.kind = .ok .elastic ∧ Sample.inventory.elastic = ∅ ∧
      (∀ group, Sample.inventory.rulesOf group = []) ∧
      Attempted (· = .ensure Sample.service Sample.backends) Sample.inventory Sample.raced ∧
      Sample.raced.elastic.entries.map Prod.fst = [Sample.service.balancerName] ∧
      (∀ p ∈ Sample.raced.ports .elastic Sample.service.balancerName,
        p.healthCheck.target = "") ∧
      ∃ rule ∈ Sample.raced.rulesOf "g", ∃ a ∈ rule.sources,
        a ∈ Sample.raced.addresses Sample.service.balancerName := by
  have truthful : Sample.racing.script.Truthful := fun entry hentry c => by
    rw [List.mem_singleton.1 hentry]
    exact Reply.madeUp?_eq_none rfl rfl rfl rfl c
  exact ⟨by decide +kernel, rfl, Sample.unruled,
    .attempt (w := Sample.racing) {} truthful rfl .start, by decide +kernel, by decide +kernel,
    by decide +kernel⟩

end CloudBalancer
