import CloudBalancer.Proofs.Administration
import CloudBalancer.Proofs.L4Convergence
import CloudBalancer.Proofs.Passage
import CloudBalancer.Proofs.PortChanges

/-!
Reconciliation does not disturb what is kept. At every moment, whatever becomes of its calls, the
balancer is there with its VIP, and ports and backends that it had and is to have are in place. New
ports come before stale ones go: where no former port is desired, nothing is deleted before the
first new one is there.
-/

namespace CloudBalancer

variable {k : Kind}

/-- The balancer has what is kept of the `former` ports. -/
structure Continues (former desired ports : List k.Port) : Prop where
  some_port : ports ≠ []
  vip : ∀ p ∈ ports, ∀ q ∈ former, p.vip = q.vip
  kept : ∀ q ∈ former, ∀ d ∈ desired, d.pair = q.pair → ∃ p ∈ ports, p.pair = q.pair ∧
    ∀ b ∈ q.backends, (∃ e ∈ d.backends, b.same e = true) → b ∈ p.backends

namespace Reconcile

open Inventory

/-- The backends of a port, if it is desired, are desired or former ones. -/
def Stems (former desired : List k.Port) (p : k.Port) : Prop :=
  ∀ d ∈ desired, d.same p = true → ∀ b ∈ p.backends,
    b ∈ d.backends ∨ ∃ q ∈ former, q.same p = true ∧ b ∈ q.backends

/-- The call takes nothing away that is kept. Ports are deleted only once a desired one is known to
be there, which is when the balancer is `settled`. -/
structure Gentle (former desired : List k.Port) (settled : Prop) (c : Call) : Prop where
  deletes : ∀ p, c = .deletePort k p → settled ∧ ∀ d ∈ desired, d.same p = false
  joins : ∀ p joining, c = .registerBackends k p joining → ∀ d ∈ desired, d.same p = true →
    joining ⊆ d.backends
  leaves : ∀ p leaving, c = .deregisterBackends k p leaving → ∀ d ∈ desired, d.same p = true →
    ∀ b ∈ leaving, (∀ e ∈ d.backends, b.same e = false) ∧
      ∃ q ∈ former, q.same p = true ∧ b ∈ q.backends

def continuing (name : String) (former desired : List k.Port) (settled : Prop) : Contract where
  allowed := Gentle former desired settled
  told
    | .describe k' other, ports => ∀ hk : k' = k, other = name →
        ∀ p ∈ (hk ▸ ports : List k.Port), Stems former desired p
    | _, _ => True

/-- How the balancer is in the meantime. -/
structure Tended (name : String) (former desired : List k.Port) (settled : Prop)
    (inv : Inventory) : Prop where
  stocked : inv.Stocked k
  continues : Continues former desired (inv.ports k name)
  stems : ∀ p ∈ inv.ports k name, Stems former desired p
  settled : settled → ∃ p ∈ inv.ports k name, ∃ d ∈ desired, d.same p = true

variable {name : String} {former desired : List k.Port} {settled : Prop} {inv after : Inventory}
  {d p q : k.Port} {c : Call}

theorem Stems.revised {d' new : k.Port} (stems : Stems former desired p)
    (gentle : Gentle former desired settled c) (revises : Revises c d' p new)
    (hsame : p.same d' = true) : Stems former desired new := by
  intro d hd hnew
  have hp : d.same p = true := by rwa [Port.same_comm, ← revises.same, Port.same_comm]
  have hd' : d.same d' = true := by rwa [Port.same_congr hp]
  have held := stems d hd hp
  intro b hb
  cases revises with
  | join d' p joining =>
      rcases mem_addBackends hb with hb | hb
      · exact held b hb
      · exact .inl (gentle.joins d' joining rfl d hd hd' hb)
  | leave removed => exact held b ((mem_removeBackends removed).1 hb).1
  | update | check | filter => exact held b hb

/-- What leaves takes nothing along that is both a former backend and desired. -/
theorem Gentle.spares {leaving : List Backend}
    (gentle : Gentle former desired settled (.deregisterBackends k p leaving))
    (valid : ValidPorts k name former) (hq : q ∈ former) (hqp : q.same p = true) (hd : d ∈ desired)
    (hdp : d.same p = true) {b e : Backend} (hb : b ∈ q.backends) (he : e ∈ d.backends)
    (hsame : b.same e = true) : ∀ l ∈ leaving, l.same b = false := by
  intro l hl
  obtain ⟨undesired, other, hother, hop, hlo⟩ := gentle.leaves p leaving rfl d hd hdp l hl
  have unambiguous := unambiguous_of_apart (apart_of_pairs valid.pairs)
  obtain rfl : other = q := unambiguous.eq_of_same hother hq hop hqp
  by_contra htaken
  obtain rfl : l = b := (valid.backends hq).eq_of_same hlo hb (by simpa using htaken)
  simp [undesired e he] at hsame

section Apply

variable {answer : c.Answer}

theorem Tended.settled_apply (tended : Tended name former desired settled inv)
    (gentle : Gentle former desired settled c) (h : inv.apply c = .ok (answer, after))
    (hsettled : settled) : ∃ p ∈ after.ports k name, ∃ d ∈ desired, d.same p = true := by
  refine exists_ports_apply h (tended.settled hsettled) ?_ ?_
  · rintro p gone rfl ⟨d, hd, hsame⟩
    rw [← Port.same_congr hsame]
    exact (gentle.deletes gone rfl).2 d hd
  · rintro d' p new revises - ⟨d, hd, hsame⟩
    exact ⟨d, hd, by rwa [Port.same_comm, revises.same, Port.same_comm]⟩

theorem Tended.some_port_apply (tended : Tended name former desired settled inv)
    (gentle : Gentle former desired settled c) (h : inv.apply c = .ok (answer, after)) :
    after.ports k name ≠ [] := by
  by_cases hsettled : settled
  · obtain ⟨p, hp, -⟩ := tended.settled_apply gentle h hsettled
    exact List.ne_nil_of_mem hp
  · obtain ⟨p, hp⟩ := List.exists_mem_of_ne_nil _ tended.continues.some_port
    have there : ∃ p ∈ after.ports k name, True := exists_ports_apply h
      ⟨p, hp, trivial⟩ (fun p gone hc _ => absurd (gentle.deletes gone hc).1 hsettled)
      fun _ _ _ _ _ _ => trivial
    obtain ⟨p, hp, -⟩ := there
    exact List.ne_nil_of_mem hp

/-- Ports and backends that are kept are still there after the next call. -/
theorem Tended.kept_apply (tended : Tended name former desired settled inv)
    (valid : ValidPorts k name former) (named : ∀ d ∈ desired, d.name = name)
    (gentle : Gentle former desired settled c) (h : inv.apply c = .ok (answer, after))
    (hq : q ∈ former) (hd : d ∈ desired) (hpair : d.pair = q.pair) :
    ∃ p ∈ after.ports k name, p.pair = q.pair ∧
      ∀ b ∈ q.backends, (∃ e ∈ d.backends, b.same e = true) → b ∈ p.backends := by
  let Stays (p : k.Port) : Prop := p.name = name ∧ p.pair = q.pair ∧
    ∀ b ∈ q.backends, (∃ e ∈ d.backends, b.same e = true) → b ∈ p.backends
  have wanted {p : k.Port} (kept : Stays p) : d.same p = true :=
    Port.same_iff.2 ⟨(named d hd).trans kept.1.symm, hpair.trans kept.2.1.symm⟩
  obtain ⟨p, hp, pair, backends⟩ := tended.continues.kept q hq d hd hpair
  have there : ∃ p ∈ after.ports k name, Stays p := by
    refine exists_ports_apply h
      ⟨p, hp, (tended.stocked.ports name).named hp, pair, backends⟩ ?spared ?revised
    case spared =>
      rintro p gone rfl kept
      rw [← Port.same_congr (wanted kept)]
      exact (gentle.deletes gone rfl).2 d hd
    case revised =>
      intro d' p new revises hsame kept
      refine ⟨revises.name.trans kept.1, revises.pair.trans kept.2.1, fun b hb stays => ?_⟩
      have held := kept.2.2 b hb stays
      cases revises with
      | join d' p joining => exact subset_addBackends _ joining held
      | leave removed =>
          -- The port that the call is about is both the desired `d` and the former `q`.
          obtain ⟨e, he, hbe⟩ := stays
          have hdd' : d.same d' = true := by rwa [Port.same_congr (wanted kept)]
          have hdq : d.same q = true :=
            Port.same_iff.2 ⟨(named d hd).trans (valid.named hq).symm, hpair⟩
          have hqd' : q.same d' = true := by rwa [← Port.same_congr hdq]
          exact (mem_removeBackends removed).2
            ⟨held, gentle.spares valid hq hqd' hd hdd' hb he hbe⟩
      | update | check | filter => exact held
  obtain ⟨p, hp, -, kept⟩ := there
  exact ⟨p, hp, kept⟩

theorem Tended.apply (tended : Tended name former desired settled inv)
    (valid : ValidPorts k name former) (named : ∀ d ∈ desired, d.name = name)
    (gentle : Gentle former desired settled c) (h : inv.apply c = .ok (answer, after)) :
    Tended name former desired settled after := by
  refine ⟨tended.stocked.changes (changes_apply h),
    ⟨tended.some_port_apply gentle h, ?vip, fun q hq d hd hpair =>
      tended.kept_apply valid named gentle h hq hd hpair⟩, ?stems,
    tended.settled_apply gentle h⟩
  case vip =>
    refine forall_ports_apply (tended.stocked.solid _) h tended.continues.vip ?_ ?_ ?_
    · exact fun p _ absent => absurd absent tended.continues.some_port
    · exact fun p first _ vip => vip
    · intro d p new revises _ vip
      rwa [revises.vip]
  case stems =>
    refine forall_ports_apply (tended.stocked.solid _) h tended.stems ?_ ?_ ?_
    · exact fun p _ absent => absurd absent tended.continues.some_port
    · intro p first _ _ d hd _ b hb
      cases hb
    · exact fun d p new revises hsame stems => stems.revised gentle revises hsame

theorem continuing_keeps (valid : ValidPorts k name former) (named : ∀ d ∈ desired, d.name = name)
    (settled : Prop) : (continuing name former desired settled).Keeps
      fun cloud => Tended name former desired settled cloud.inventory := by
  refine Contract.keeps_of_apply _ (fun gentle h tended => tended.apply valid named gentle h)
    fun {inv after c answer} _ h tended => ?_
  cases c with
  | describe k' other =>
      intro hk hother
      subst hk hother
      rw [← (describe_eq_ok h).1]
      exact tended.stems
  | _ => trivial

end Apply

section Conduct

theorem continuing_grants : (continuing name former desired settled).LetsGrant :=
  ⟨fun _ => ⟨nofun, nofun, nofun⟩, fun _ _ => ⟨nofun, nofun, nofun⟩, fun _ => ⟨nofun, nofun, nofun⟩⟩

theorem continuing_builds : (continuing name former desired settled).LetsBuild name desired :=
  ⟨⟨nofun, nofun, nofun⟩, fun _ _ => ⟨nofun, nofun, nofun⟩, fun _ _ => ⟨nofun, nofun, nofun⟩,
    fun _ _ _ => ⟨nofun, nofun, nofun⟩⟩

theorem continuing_founds (unambiguous : Unambiguous desired) :
    (continuing name former desired settled).LetsFound name desired := by
  refine ⟨continuing_builds, fun _ _ => ⟨nofun, nofun, nofun⟩, fun d hd view hview =>
    ⟨nofun, ?_, nofun⟩⟩
  rintro _ _ ⟨⟩ e he hsame
  rw [unambiguous.eq_of_same he hd hsame hview]
  exact List.Subset.refl _

/-- Of a view of a port, the same is desired as of the port. -/
theorem counterpart_of_view {contract : Contract} {view e : k.Port}
    (unambiguous : Unambiguous desired) (pairs : contract.Pairs name desired d p)
    (hview : view.same p = true) (he : e ∈ desired) (hsame : e.same view = true) : e = d := by
  have hep : e.same p = true := by rwa [← Port.same_congr hsame] at hview
  exact unambiguous.eq_of_same he pairs.wanted hep pairs.same

theorem continuing_adjusts (unambiguous : Unambiguous desired) :
    (continuing name former desired True).LetsAdjust name desired where
  toLetsBuild := continuing_builds
  update _ _ := ⟨nofun, nofun, nofun⟩
  join d p pairs _ view hview := by
    refine ⟨nofun, ?_, nofun⟩
    rintro _ _ ⟨⟩ e he hsame b hb
    rw [counterpart_of_view unambiguous pairs hview he hsame]
    exact (mem_backendDifferences.1 hb).1
  leave d p pairs _ view hview := by
    refine ⟨nofun, nofun, ?_⟩
    rintro _ _ ⟨⟩ e he hsame b hb
    obtain rfl := counterpart_of_view unambiguous pairs hview he hsame
    obtain ⟨held, undesired⟩ := mem_backendDifferences.1 hb
    obtain ⟨ports, told, hp⟩ := pairs.shown
    have stems : Stems former desired p := told rfl rfl p hp
    rcases stems e he pairs.same b held with hb | ⟨q, hq, hqp, hbq⟩
    · have other : b.same b = false := undesired b hb
      simp at other
    · exact ⟨undesired, q, hq, by rwa [Port.same_congr hqp, Port.same_comm], hbq⟩
  clear p discards _ := by
    refine ⟨nofun, nofun, ?_⟩
    rintro _ _ ⟨⟩ d hd hsame
    rw [Port.same_comm, discards.unwanted d hd] at hsame
    cases hsame
  drop p discards := by
    refine ⟨?_, nofun, nofun⟩
    rintro _ ⟨⟩
    refine ⟨trivial, fun d hd => ?_⟩
    rw [Port.same_comm]
    exact discards.unwanted d hd

theorem within_adjust_continuing {current : List k.Port} (unambiguous : Unambiguous desired)
    (told : (continuing name former desired True).told (.describe k name) current) :
    (adjust name k desired current).Within (continuing name former desired True) fun _ => True :=
  within_adjust continuing_grants (continuing_adjusts unambiguous)
    (fun _ _ => ⟨nofun, nofun, nofun⟩) told

end Conduct

section Replacement

/-- Where no former port is desired, the first thing to do is to register one that is. -/
theorem adjust_of_replaced {current : List k.Port} (name : String) (hnew : desired ≠ [])
    (replaced : ∀ d ∈ desired, ∀ p ∈ current, d.same p = false) :
    ∃ d ∈ desired, ∃ site next,
      adjust name k desired current = .call site (.registerPort k d) next ∧
        ∀ outcome, outcome ≠ .answered () → ∃ e, next outcome = .fail e := by
  have all_missing : portDifferences desired current = desired :=
    List.filter_eq_self.2 fun d hd => by simpa using replaced d hd
  obtain ⟨d, rest, rfl⟩ := List.exists_cons_of_ne_nil hnew
  refine ⟨d, List.mem_cons_self, ?_⟩
  cases k
  all_goals
    simp only [adjust, L4.syncPorts, Elastic.syncPorts, all_missing]
    refine ⟨_, _, rfl, fun outcome failed => ?_⟩
    rcases outcome with ⟨⟩ | e | _
    · exact absurd rfl failed
    · exact ⟨_, rfl⟩
    · exact ⟨_, rfl⟩

theorem exists_same_of_registered {answer : Unit} (named : d.name = name)
    (h : inv.apply (.registerPort k d) = .ok (answer, after)) :
    ∃ p ∈ after.ports k name, d.same p = true := by
  obtain ⟨ports, -, -, rfl⟩ := registerPort_eq_ok (of_map_ok h)
  rw [named, ports_withPorts]
  exact ⟨_, List.mem_append_right _ List.mem_cons_self, Port.same_iff.2 ⟨rfl, rfl⟩⟩

end Replacement

section Simulation

variable {w : World} {config : Config} {first : k.Port} {rest : List k.Port}
  (stocked : w.cloud.inventory.Stocked k) (existing : w.cloud.inventory.ports k name ≠ [])
  (hnew : desired ≠ []) (named : ∀ d ∈ desired, d.name = name)
  (pairs : (desired.map Port.pair).Nodup)
  (truthful : w.script.TruthfulAbout (·.operation = .describe k))

/-- The balancer continues to be there from the one state to the other. -/
def Kept (name : String) (former desired : List k.Port) : Cloud → Cloud → Prop :=
  Cloud.Passed fun cloud => Continues former desired (cloud.inventory.ports k name)

include stocked existing in
theorem tended_start (settles : settled →
    ∃ p ∈ w.cloud.inventory.ports k name, ∃ d ∈ desired, d.same p = true) :
    Tended name (w.cloud.inventory.ports k name) desired settled w.cloud.inventory :=
  ⟨stocked, ⟨existing, fun _ hp _ hq => (stocked.ports name).vip_eq hp hq,
      fun q hq _ _ _ => ⟨q, hq, rfl, fun _ hb _ => hb⟩⟩,
    fun p hp _ _ _ _ hb => .inr ⟨p, hp, p.same_refl, hb⟩, settles⟩

include truthful in
theorem agrees_continuing : w.script.Agrees (continuing name former desired settled) := by
  refine truthful.agrees fun c answer untold => ?_
  cases c with
  | describe k' other =>
      rintro rfl
      exact absurd rfl untold
  | _ => trivial

include named truthful in
/-- Once a desired port is there, what is stale may go. -/
theorem Kept.settle {start : Cloud} (kept : Kept name former desired start w.cloud)
    (valid : ValidPorts k name former)
    (tended : Tended name former desired settled w.cloud.inventory)
    (there : ∃ p ∈ w.cloud.inventory.ports k name, ∃ d ∈ desired, d.same p = true)
    {program : Program Status}
    (within : program.Within (continuing name former desired True) fun _ => True)
    (config : Config) : Kept name former desired start (program.simulate config w).2.cloud := by
  have keeps := (continuing_keeps valid named True).passed
    (fun _ tended => tended.continues) start
  have now : Tended name former desired True w.cloud.inventory :=
    ⟨tended.stocked, tended.continues, tended.stems, fun _ => there⟩
  exact (within.simulate (.start ⟨now, kept⟩ (agrees_continuing truthful)) keeps config).good.2

include stocked existing hnew named pairs truthful

/-- A reconciliation that is not told of the balancer takes nothing away. -/
theorem kept_of_unknown (unknown : ¬ ∃ first rest,
    (w.await (config.timeout .api) (.describe k name)).1 = .answered (first :: rest)) :
    Kept name (w.cloud.inventory.ports k name) desired w.cloud
      ((reconcile name k desired).simulate config w).2.cloud := by
  have unambiguous := unambiguous_of_apart (apart_of_pairs pairs)
  have sound := sound_reconcile name hnew config
    (continuing_keeps (stocked.ports name) named False) (tended_start stocked existing nofun)
    (fun _ tended => tended.continues) (agrees_continuing truthful) ⟨nofun, nofun, nofun⟩
    fun _ => within_resume (within_found continuing_grants (continuing_founds unambiguous))
      fun first rest answered => absurd ⟨first, rest, answered⟩ unknown
  exact sound.good.2

theorem kept_of_settled
    (answered : (w.await (config.timeout .api) (.describe k name)).1 = .answered (first :: rest))
    (settled : ∃ p ∈ w.cloud.inventory.ports k name, ∃ d ∈ desired, d.same p = true) :
    Kept name (w.cloud.inventory.ports k name) desired w.cloud
      ((reconcile name k desired).simulate config w).2.cloud := by
  have unambiguous := unambiguous_of_apart (apart_of_pairs pairs)
  have sound := sound_reconcile name hnew config
    (continuing_keeps (stocked.ports name) named True)
    (tended_start stocked existing fun _ => settled)
    (fun _ tended => tended.continues) (agrees_continuing truthful) ⟨nofun, nofun, nofun⟩
    fun heard => by
      rw [answered] at heard ⊢
      exact within_adjust_continuing unambiguous heard
  exact sound.good.2

/-- If no former port is desired, all depends on whether the first new one gets there. -/
theorem kept_of_replaced
    (answered : (w.await (config.timeout .api) (.describe k name)).1 = .answered (first :: rest))
    (replaced : ∀ d ∈ desired, ∀ p ∈ w.cloud.inventory.ports k name, d.same p = false) :
    Kept name (w.cloud.inventory.ports k name) desired w.cloud
      ((reconcile name k desired).simulate config w).2.cloud := by
  have held := ports_of_described truthful rfl answered
  have unambiguous := unambiguous_of_apart (apart_of_pairs pairs)
  have tended : Tended name (w.cloud.inventory.ports k name) desired False w.cloud.inventory :=
    tended_start stocked existing nofun
  obtain ⟨d, hd, site, next, hadjust, fails⟩ := adjust_of_replaced name hnew replaced
  -- The two calls up to the registration take nothing away, whatever is there.
  have keeps := (continuing_keeps (stocked.ports name) named False).passed
    (fun _ tended => tended.continues) w.cloud
  have described := (World.Sound.start (w := w) ⟨tended, .refl tended.continues⟩
    (agrees_continuing truthful)).await keeps (config.timeout .api) (c := .describe k name)
    ⟨nofun, nofun, nofun⟩
  have registered := described.1.await keeps (config.timeout site.limit) (c := .registerPort k d)
    ⟨nofun, nofun, nofun⟩
  rw [simulate_reconcile hnew, answered, resume, ← held, hadjust]
  show Kept _ _ _ _ ((reporting name (next (World.await _ (config.timeout site.limit)
    (.registerPort k d)).1)).simulate config _).2.cloud
  by_cases there : (World.await (w.await (config.timeout .api) (.describe k name)).2
      (config.timeout site.limit) (.registerPort k d)).1 = .answered ()
  case neg =>
    obtain ⟨e, failed⟩ := fails _ there
    rw [failed, simulate_failure]
    exact registered.1.good.2
  case pos =>
    have within : (adjust name k desired (w.cloud.inventory.ports k name)).Within
        (continuing name (w.cloud.inventory.ports k name) desired True) fun _ => True :=
      within_adjust_continuing unambiguous fun hk _ => by cases hk; exact tended.stems
    rw [hadjust] at within
    obtain ⟨p, hp, hsame⟩ := exists_same_of_registered (named d hd) (World.await_applied rfl there)
    obtain ⟨tended', kept⟩ := registered.1.good
    have left := World.await_truthful
      (World.await_truthful truthful (config.timeout .api) (.describe k name))
      (config.timeout site.limit) (.registerPort k d)
    rw [there]
    exact Kept.settle named left kept (stocked.ports name) tended' ⟨p, hp, d, hd, hsame⟩
      (within_reporting name (within.2 (.answered ()) trivial)) config

end Simulation

end Reconcile

open Reconcile Inventory

/-- However the calls of a reconciliation fare, the balancer continues to be there at every moment,
the last one included, with what is kept of it. -/
theorem reconcile_continues {w : World} (reachable : w.cloud.Reachable) {name : String}
    (existing : w.cloud.inventory.ports k name ≠ []) {desired : List k.Port} (hnew : desired ≠ [])
    (named : ∀ d ∈ desired, d.name = name) (pairs : (desired.map Port.pair).Nodup)
    (truthful : w.script.TruthfulAbout (·.operation = .describe k)) (config : Config) :
    ∃ performed,
      ((reconcile name k desired).simulate config w).2.cloud = w.cloud.performAll performed ∧
      ∀ before, before <+: performed →
        Continues (w.cloud.inventory.ports k name) desired
          ((w.cloud.performAll before).inventory.ports k name) := by
  have stocked := reachable.valid.stocked k
  by_cases known : ∃ first rest,
      (w.await (config.timeout .api) (.describe k name)).1 = .answered (first :: rest)
  case neg => exact kept_of_unknown stocked existing hnew named pairs truthful known
  case pos =>
    obtain ⟨first, rest, answered⟩ := known
    by_cases settled : ∃ p ∈ w.cloud.inventory.ports k name, ∃ d ∈ desired, d.same p = true
    case pos => exact kept_of_settled stocked existing hnew named pairs truthful answered settled
    case neg =>
      refine kept_of_replaced stocked existing hnew named pairs truthful answered
        fun d hd p hp => ?_
      simpa using fun hsame => settled ⟨p, hp, d, hd, hsame⟩

/-- The only port of the sample balancer is to be replaced, and the new one gets lost. -/
def Reconcile.L4.replacing : World where
  cloud := halfCreated.cloud
  script := [(.registerPort .l4, { hang := true })]

theorem Reconcile.L4.truthful_replacing (about : Call → Prop) :
    replacing.script.TruthfulAbout about := by
  intro entry hentry c _
  rw [List.mem_singleton.1 hentry]
  exact Reply.madeUp?_eq_none rfl rfl rfl rfl c

/-- The second port of the other sample balancer is to go, and its grant cannot be withdrawn. -/
def Sample.narrowing : World :=
  { Sample.refusing .revoke {} with cloud := Sample.widened }

theorem reconcile_continues_samples :
    (∃ performed,
      ((reconcile "web" .l4 [L4.samplePort 443]).simulate {} L4.replacing).2.cloud =
        L4.replacing.cloud.performAll performed ∧
      ∀ before, before <+: performed →
        Continues (L4.replacing.cloud.inventory.ports .l4 "web") [L4.samplePort 443]
          ((L4.replacing.cloud.performAll before).inventory.ports .l4 "web")) ∧
    ∃ performed,
      ((reconcile "web" .elastic Sample.desired).simulate {} Sample.narrowing).2.cloud =
        Sample.narrowing.cloud.performAll performed ∧
      ∀ before, before <+: performed →
        Continues (Sample.narrowing.cloud.inventory.ports .elastic "web") Sample.desired
          ((Sample.narrowing.cloud.performAll before).inventory.ports .elastic "web") :=
  ⟨reconcile_continues (k := .l4) (w := L4.replacing) L4.reachable_halfCreated (by decide +kernel)
      (by simp) (by simp [L4.samplePort]) (by decide) (L4.truthful_replacing _) {},
    reconcile_continues (k := .elastic) (w := Sample.narrowing)
      (.simulate (w := { cloud := { inventory := Sample.inventory } }) _ {}
        (.addToGroup "g" ["i-1"] .empty))
      (by decide +kernel) (by simp [Sample.desired]) (by decide +kernel) (by decide +kernel)
      (fun entry hentry c _ => Sample.truthful_refusing .revoke {} entry hentry c) {}⟩

end CloudBalancer
