import CloudBalancer.Proofs.Validity
import Mathlib.Data.List.Nodup

/-!
Synchronising the port list of a balancer: which ports stay, which are new, and what the list is
once those that are missing are registered and those that are not desired are deleted. Both kinds
of balancers do this, in the same order.
-/

namespace CloudBalancer

variable {k : Kind} {α : Type}

/-- No two ports are the same. -/
def Apart (ports : List (Port α)) : Prop :=
  ports.Pairwise fun p q => p.same q = false

theorem Port.same_eq_false {p q : Port α} (h : p.pair ≠ q.pair) : p.same q = false := by
  rw [Bool.eq_false_iff]
  exact fun hsame => h (Port.same_iff.1 hsame).2

theorem Port.same_congr {p q : Port α} (h : p.same q = true) (r : Port α) :
    p.same r = q.same r := by
  obtain ⟨hname, hpair⟩ := Port.same_iff.1 h
  simp only [Port.same, hname, hpair]

theorem apart_of_pairs {ports : List (Port α)} (h : (ports.map Port.pair).Nodup) : Apart ports :=
  (List.pairwise_map.1 h).imp Port.same_eq_false

theorem pairs_of_apart {ports : List (Port α)} {name : String} (h : Apart ports)
    (named : ∀ p ∈ ports, p.name = name) : (ports.map Port.pair).Nodup := by
  refine List.pairwise_map.2 (h.imp_of_mem fun {p q} hp hq hother hpair => ?_)
  have hsame : p.same q = true := Port.same_iff.2 ⟨(named p hp).trans (named q hq).symm, hpair⟩
  simp [hother] at hsame

/-- What there is of the desired ports. -/
def keptPorts (desired current : List (Port α)) : List (Port α) :=
  current.filter fun p => desired.any p.same

theorem mem_keptPorts {desired current : List (Port α)} {p : Port α} :
    p ∈ keptPorts desired current ↔ p ∈ current ∧ ∃ d ∈ desired, p.same d = true := by
  simp [keptPorts]

theorem mem_portDifferences {target other : List (Port α)} {p : Port α} :
    p ∈ portDifferences target other ↔ p ∈ target ∧ ∀ q ∈ other, p.same q = false :=
  mem_differences

theorem apart_portDifferences {target : List (Port α)} (apart : Apart target)
    (other : List (Port α)) : Apart (portDifferences target other) :=
  apart.filter _

/-- The missing ports are no more like those there than like one another. -/
theorem apart_append_missing {desired current : List (Port α)} (held : Apart current)
    (apart : Apart desired) : Apart (current ++ portDifferences desired current) := by
  refine List.pairwise_append.2 ⟨held, apart_portDifferences apart _, fun p hp q hq => ?_⟩
  rw [Port.same_comm]
  exact (mem_portDifferences.1 hq).2 p hp

theorem filter_not_stale (desired current : List (Port α)) :
    (current.filter fun p => !(portDifferences current desired).any (p.same ·)) =
      keptPorts desired current := by
  refine List.filter_congr fun p hp => ?_
  rw [Bool.eq_iff_iff]
  simp only [Bool.not_eq_true', List.any_eq_false, List.any_eq_true, mem_portDifferences]
  constructor
  · intro h
    by_contra hundesired
    exact h p ⟨hp, by simpa using hundesired⟩ p.same_refl
  · rintro ⟨d, hd, hsame⟩ s ⟨_, hstale⟩ hps
    have := hstale d hd
    rw [← Port.same_congr hps, hsame] at this
    cases this

/-- The port `current` brought to what `desired` says of it. -/
def Port.synced (desired current : Port α) : Port α :=
  { current with
    settings := desired.settings
    healthCheck := desired.healthCheck
    backends := syncedBackends desired.backends current.backends
    filters := syncedFilters desired.filters current.filters }

/-- The port `current` brought to what is desired of it, if anything is. -/
def Port.syncedBy (desired : List (Port α)) (current : Port α) : Port α :=
  match desired.find? (·.same current) with
  | some d => d.synced current
  | none => current

/-- Ports that are the same are equal. -/
def Unambiguous (ports : List (Port α)) : Prop :=
  ∀ p ∈ ports, ∀ q ∈ ports, p.same q = true → p = q

theorem unambiguous_of_apart {ports : List (Port α)} (apart : Apart ports) : Unambiguous ports := by
  have symm : Std.Symm fun p q : Port α => p.same q = false :=
    ⟨fun p q h => by rwa [Port.same_comm]⟩
  intro p hp q hq hsame
  by_contra hne
  have hother : p.same q = false := List.Pairwise.forall apart hp hq hne
  simp [hsame] at hother

theorem Unambiguous.eq_of_same {desired : List (Port α)} (unambiguous : Unambiguous desired)
    {d e p : Port α} (he : e ∈ desired) (hd : d ∈ desired) (hep : e.same p = true)
    (hdp : d.same p = true) : e = d := by
  refine unambiguous e he d hd ?_
  rw [Port.same_congr hep, Port.same_comm, hdp]

theorem find?_of_unambiguous {desired : List (Port α)} (unambiguous : Unambiguous desired)
    {d p : Port α} (hd : d ∈ desired) (hsame : d.same p = true) :
    desired.find? (·.same p) = some d := by
  cases hfind : desired.find? (·.same p) with
  | none =>
      have hother := List.find?_eq_none.1 hfind d hd
      simp [hsame] at hother
  | some e =>
      have he : e.same p = true := by simpa using List.find?_some hfind
      rw [unambiguous.eq_of_same (List.mem_of_find?_eq_some hfind) hd he hsame]

theorem Port.syncedBy_eq {desired : List (Port α)} (unambiguous : Unambiguous desired)
    {d p : Port α} (hd : d ∈ desired) (hsame : d.same p = true) :
    p.syncedBy desired = d.synced p := by
  rw [Port.syncedBy, find?_of_unambiguous unambiguous hd hsame]

theorem Reconcile.desiredFor_eq {desired : List (Port α)} (unambiguous : Unambiguous desired)
    {d p : Port α} (hd : d ∈ desired) (hsame : d.same p = true) :
    Reconcile.desiredFor desired p = .ok d := by
  rw [Reconcile.desiredFor, find?_of_unambiguous unambiguous hd hsame]

theorem Port.syncedBy_vip (desired : List (Port α)) (p : Port α) :
    (p.syncedBy desired).vip = p.vip := by
  unfold Port.syncedBy
  split <;> rfl

theorem Port.syncedBy_pair (desired : List (Port α)) (p : Port α) :
    (p.syncedBy desired).pair = p.pair := by
  unfold Port.syncedBy
  split <;> rfl

theorem Port.syncedBy_attachment (desired : List (Port α)) (p : Port α) :
    (p.syncedBy desired).attachment = p.attachment := by
  unfold Port.syncedBy
  split <;> rfl

theorem Port.syncedBy_same (desired : List (Port α)) (p q : Port α) :
    (p.syncedBy desired).same q = p.same q := by
  unfold Port.syncedBy
  split <;> rfl

theorem Selects.other {d p q : Port α} {before : List (Port α)} (h : Selects d before p)
    (hq : q.same p = true) : Selects d before q :=
  ⟨h.skips, by rw [Port.same_congr hq, h.same]⟩

theorem Selects.self {d p : Port α} {before : List (Port α)} (h : Selects d before p) :
    Selects p before p :=
  ⟨fun q hq => by rw [Port.same_comm, Port.same_congr h.same, Port.same_comm, h.skips q hq],
    p.same_refl⟩

/-- `ports` are those desired of the balancer `name`, as far as pairs go. -/
structure Covers (name : String) (desired ports : List (Port α)) : Prop where
  named : ∀ p ∈ ports, p.name = name
  apart : Apart ports
  sound : ∀ p ∈ ports, ∃ d ∈ desired, d.same p = true
  complete : ∀ d ∈ desired, ∃ p ∈ ports, d.same p = true

theorem Covers.ne_nil {name : String} {desired ports : List (Port α)}
    (covers : Covers name desired ports) (h : desired ≠ []) : ports ≠ [] := by
  rintro rfl
  obtain ⟨d, hd⟩ := List.exists_mem_of_ne_nil desired h
  obtain ⟨p, hp, -⟩ := covers.complete d hd
  simp at hp

theorem Covers.perm {name : String} {desired ports : List (Port α)}
    (covers : Covers name desired ports) (apart : Apart desired)
    (named : ∀ d ∈ desired, d.name = name) :
    (ports.map Port.pair).Perm (desired.map Port.pair) := by
  refine (List.perm_ext_iff_of_nodup (pairs_of_apart covers.apart covers.named)
    (pairs_of_apart apart named)).2 fun pair => ?_
  simp only [List.mem_map]
  constructor
  · rintro ⟨p, hp, rfl⟩
    obtain ⟨d, hd, hsame⟩ := covers.sound p hp
    exact ⟨d, hd, (Port.same_iff.1 hsame).2⟩
  · rintro ⟨d, hd, rfl⟩
    obtain ⟨p, hp, hsame⟩ := covers.complete d hd
    exact ⟨p, hp, (Port.same_iff.1 hsame).2.symm⟩

/-- Synchronising ports changes none of their pairs. -/
theorem Covers.synced {name : String} {desired ports : List (Port α)}
    (covers : Covers name desired ports) :
    Covers name desired (ports.map (Port.syncedBy desired)) := by
  obtain ⟨named, apart, sound, complete⟩ := covers
  have same_synced (p q : Port α) : p.same (q.syncedBy desired) = p.same q := by
    rw [Port.same_comm, Port.syncedBy_same, Port.same_comm]
  refine ⟨?_, List.pairwise_map.2 (apart.imp fun {p q} other => ?_), ?_, fun d hd => ?_⟩
  · simp only [List.forall_mem_map]
    intro p hp
    exact (Port.same_iff.1 ((Port.syncedBy_same desired p p).trans p.same_refl)).1.trans
      (named p hp)
  · rw [Port.syncedBy_same, same_synced, other]
  · simpa only [List.forall_mem_map, same_synced] using sound
  · obtain ⟨p, hp, hsame⟩ := complete d hd
    exact ⟨_, List.mem_map_of_mem hp, by rwa [same_synced]⟩

/-- Ports that are synchronised already do not get in the way of the next one. -/
theorem Covers.selects {name : String} {desired done rest : List (Port α)} {d p : Port α}
    (covers : Covers name desired (done ++ p :: rest)) (hsame : d.same p = true) :
    Selects d (done.map (Port.syncedBy desired)) p := by
  refine ⟨fun q hq => ?_, by rwa [Port.same_comm]⟩
  obtain ⟨r, hr, rfl⟩ := List.mem_map.1 hq
  have hother := (List.pairwise_append.1 covers.apart).2.2 r hr p List.mem_cons_self
  rw [Port.syncedBy_same, Port.same_comm, Port.same_congr hsame, Port.same_comm, hother]

namespace Inventory

/-- The port `p` as it is registered with the balancer that has `first`, with its health check. -/
def freshPort (first p : k.Port) : k.Port :=
  { furtherPort first p with healthCheck := p.healthCheck }

/-- The ports of a balancer once it has just the desired ones. -/
def mergedPorts (first : k.Port) (desired current : List k.Port) : List k.Port :=
  keptPorts desired current ++ (portDifferences desired current).map (freshPort first)

variable {first : k.Port} {name : String} {desired current : List k.Port}

theorem covers_mergedPorts (first : k.Port) (apart : Apart (portDifferences desired current))
    (named : ∀ d ∈ desired, d.name = name) (currentApart : Apart current)
    (currentNamed : ∀ p ∈ current, p.name = name) :
    Covers name desired (mergedPorts first desired current) := by
  refine ⟨fun p hp => ?_, ?_, fun p hp => ?_, fun d hd => ?_⟩
  · rcases List.mem_append.1 hp with hp | hp
    · exact currentNamed p (mem_keptPorts.1 hp).1
    · obtain ⟨d, hd, rfl⟩ := List.mem_map.1 hp
      exact named d (mem_portDifferences.1 hd).1
  · refine List.pairwise_append.2 ⟨currentApart.filter _, ?_, fun p hp q hq => ?_⟩
    · exact List.pairwise_map.2 apart
    · obtain ⟨d, hd, rfl⟩ := List.mem_map.1 hq
      rw [Port.same_comm]
      exact (mem_portDifferences.1 hd).2 p (mem_keptPorts.1 hp).1
  · rcases List.mem_append.1 hp with hp | hp
    · obtain ⟨-, d, hd, hsame⟩ := mem_keptPorts.1 hp
      exact ⟨d, hd, by rwa [Port.same_comm]⟩
    · obtain ⟨d, hd, rfl⟩ := List.mem_map.1 hp
      exact ⟨d, (mem_portDifferences.1 hd).1, d.same_refl⟩
  · by_cases there : ∃ p ∈ current, d.same p = true
    · obtain ⟨p, hp, hsame⟩ := there
      refine ⟨p, List.mem_append_left _ (mem_keptPorts.2 ⟨hp, d, hd, ?_⟩), hsame⟩
      rwa [Port.same_comm]
    · have missing : d ∈ portDifferences desired current :=
        mem_portDifferences.2 ⟨hd, by simpa using there⟩
      exact ⟨freshPort first d, List.mem_append_right _ (List.mem_map_of_mem missing), d.same_refl⟩

theorem apart_grown {missing : List k.Port} (first : k.Port)
    (apart : Apart (current ++ missing)) : Apart (current ++ missing.map (freshPort first)) := by
  obtain ⟨held, new, across⟩ := List.pairwise_append.1 apart
  refine List.pairwise_append.2 ⟨held, List.pairwise_map.2 new, fun p hp q hq => ?_⟩
  obtain ⟨d, hd, rfl⟩ := List.mem_map.1 hq
  exact across p hp d hd

theorem named_grown {missing : List k.Port} (first : k.Port)
    (currentNamed : ∀ p ∈ current, p.name = name) (named : ∀ p ∈ missing, p.name = name) :
    ∀ p ∈ current ++ missing.map (freshPort first), p.name = name := by
  intro p hp
  rcases List.mem_append.1 hp with hp | hp
  · exact currentNamed p hp
  · obtain ⟨d, hd, rfl⟩ := List.mem_map.1 hp
    exact named d hd

/-- Deleting the stale ports leaves alone what was just registered. -/
theorem filter_grown (first : k.Port) (desired current : List k.Port) :
    ((current ++ (portDifferences desired current).map (freshPort first)).filter fun p =>
        !(portDifferences current desired).any (p.same ·)) =
      mergedPorts first desired current := by
  rw [List.filter_append, filter_not_stale, mergedPorts, List.filter_eq_self.2 fun p hp => ?_]
  obtain ⟨d, hd, rfl⟩ := List.mem_map.1 hp
  simp only [Bool.not_eq_true', List.any_eq_false, Bool.not_eq_true]
  intro s hs
  rw [Port.same_comm]
  exact (mem_portDifferences.1 hs).2 d (mem_portDifferences.1 hd).1

theorem mergedPorts_of_covers (first : k.Port)
    (missing : portDifferences desired current = [])
    (stale : portDifferences current desired = []) :
    mergedPorts first desired current = current := by
  rw [mergedPorts, missing, List.map_nil, List.append_nil]
  refine List.filter_eq_self.2 fun p hp => ?_
  exact List.any_eq_true.2 (differences_eq_nil_iff.1 stale p hp)

/-- The ports of a new balancer as they are when none of them is configured yet. -/
def newPorts (base : Inventory) : List k.Port → List k.Port
  | [] => []
  | p :: rest => base.firstPort p :: rest.map (furtherPort (base.firstPort p))

theorem covers_newPorts (base : Inventory) (apart : Apart desired)
    (named : ∀ d ∈ desired, d.name = name) : Covers name desired (base.newPorts desired) := by
  cases desired with
  | nil => exact ⟨by simp [newPorts], .nil, by simp [newPorts], by simp⟩
  | cons d rest =>
      obtain ⟨hfirst, hrest⟩ := List.pairwise_cons.1 apart
      refine ⟨?_, List.pairwise_cons.2 ⟨?_, List.pairwise_map.2 hrest⟩, ?_, ?_⟩
      · simpa [newPorts, firstPort, furtherPort, Port.bare] using named
      · intro p hp
        obtain ⟨q, hq, rfl⟩ := List.mem_map.1 hp
        exact hfirst q hq
      · intro p hp
        rcases List.mem_cons.1 hp with rfl | hp
        · exact ⟨d, List.mem_cons_self, d.same_refl⟩
        · obtain ⟨q, hq, rfl⟩ := List.mem_map.1 hp
          exact ⟨q, List.mem_cons_of_mem d hq, q.same_refl⟩
      · intro q hq
        rcases List.mem_cons.1 hq with rfl | hq
        · exact ⟨base.firstPort q, List.mem_cons_self, q.same_refl⟩
        · exact ⟨_, List.mem_cons_of_mem _ (List.mem_map_of_mem hq), q.same_refl⟩

/-- The ports of a balancer that had `current` once they are the desired ones, before any of them
is brought to what is desired of it. -/
def arrangedPorts (base : Inventory) (desired current : List k.Port) : List k.Port :=
  match current with
  | [] => base.newPorts desired
  | first :: _ => mergedPorts first desired current

theorem covers_arrangedPorts (base : Inventory) (apart : Apart desired)
    (named : ∀ d ∈ desired, d.name = name) (currentApart : Apart current)
    (currentNamed : ∀ p ∈ current, p.name = name) :
    Covers name desired (base.arrangedPorts desired current) := by
  cases current with
  | nil => exact covers_newPorts base apart named
  | cons first after =>
      exact covers_mergedPorts first (apart_portDifferences apart _) named currentApart currentNamed

theorem arrangedPorts_of_desired (base : Inventory) {p : k.Port} (hp : p ∈ current)
    (kept : ∃ d ∈ desired, d.same p = true) : p ∈ base.arrangedPorts desired current := by
  cases current with
  | nil => simp at hp
  | cons first after =>
      obtain ⟨d, hd, hsame⟩ := kept
      exact List.mem_append_left _ (mem_keptPorts.2 ⟨hp, d, hd, by rwa [Port.same_comm]⟩)

theorem mem_arrangedPorts {base : Inventory} {p : k.Port}
    (h : p ∈ base.arrangedPorts desired current) :
    p ∈ current ∨ p.backends = [] ∧ p.filters = [] ∧ ∀ q ∈ current, p.same q = false := by
  cases current with
  | nil =>
      refine .inr ?_
      cases desired with
      | nil => simp [arrangedPorts, newPorts] at h
      | cons d rest =>
          rcases List.mem_cons.1 h with rfl | h
          · exact ⟨rfl, rfl, by simp⟩
          · obtain ⟨q, -, rfl⟩ := List.mem_map.1 h
            exact ⟨rfl, rfl, by simp⟩
  | cons first after =>
      rcases List.mem_append.1 h with h | h
      · exact .inl (mem_keptPorts.1 h).1
      · obtain ⟨q, hq, rfl⟩ := List.mem_map.1 h
        exact .inr ⟨rfl, rfl, (mem_portDifferences.1 hq).2⟩

theorem distinct_arrangedPorts {base : Inventory} (valid : ValidPorts k name current) {p : k.Port}
    (h : p ∈ base.arrangedPorts desired current) : Distinct p.backends := by
  rcases mem_arrangedPorts h with hp | ⟨idle, -, -⟩
  · exact valid.backends hp
  · exact idle ▸ .nil

theorem mem_of_arrangedPorts_of_busy {base : Inventory} {p : k.Port}
    (h : p ∈ base.arrangedPorts desired current) (busy : p.backends ≠ []) : p ∈ current :=
  (mem_arrangedPorts h).resolve_right fun new => busy new.1

end Inventory

namespace Reconcile

open Inventory

variable {base : Inventory} {name : String} {first p : k.Port}
  {after missing ports stale : List k.Port}

/-- A step that adds a port to a balancer that has `first`, in the form `fin` gives it, unless one
with the same port pair is there. -/
structure Adds (k : Kind) (base : Inventory) (name : String) (first : k.Port)
    (step : k.Port → Job Unit) (fin : k.Port → k.Port) : Prop where
  same : ∀ p q, (fin p).same q = p.same q
  new : ∀ {p : k.Port} {after : List k.Port}, p.name = name →
    (∀ q ∈ first :: after, q.same p = false) →
      (step p).effect (base.withPorts k name (first :: after)) =
        (.ok (), base.withPorts k name (first :: after ++ [fin p]))
  taken : ∀ {p : k.Port} {ports : List k.Port}, p.name = name →
    (∃ q ∈ ports, q.same p = true) →
      ∃ e, (step p).effect (base.withPorts k name ports) = (.error e, base.withPorts k name ports)

/-- Adding ports fails just where two ports are the same. -/
theorem Adds.effect_forEach {step : k.Port → Job Unit} {fin : k.Port → k.Port}
    (adds : Adds k base name first step fin) (named : ∀ p ∈ missing, p.name = name)
    (current : Apart (first :: after)) :
    Apart (first :: after ++ missing) ∧
        (Job.forEach missing step).effect (base.withPorts k name (first :: after)) =
          (.ok (), base.withPorts k name (first :: after ++ missing.map fin)) ∨
      ¬ Apart (first :: after ++ missing) ∧ ∃ e done, done <+: missing ∧
        Apart (first :: after ++ done) ∧
        (Job.forEach missing step).effect (base.withPorts k name (first :: after)) =
          (.error e, base.withPorts k name (first :: after ++ done.map fin)) := by
  let grown (done : List k.Port) := base.withPorts k name (first :: after ++ done.map fin)
  let Failed (inv : Inventory) : Prop :=
    ¬ Apart (first :: after ++ missing) ∧
      ∃ done, done <+: missing ∧ Apart (first :: after ++ done) ∧ inv = grown done
  have hstep : ∀ done p rest inv,
      missing = done ++ p :: rest ∧ Apart (first :: after ++ done) ∧ inv = grown done →
      (∃ inv', (step p).effect inv = (.ok (), inv') ∧ missing = (done ++ [p]) ++ rest ∧
          Apart (first :: after ++ (done ++ [p])) ∧ inv' = grown (done ++ [p])) ∨
        ∃ e inv', (step p).effect inv = (.error e, inv') ∧ Failed inv' := by
    rintro done p rest _ ⟨hsplit, apart, rfl⟩
    have hp : p.name = name := named p (by simp [hsplit])
    by_cases taken : ∃ q ∈ first :: after ++ done, q.same p = true
    · have held : ∃ q ∈ first :: after ++ done.map fin, q.same p = true := by
        simpa [or_and_right, exists_or, adds.same] using taken
      obtain ⟨e, refused⟩ := adds.taken hp held
      refine .inr ⟨e, _, refused, fun whole => ?_, done, ⟨p :: rest, hsplit.symm⟩, apart, rfl⟩
      obtain ⟨q, hq, hsame⟩ := taken
      rw [hsplit, ← List.append_assoc] at whole
      have hother := (List.pairwise_append.1 whole).2.2 q hq p List.mem_cons_self
      simp [hsame] at hother
    · have new : ∀ q ∈ first :: after ++ done, q.same p = false := by simpa using taken
      have newHeld : ∀ q ∈ first :: after ++ done.map fin, q.same p = false := by
        simpa [or_imp, forall_and, adds.same] using new
      have grownApart : Apart (first :: after ++ (done ++ [p])) := by
        rw [← List.append_assoc]
        exact List.pairwise_append.2 ⟨apart, List.pairwise_singleton .., by simpa using new⟩
      refine .inl ⟨_, adds.new hp newHeld, by simp [hsplit], grownApart, ?_⟩
      simp [grown]
  have start : missing = [] ++ missing ∧ Apart (first :: after ++ []) ∧
      base.withPorts k name (first :: after) = grown [] :=
    ⟨rfl, by simpa using current, by simp [grown]⟩
  rcases Job.effect_forEach_cases (fun done rest inv =>
      missing = done ++ rest ∧ Apart (first :: after ++ done) ∧ inv = grown done)
    Failed hstep start with
      ⟨_, heffect, -, apart, rfl⟩ | ⟨e, _, heffect, taken, done, hdone, apart, rfl⟩
  · exact .inl ⟨apart, by simpa [grown] using heffect⟩
  · exact .inr ⟨taken, e, done, hdone, apart, heffect⟩

/-- Where all of the ports can be added, they are. -/
theorem Adds.effect_all {step : k.Port → Job Unit} {fin : k.Port → k.Port}
    (adds : Adds k base name first step fin) (named : ∀ p ∈ missing, p.name = name)
    (apart : Apart (first :: after ++ missing)) :
    (Job.forEach missing step).effect (base.withPorts k name (first :: after)) =
      (.ok (), base.withPorts k name (first :: after ++ missing.map fin)) :=
  ((adds.effect_forEach named (List.pairwise_append.1 apart).1).resolve_right
    fun taken => taken.1 apart).2

theorem adds_registerPort (base : Inventory) (name : String) (first : k.Port) :
    Adds k base name first (registerPort name) (furtherPort first) :=
  ⟨fun _ _ => rfl, effect_registerPort, effect_registerPort_of_taken base⟩

theorem adds_freshPort (base : Inventory) (name : String) (first : k.Port) :
    Adds k base name first (fun p => do registerPort name p; configureHealthCheck p)
      (freshPort first) := by
  refine ⟨fun _ _ => rfl, fun named new => ?_, fun named taken => ?_⟩
  · rw [Job.effect_bind_ok (effect_registerPort named new)]
    exact effect_configureHealthCheck named ⟨new, Port.same_refl _⟩
  · obtain ⟨e, refused⟩ := effect_registerPort_of_taken base named taken
    exact ⟨e, Job.effect_bind_error refused⟩

theorem filter_more (done : List k.Port) (s : k.Port) :
    (ports.filter fun p => !done.any (p.same ·)).filter (!·.same s) =
      ports.filter fun p => !(done ++ [s]).any (p.same ·) := by
  rw [List.filter_filter]
  refine List.filter_congr fun p _ => ?_
  simp [Bool.and_comm]

/-- A port is there until it is its turn to be deleted. -/
theorem mem_left {done rest : List k.Port} (apart : Apart (done ++ p :: rest)) (hp : p ∈ ports) :
    p ∈ ports.filter fun q => !done.any (q.same ·) := by
  refine List.mem_filter.2 ⟨hp, ?_⟩
  simp only [Bool.not_eq_true', List.any_eq_false, Bool.not_eq_true]
  intro d hd
  rw [Port.same_comm]
  exact (List.pairwise_append.1 apart).2.2 d hd p List.mem_cons_self

/-- Nothing is left of ports that all have had their turn. -/
theorem filter_none (ports : List k.Port) :
    (ports.filter fun p => !ports.any (p.same ·)) = [] := by
  refine List.filter_eq_nil_iff.2 fun p hp => ?_
  simpa using ⟨p, hp, p.same_refl⟩

theorem effect_deleteAll (base : Inventory) (named : ∀ p ∈ stale, p.name = name)
    (apart : Apart stale) (held : stale ⊆ ports) :
    (Job.forEach stale (deletePort name)).effect (base.withPorts k name ports) =
      (.ok (), base.withPorts k name (ports.filter fun p => !stale.any (p.same ·))) := by
  let left (done : List k.Port) :=
    base.withPorts k name (ports.filter fun p => !done.any (p.same ·))
  have hstep : ∀ done s rest inv, stale = done ++ s :: rest ∧ inv = left done →
      ∃ inv', (deletePort name s).effect inv = (.ok (), inv') ∧
        stale = (done ++ [s]) ++ rest ∧ inv' = left (done ++ [s]) := by
    rintro done s rest _ ⟨rfl, rfl⟩
    have there : ∃ q ∈ ports.filter fun p => !done.any (p.same ·), q.same s = true :=
      ⟨s, mem_left apart (held (by simp)), s.same_refl⟩
    refine ⟨_, effect_deletePort (named s (by simp)) there, by simp, ?_⟩
    rw [filter_more]
  have start : stale = [] ++ stale ∧ base.withPorts k name ports = left [] :=
    ⟨rfl, congrArg _ (List.filter_eq_self.2 fun _ _ => rfl).symm⟩
  obtain ⟨_, heffect, -, rfl⟩ := Job.effect_forEach
    (fun done rest inv => stale = done ++ rest ∧ inv = left done) hstep start
  exact heffect

end Reconcile

end CloudBalancer
