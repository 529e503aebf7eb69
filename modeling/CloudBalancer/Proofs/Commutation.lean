import CloudBalancer.Proofs.Contracts
import CloudBalancer.Proofs.PortLists

/-!
Calls that may change places. A call about ports and one about groups do not meet, and neither do
two that set different things of one port. So a job is none the wiser if a call that all of its own
may change places with comes first, and jobs side by side that keep apart in this way come to the
same in whichever order their calls are performed.
-/

namespace CloudBalancer

variable {α : Type} {k : Kind}

namespace Inventory

variable {inv : Inventory}

/-- What becomes of a call that the cloud itself answers, and what it leaves. -/
def answer (inv : Inventory) (c : Call) : Outcome c.Answer × Inventory :=
  match inv.apply c with
  | .ok (answer, after) => (.answered answer, after)
  | .error e => (.refused e, inv)

def withGroups (inv : Inventory) (groups : NameMap SecurityGroup) : Inventory :=
  { inv with groups }

@[simp]
theorem withGroups_withGroups (inv : Inventory) (first second : NameMap SecurityGroup) :
    (inv.withGroups first).withGroups second = inv.withGroups second := rfl

@[simp]
theorem withGroups_self (inv : Inventory) : inv.withGroups inv.groups = inv := rfl

@[simp]
theorem groups_withGroups (inv : Inventory) (groups : NameMap SecurityGroup) :
    (inv.withGroups groups).groups = groups := rfl

theorem modifyPort_withGroups (inv : Inventory) (groups : NameMap SecurityGroup) (d : k.Port)
    (f : k.Port → Except ApiError k.Port) :
    (inv.withGroups groups).modifyPort k d f =
      (inv.modifyPort k d f).map (·.withGroups groups) := by
  cases k
  all_goals
    simp only [modifyPort, table, withGroups]
    cases Table.modify _ _ d f <;> rfl

/-- A change that goes through splits the ports at the one that is changed. -/
theorem split_of_modifyPort {after : Inventory} {d : k.Port} {f : k.Port → Except ApiError k.Port}
    (h : inv.modifyPort k d f = .ok after) :
    ∃ (base : Inventory) (before : List k.Port) (p : k.Port) (rest : List k.Port),
      inv = base.withPorts k d.name (before ++ p :: rest) ∧ Selects d before p := by
  obtain ⟨before, p, rest, -, hports, selects, -, -⟩ := modifyPort_eq_ok h
  refine ⟨inv, before, p, rest, ?_, selects⟩
  rw [← hports]
  refine (withPorts_ports fun blank => ?_).symm
  simp [Inventory.ports, blank] at hports

theorem selects_congr {d d' p : k.Port} {before : List k.Port} (same : d.same d' = true)
    (h : Selects d before p) : Selects d' before p := by
  have alike (q : k.Port) : q.same d' = q.same d := by
    rw [Port.same_comm, ← Port.same_congr same, Port.same_comm]
  exact ⟨fun q hq => (alike q).trans (h.skips q hq), (alike p).trans h.same⟩

theorem modifyPort_split {base : Inventory} {name : String} {d p : k.Port}
    {before rest : List k.Port} (named : d.name = name) (selects : Selects d before p)
    (f : k.Port → k.Port) :
    (base.withPorts k name (before ++ p :: rest)).modifyPort k d (fun p => .ok (f p)) =
      .ok (base.withPorts k name (before ++ f p :: rest)) :=
  of_map_ok (modifyPort_withPorts named selects rfl)

/-- Two changes of one port that change places. They go through or fail alike, for they do not
touch what tells the port apart. -/
theorem modifyPort_comm {d d' : k.Port} (same : d.same d' = true) {f g : k.Port → k.Port}
    (hf : ∀ p q, (f p).same q = p.same q) (hg : ∀ p q, (g p).same q = p.same q)
    (comm : ∀ p, f (g p) = g (f p)) (inv : Inventory) :
    (∃ e e', inv.modifyPort k d (fun p => .ok (f p)) = .error e ∧
        inv.modifyPort k d' (fun p => .ok (g p)) = .error e') ∨
      ∃ first second both, inv.modifyPort k d (fun p => .ok (f p)) = .ok first ∧
        inv.modifyPort k d' (fun p => .ok (g p)) = .ok second ∧
        second.modifyPort k d (fun p => .ok (f p)) = .ok both ∧
        first.modifyPort k d' (fun p => .ok (g p)) = .ok both := by
  have named : d'.name = d.name := (Port.same_iff.1 same).1.symm
  have split : (∃ e e', inv.modifyPort k d (fun p => .ok (f p)) = .error e ∧
      inv.modifyPort k d' (fun p => .ok (g p)) = .error e') ∨
        ∃ (base : Inventory) (before : List k.Port) (p : k.Port) (rest : List k.Port),
          inv = base.withPorts k d.name (before ++ p :: rest) ∧ Selects d before p := by
    cases hfirst : inv.modifyPort k d fun p => .ok (f p) with
    | ok first => exact .inr (split_of_modifyPort hfirst)
    | error e =>
        cases hsecond : inv.modifyPort k d' fun p => .ok (g p) with
        | error e' => exact .inl ⟨e, e', rfl, rfl⟩
        | ok second =>
            obtain ⟨base, before, p, rest, hinv, selects⟩ := split_of_modifyPort hsecond
            exact .inr ⟨base, before, p, rest, named ▸ hinv,
              selects_congr (by rwa [Port.same_comm]) selects⟩
  rcases split with failed | ⟨base, before, p, rest, rfl, selects⟩
  · exact .inl failed
  · have selects' : Selects d' before p := selects_congr same selects
    have selects_g : Selects d before (g p) := ⟨selects.skips, (hg p d).trans selects.same⟩
    have selects_f : Selects d' before (f p) := ⟨selects'.skips, (hf p d').trans selects'.same⟩
    refine .inr ⟨_, _, _, modifyPort_split rfl selects f, modifyPort_split named selects' g,
      modifyPort_split rfl selects_g f, ?_⟩
    rw [comm]
    exact modifyPort_split named selects_f g

end Inventory

namespace Call

/-- In which order the two calls are performed makes no difference to their answers, nor to what
they leave. -/
structure Commutes (c c' : Call) : Prop where
  first : ∀ inv : Inventory, ((inv.answer c').2.answer c).1 = (inv.answer c).1
  second : ∀ inv : Inventory, ((inv.answer c).2.answer c').1 = (inv.answer c').1
  leaves : ∀ inv : Inventory, ((inv.answer c).2.answer c').2 = ((inv.answer c').2.answer c).2

theorem Commutes.symm {c c' : Call} (h : c.Commutes c') : c'.Commutes c :=
  ⟨h.second, h.first, fun inv => (h.leaves inv).symm⟩

/-- The call neither reads nor changes groups. -/
def OnPorts (c : Call) : Prop :=
  ∀ (inv : Inventory) (groups : NameMap SecurityGroup),
    (inv.withGroups groups).answer c = ((inv.answer c).1, (inv.answer c).2.withGroups groups)

/-- The call reads and changes nothing but groups. -/
def OnGroups (c : Call) : Prop :=
  ∀ inv other : Inventory, other.groups = inv.groups →
    (other.answer c).1 = (inv.answer c).1 ∧
      (other.answer c).2 = other.withGroups (inv.answer c).2.groups

theorem commutes_of_onPorts {c c' : Call} (ports : c.OnPorts) (groups : c'.OnGroups) :
    c.Commutes c' := by
  have kept (inv : Inventory) : (inv.answer c).2.groups = inv.groups := by
    have h := congrArg (·.2.groups) (ports inv inv.groups)
    simpa using h
  have left (inv : Inventory) :
      (inv.answer c').2 = inv.withGroups (inv.answer c').2.groups := (groups inv inv rfl).2
  refine ⟨fun inv => ?_, fun inv => (groups inv _ (kept inv)).1, fun inv => ?_⟩
  · rw [left, ports]
  · rw [(groups inv _ (kept inv)).2, left inv, ports]
    rfl

/-- The call makes `f` of the port meant by `d`, and does nothing else. -/
def Sets (c : Call) (d : k.Port) (f : k.Port → k.Port) : Prop :=
  ∃ value : c.Answer, ∀ inv : Inventory,
    inv.apply c = (inv.modifyPort k d fun p => .ok (f p)).map (value, ·)

theorem sets_configureHealthCheck (d : k.Port) :
    (configureHealthCheck k d).Sets d fun p => { p with healthCheck := d.healthCheck } :=
  ⟨(), fun _ => rfl⟩

theorem sets_registerBackends (d : k.Port) (backends : List Backend) :
    (registerBackends k d backends).Sets d
      fun p => { p with backends := addBackends p.backends backends } :=
  ⟨(), fun _ => rfl⟩

theorem sets_setFilter (d : k.Port) (changes : List FilterChange) :
    (setFilter k d changes).Sets d fun p => { p with filters := applyChanges p.filters changes } :=
  ⟨(), fun _ => rfl⟩

section Sets

variable {c c' : Call} {d d' : k.Port} {f g : k.Port → k.Port}

theorem Sets.onPorts (sets : c.Sets d f) : c.OnPorts := by
  obtain ⟨value, happly⟩ := sets
  intro inv groups
  simp only [Inventory.answer, happly, Inventory.modifyPort_withGroups]
  cases inv.modifyPort k d _ <;> rfl

theorem Sets.commutes (sets : c.Sets d f) (sets' : c'.Sets d' g) (same : d.same d' = true)
    (hf : ∀ p q, (f p).same q = p.same q) (hg : ∀ p q, (g p).same q = p.same q)
    (comm : ∀ p, f (g p) = g (f p)) : c.Commutes c' := by
  obtain ⟨value, happly⟩ := sets
  obtain ⟨value', happly'⟩ := sets'
  have diamond := Inventory.modifyPort_comm same hf hg comm
  refine ⟨fun inv => ?_, fun inv => ?_, fun inv => ?_⟩
  all_goals
    rcases diamond inv with ⟨e, e', h, h'⟩ | ⟨first, second, both, h, h', hboth, hboth'⟩
    · simp [Inventory.answer, happly, happly', h, h', Except.map]
    · simp [Inventory.answer, happly, happly', h, h', hboth, hboth', Except.map]

end Sets

theorem onGroups_groupsOf (ids : List String) : (groupsOf ids).OnGroups := by
  intro inv other same
  simp [Inventory.answer, Inventory.apply, Inventory.groupsOf, ← same]

theorem onGroups_authorize (group : String) (rule : Rule) : (authorize group rule).OnGroups := by
  intro inv other same
  simp only [Inventory.answer, Inventory.apply, Inventory.authorize, same]
  by_cases taken : ((inv.groups.get? group).getD {}).rules.contains rule
  · simp only [taken, if_true, Except.map]
    exact ⟨trivial, by rw [← same]; rfl⟩
  · simp only [taken]
    exact ⟨rfl, rfl⟩

theorem onGroups_awaitApplied (group : String) : (awaitApplied group).OnGroups := by
  intro inv other same
  simp [Inventory.answer, Inventory.apply, ← same]

end Call

/-- All calls that the job may make are such. -/
def Job.Makes (P : Call → Prop) (job : Job α) : Prop :=
  job.Within ⟨P, fun _ _ => True⟩ fun _ => True

/-- Any two calls that the jobs may make change places. -/
def Job.Separate (job other : Job Unit) : Prop :=
  job.Makes fun c => other.Makes c.Commutes

namespace Job

variable {P Q : Call → Prop} {site : Site} {c : Call} {next : Outcome c.Answer → Job α}

theorem Makes.mono {job : Job α} (h : job.Makes P) (himp : ∀ c, P c → Q c) : job.Makes Q := by
  induction job with
  | done value => trivial
  | fail e => trivial
  | record event next ih => exact ih h
  | call site c next ih =>
      refine ⟨himp c h.1, fun outcome _ => ih outcome (h.2 outcome ?_)⟩
      cases outcome <;> trivial

/-- Jobs keep apart if whatever the one may ask changes places with whatever the other may. -/
theorem separate_of_makes {job other : Job Unit} (h : job.Makes P) (h' : other.Makes Q)
    (commute : ∀ c c', P c → Q c' → c.Commutes c') : job.Separate other :=
  h.mono fun c hc => h'.mono fun c' hc' => commute c c' hc hc'

theorem Makes.first (h : (Job.call site c next).Makes P) : P c := h.1

theorem Makes.after (h : (Job.call site c next).Makes P) (outcome : Outcome c.Answer) :
    (next outcome).Makes P :=
  h.2 outcome (by cases outcome <;> trivial)

/-- The calls that a job makes if each is answered at once. -/
def asked : Job α → Inventory → List Call
  | .done _, _ => []
  | .fail _, _ => []
  | .record _ next, inv => next.asked inv
  | .call _ c next, inv => c :: (next (inv.answer c).1).asked (inv.answer c).2

theorem effect_call (site : Site) (c : Call) (next : Outcome c.Answer → Job α) (inv : Inventory) :
    (Job.call site c next).effect inv = (next (inv.answer c).1).effect (inv.answer c).2 := by
  simp only [effect, Inventory.answer]
  cases inv.apply c <;> rfl

/-- A call that changes places with all calls of a job may as well come before it. -/
theorem effect_answer {job : Job α} (separate : job.Makes c.Commutes) (inv : Inventory) :
    job.effect (inv.answer c).2 =
        ((job.effect inv).1, ((job.effect inv).2.answer c).2) ∧
      ((job.effect inv).2.answer c).1 = (inv.answer c).1 ∧
      job.asked (inv.answer c).2 = job.asked inv := by
  induction job generalizing inv with
  | done value => exact ⟨rfl, rfl, rfl⟩
  | fail e => exact ⟨rfl, rfl, rfl⟩
  | record event next ih => exact ih separate inv
  | call site c' next ih =>
      have commutes : c.Commutes c' := separate.first
      obtain ⟨heffect, hanswer, hasked⟩ := ih _ (separate.after (inv.answer c').1) (inv.answer c').2
      simp only [effect_call, asked, commutes.second, commutes.leaves]
      exact ⟨heffect, hanswer.trans (commutes.first inv), by rw [hasked]⟩

end Job

/-- The calls of jobs done one after the other, each call being answered at once. -/
def askedTogether : List (Job Unit) → Inventory → List Call
  | [], _ => []
  | job :: rest, inv =>
    match job.effect inv with
    | (.ok (), after) => job.asked inv ++ askedTogether rest after
    | (.error _, _) => job.asked inv

section Together

variable {before after : List (Job Unit)} {inv final : Inventory}

theorem effectTogether_cons_ok {job : Job Unit} {rest : List (Job Unit)}
    (h : effectTogether (job :: rest) inv = (.ok (), final)) :
    ∃ middle, job.effect inv = (.ok (), middle) ∧ effectTogether rest middle = (.ok (), final) := by
  unfold effectTogether at h
  split at h
  · next middle hjob => exact ⟨middle, hjob, h⟩
  · cases h

/-- Jobs that come to the same may stand for one another. -/
theorem together_append {jobs others : List (Job Unit)}
    (same : ∀ inv, effectTogether jobs inv = effectTogether others inv ∧
      askedTogether jobs inv = askedTogether others inv) (before : List (Job Unit))
    (inv : Inventory) :
    effectTogether (before ++ jobs) inv = effectTogether (before ++ others) inv ∧
      askedTogether (before ++ jobs) inv = askedTogether (before ++ others) inv := by
  induction before generalizing inv with
  | nil => exact same inv
  | cons first rest ih =>
      simp only [List.cons_append, effectTogether, askedTogether]
      cases first.effect inv with
      | mk result middle =>
          cases result with
          | ok _ => exact ⟨(ih middle).1, congrArg (first.asked inv ++ ·) (ih middle).2⟩
          | error e => exact ⟨rfl, rfl⟩

theorem together_fail {e : EngineError} :
    effectTogether (before ++ .fail e :: after) inv ≠ (.ok (), final) := by
  induction before generalizing inv with
  | nil => exact fun h => by cases h
  | cons first rest ih =>
      intro h
      obtain ⟨middle, -, hrest⟩ := effectTogether_cons_ok h
      exact ih hrest

/-- The first call of any job may be the first of all. -/
theorem together_call {site : Site} {c : Call} {next : Outcome c.Answer → Job Unit}
    (separate : ∀ job ∈ before, job.Makes c.Commutes)
    (h : effectTogether (before ++ .call site c next :: after) inv = (.ok (), final)) :
    effectTogether (before ++ next (inv.answer c).1 :: after) (inv.answer c).2 = (.ok (), final) ∧
      (askedTogether (before ++ .call site c next :: after) inv).Perm
        (c :: askedTogether (before ++ next (inv.answer c).1 :: after) (inv.answer c).2) := by
  induction before generalizing inv with
  | nil =>
      simp only [List.nil_append, effectTogether, askedTogether, Job.effect_call, Job.asked] at h ⊢
      refine ⟨h, ?_⟩
      split <;> exact List.Perm.refl _
  | cons first rest ih =>
      obtain ⟨middle, hfirst, hrest⟩ := effectTogether_cons_ok h
      obtain ⟨heffect, hanswer, hasked⟩ := Job.effect_answer (separate first List.mem_cons_self) inv
      rw [hfirst] at heffect hanswer
      obtain ⟨left, asked⟩ := ih (fun job hjob => separate job (.tail first hjob)) hrest
      rw [hanswer] at left asked
      simp only [List.cons_append, effectTogether, askedTogether, hfirst, heffect, hasked]
      exact ⟨left, (asked.append_left _).trans List.perm_middle⟩

end Together

end CloudBalancer
