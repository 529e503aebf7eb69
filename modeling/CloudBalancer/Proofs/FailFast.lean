import CloudBalancer.Proofs.Failures

/-!
Reconciliations and deletions answer for their calls. What carries the argument is what they know of
the balancer: the pairs of its ports. So the ports that are described after a change are just those
that are desired, and none of the errors can occur that would be due to no call. The rules of
elastic ports can be derived, because services have put them there.
-/

namespace CloudBalancer

namespace Reconcile

open Elastic

variable {k : Kind} {duty : Duty} {name : String} {scope pairs : List PortPair}
  {desired current : List k.Port} {d p : k.Port}

section Steps

theorem tends_updateSettings (aims : duty.aims (.ofPort p)) (allowed : duty.allowed (.update k d))
    (same : d.same p = true) : (updateSettings d p).Tends duty pairs := by
  rw [updateSettings]
  split
  · rfl
  · exact .remote allowed aims (Target.ofPort_of_same same).symm (fun _ => rfl) fun _ => rfl

theorem tends_configureHealthCheck (aims : duty.aims (.ofPort p))
    (allowed : duty.allowed (.configureHealthCheck k p)) :
    (configureHealthCheck p).Tends duty pairs :=
  (Job.Tends.remote allowed aims rfl (fun _ => rfl) fun _ => rfl).seq fun _ => rfl

theorem tends_registerBackends {backends : List Backend} (aims : duty.aims (.ofPort p))
    (allowed : duty.allowed (.registerBackends k p backends)) :
    (registerBackends p backends).Tends duty pairs :=
  (Job.Tends.remote allowed aims rfl (fun _ => rfl) fun _ => rfl).seq fun _ => rfl

/-- Instances of an L4 port have to be there. -/
theorem tends_deregisterBackends {p : L4Port} {backends : List Backend}
    (aims : duty.aims (.ofPort p)) (allowed : duty.allowed (.deregisterBackends .l4 p backends)) :
    (deregisterBackends (k := .l4) p backends).Tends duty pairs :=
  (Job.Tends.remote allowed aims rfl (fun _ => rfl) fun _ => rfl).seq fun _ => rfl

theorem tends_setFilter (aims : duty.aims (.ofPort d))
    (allowed : ∀ changes, duty.allowed (.setFilter k d changes)) (filters : List String) :
    (setFilter d filters).Tends duty pairs := by
  rw [setFilter]
  dsimp only
  split
  · rfl
  · exact (Job.Tends.remote (allowed _) aims rfl (fun _ => rfl) fun _ => rfl).seq fun _ => rfl

theorem answers_createPort {known : Known} (aims : duty.aims (.ofPort p))
    (allowed : duty.allowed (.create k p)) (named : p.name = name) :
    (createPort name p).Answers duty (fun _ known => known = ⟨[p.pair], none⟩) known := by
  subst named
  exact (Job.Answers.call allowed aims rfl fun _ => rfl).bind fun _ _ same => same

theorem answers_registerPort (aims : duty.aims (.ofPort p))
    (allowed : duty.allowed (.registerPort k p)) (named : p.name = name) (pairs : List PortPair) :
    (registerPort name p).Answers duty
      (fun _ known => known = ⟨pairs ++ [p.pair], none⟩) ⟨pairs, none⟩ := by
  subst named
  exact (Job.Answers.call allowed aims rfl fun _ => rfl).bind fun _ _ same => same

theorem answers_deletePort (aims : duty.aims (.ofPort p))
    (allowed : duty.allowed (.deletePort k p)) (named : p.name = name) (pairs : List PortPair) :
    (deletePort name p).Answers duty
      (fun _ known => known = ⟨pairs.filter (· ≠ p.pair), none⟩) ⟨pairs, none⟩ := by
  subst named
  exact (Job.Answers.call allowed aims rfl fun _ => rfl).bind fun _ _ same => same

/-- What a description finds. -/
def Finds (k : Kind) (name : String) (pairs : List PortPair) : Option (List k.Port) → Prop
  | some ports => ports ≠ [] ∧ Told k name pairs ports
  | none => pairs = []

theorem aims_balancer (k : Kind) (name : String) (scope : List PortPair) :
    (minding k name scope).aims (.balancer name) :=
  ⟨rfl, nofun⟩

theorem aims_port (named : p.name = name) (covered : p.pair ∈ scope) :
    (minding k name scope).aims (.ofPort p) := by
  refine ⟨named, fun pair same => ?_⟩
  cases same
  exact covered

theorem answers_describe (pairs : List PortPair) :
    (describe k name).Answers (minding k name scope)
      (fun answer known => known = ⟨pairs, none⟩ ∧ Finds k name pairs answer) ⟨pairs, none⟩ := by
  have allowed : (minding k name scope).allowed (.describe k name) := by
    refine ⟨?_, rfl, rfl⟩
    cases k <;> trivial
  have asked : (Job.remoteUnless k.notFound .api (.balancer name) (.describe k name)).Answers
      (minding k name scope) (fun answer known => known = ⟨pairs, none⟩ ∧
        match answer with
        | some ports => Told k name pairs ports
        | none => pairs = []) ⟨pairs, none⟩ :=
    .remoteUnless allowed (aims_balancer k name scope) rfl (fun _ => rfl)
      (fun ports told => ⟨rfl, told⟩) fun e _ missing => ⟨rfl, missing⟩
  refine asked.bind fun answer known found => ?_
  obtain ⟨same, found⟩ := found
  match answer, found with
  | none, missing => exact ⟨same, missing⟩
  | some [], told => exact ⟨same, told.pairs.symm⟩
  | some (first :: rest), told => exact ⟨same, List.cons_ne_nil _ _, told⟩

theorem answers_describeExisting (some_pair : pairs ≠ []) :
    (describeExisting k name).Answers (minding k name scope)
      (fun ports known => known = ⟨pairs, none⟩ ∧ ports ≠ [] ∧ Told k name pairs ports)
      ⟨pairs, none⟩ := by
  refine (answers_describe pairs).bind fun answer known found => ?_
  obtain ⟨same, found⟩ := found
  cases answer with
  | none => exact absurd found some_pair
  | some ports => exact ⟨same, found⟩

end Steps

/-- The ports that a service wants, of a balancer whose ports have pairs in `scope`. -/
structure Orders (k : Kind) (name : String) (scope : List PortPair) (desired : List k.Port) :
    Prop where
  named : ∀ d ∈ desired, d.name = name
  covered : ∀ d ∈ desired, d.pair ∈ scope
  creates : ∀ d ∈ desired, provision.allowed (.create k d)
  registers : ∀ d ∈ desired, provision.allowed (.registerPort k d)
  checks : ∀ d ∈ desired, provision.allowed (.configureHealthCheck k d)

/-- The pairs of a balancer once ports have been registered. -/
theorem foldl_registered {α : Type} (ports : List (Port α)) (pairs : List PortPair) :
    ports.foldl (fun pairs p => pairs ++ [p.pair]) pairs = pairs ++ ports.map Port.pair := by
  induction ports generalizing pairs with
  | nil => simp
  | cons p rest ih => simp [ih]

/-- The pairs of a balancer once ports have been deleted. -/
theorem mem_foldl_deleted {α : Type} (ports : List (Port α)) (pairs : List PortPair)
    (pair : PortPair) :
    pair ∈ ports.foldl (fun pairs p => pairs.filter (· ≠ p.pair)) pairs ↔
      pair ∈ pairs ∧ ∀ p ∈ ports, pair ≠ p.pair := by
  induction ports generalizing pairs with
  | nil => simp
  | cons p rest ih =>
      rw [List.foldl_cons, ih, List.forall_mem_cons, List.mem_filter, decide_eq_true_eq, and_assoc]

section Ports

variable (orders : Orders k name scope desired) (told : Told k name pairs current)

include orders told

/-- The pairs of the ports once the missing ones are registered and the stale ones deleted. -/
theorem mem_syncedPairs (pair : PortPair) :
    pair ∈ (portDifferences current desired).foldl (fun pairs p => pairs.filter (· ≠ p.pair))
        (pairs ++ (portDifferences desired current).map Port.pair) ↔
      pair ∈ desired.map Port.pair := by
  rw [mem_foldl_deleted, ← told.pairs, List.mem_append]
  constructor
  · intro kept
    obtain ⟨held | missing, unstale⟩ := kept
    · obtain ⟨p, hp, rfl⟩ := List.mem_map.1 held
      by_contra unwanted
      refine unstale p (mem_portDifferences.2 ⟨hp, fun d hd => ?_⟩) rfl
      by_contra same
      rw [Bool.not_eq_false] at same
      exact unwanted (List.mem_map.2 ⟨d, hd, (Port.same_iff.1 same).2.symm⟩)
    · obtain ⟨d, hd, rfl⟩ := List.mem_map.1 missing
      exact List.mem_map_of_mem (mem_portDifferences.1 hd).1
  · intro wanted
    obtain ⟨d, hd, rfl⟩ := List.mem_map.1 wanted
    refine ⟨?_, fun p stale same => ?_⟩
    · by_cases missing : d ∈ portDifferences desired current
      · exact .inr (List.mem_map_of_mem missing)
      · rw [mem_portDifferences] at missing
        push Not at missing
        obtain ⟨p, hp, same⟩ := missing hd
        rw [Ne, Bool.not_eq_false] at same
        exact .inl (List.mem_map.2 ⟨p, hp, (Port.same_iff.1 same).2.symm⟩)
    · obtain ⟨hp, unwanted⟩ := mem_portDifferences.1 stale
      have distinct := unwanted d hd
      rw [Port.same_iff.2 ⟨(told.named p hp).trans (orders.named d hd).symm, same.symm⟩] at distinct
      cases distinct

theorem desiredFor_wanted {p : k.Port} (hp : p ∈ current)
    (wanted : p.pair ∈ desired.map Port.pair) :
    ∃ d, desiredFor desired p = .ok d ∧ d ∈ desired ∧ d.same p = true := by
  obtain ⟨e, he, hpair⟩ := List.mem_map.1 wanted
  have same : e.same p = true :=
    Port.same_iff.2 ⟨(orders.named e he).trans (told.named p hp).symm, hpair⟩
  cases found : desired.find? (·.same p) with
  | none => exact absurd same (List.find?_eq_none.1 found e he)
  | some d =>
      have chosen : desiredFor desired p = .ok d := by rw [desiredFor, found]
      exact ⟨d, chosen, desiredFor_eq_ok chosen⟩

/-- The ports are as many as are desired. -/
def Synced (k : Kind) (name : String) (desired ports : List k.Port) (known : Known) : Prop :=
  ∃ pairs, known = ⟨pairs, none⟩ ∧ ports ≠ [] ∧ Told k name pairs ports ∧
    ∀ pair ∈ pairs, pair ∈ desired.map Port.pair

/-- The described ports are the desired ones as they are. -/
theorem synced_of_same (some_port : current ≠ [])
    (same : ((portDifferences desired current).isEmpty &&
      (portDifferences current desired).isEmpty) = true) :
    Synced k name desired current ⟨pairs, none⟩ := by
  obtain ⟨missing, stale⟩ : portDifferences desired current = [] ∧
      portDifferences current desired = [] := by simpa using same
  have mem := mem_syncedPairs orders told
  rw [missing, stale] at mem
  exact ⟨pairs, rfl, some_port, told, fun pair held => (mem pair).1 (by simpa using held)⟩

/-- The description after the missing ports are registered and the stale ones deleted. -/
theorem answers_describeSynced (hnew : desired ≠ []) :
    (describeExisting k name).Answers (minding k name scope) (Synced k name desired)
      ⟨(portDifferences current desired).foldl (fun pairs p => pairs.filter (· ≠ p.pair))
        (pairs ++ (portDifferences desired current).map Port.pair), none⟩ := by
  have mem := mem_syncedPairs orders told
  obtain ⟨d, rest, rfl⟩ := List.exists_cons_of_ne_nil hnew
  have some_pair := List.ne_nil_of_mem ((mem d.pair).2 List.mem_cons_self)
  refine (answers_describeExisting some_pair).imp fun ports known found => ?_
  obtain ⟨same, some_port, described⟩ := found
  exact ⟨_, same, some_port, described, fun pair => (mem pair).1⟩

omit told in
/-- Missing ports are registered, and checked from then on. -/
theorem answers_registerMissing (missing : List k.Port) (wanted : ∀ p ∈ missing, p ∈ desired)
    (pairs : List PortPair) :
    (Job.forEach missing fun p => do
      registerPort name p
      configureHealthCheck p).Answers (minding k name scope)
        (fun _ known => known = ⟨pairs ++ missing.map Port.pair, none⟩) ⟨pairs, none⟩ := by
  rw [← foldl_registered]
  refine .forEach (fun p hp pairs => ?_) pairs
  have hd := wanted p hp
  have aims := aims_port (orders.named p hd) (orders.covered p hd)
  refine (answers_registerPort aims ⟨orders.registers p hd, rfl, orders.named p hd⟩
    (orders.named p hd) pairs).bind fun _ known same => ?_
  subst same
  exact tends_configureHealthCheck aims ⟨orders.checks p hd, trivial⟩

/-- A step for every described port, with what is desired of it. -/
theorem tends_eachDesired {step : k.Port → k.Port → Job Unit}
    (wanted : ∀ pair ∈ pairs, pair ∈ desired.map Port.pair)
    (steps : ∀ d p, d ∈ desired → p ∈ current → d.same p = true →
      (step d p).Tends (minding k name scope) pairs) :
    (Job.forEach current fun p => do step (← Job.ofExcept (desiredFor desired p)) p).Tends
      (minding k name scope) pairs := by
  refine .forEach fun p hp => ?_
  have held : p.pair ∈ pairs := told.pairs ▸ List.mem_map_of_mem hp
  obtain ⟨d, chosen, hd, same⟩ := desiredFor_wanted orders told hp (wanted _ held)
  rw [chosen]
  exact steps d p hd hp same

end Ports

section Described

variable (told : Told k name pairs current) (covered : ∀ pair ∈ pairs, pair ∈ scope)

include told covered

theorem aims_described (hp : p ∈ current) : (minding k name scope).aims (.ofPort p) := by
  refine aims_port (told.named p hp) (covered _ ?_)
  rw [← told.pairs]
  exact List.mem_map_of_mem hp

theorem answers_deleteDescribed (hp : p ∈ current) (pairs : List PortPair) :
    (deletePort name p).Answers (minding k name scope)
      (fun _ known => known = ⟨pairs.filter (· ≠ p.pair), none⟩) ⟨pairs, none⟩ :=
  answers_deletePort (aims_described told covered hp)
    ⟨by cases k <;> trivial, rfl, told.named p hp⟩ (told.named p hp) pairs

end Described

theorem statusOf_eq {ports : List k.Port} (some_port : ports ≠ []) (name : String) :
    ∃ status, statusOf name ports = .ok status := by
  obtain ⟨first, rest, rfl⟩ := List.exists_cons_of_ne_nil some_port
  exact ⟨_, rfl⟩

namespace L4

variable {desired current : List L4Port} {d p : L4Port}
  (orders : Orders .l4 name scope desired)

include orders

theorem aims_desired (hd : d ∈ desired) : (minding .l4 name scope).aims (.ofPort d) :=
  aims_port (k := .l4) (orders.named d hd) (orders.covered d hd)

theorem tends_configureNewPort (hd : d ∈ desired) :
    (configureNewPort d).Tends (minding .l4 name scope) pairs := by
  have aims := aims_desired orders hd
  exact (tends_configureHealthCheck (k := .l4) aims ⟨orders.checks d hd, trivial⟩).seq fun _ =>
    Job.Tends.optional (fun _ => tends_registerBackends (k := .l4) aims ⟨trivial, trivial⟩)
      (tends_setFilter (k := .l4) aims (fun _ => ⟨trivial, trivial⟩) [])

theorem answers_create (hnew : desired ≠ []) :
    (create name desired).Answers (minding .l4 name scope)
      (fun _ known => known = ⟨desired.map Port.pair, none⟩) ⟨pairs, none⟩ := by
  obtain ⟨first, rest, rfl⟩ := List.exists_cons_of_ne_nil hnew
  have hfirst : first ∈ first :: rest := List.mem_cons_self
  refine (answers_createPort (k := .l4) (aims_desired orders hfirst)
    ⟨trivial, rfl, orders.named first hfirst⟩ (orders.named first hfirst)).bind
      fun _ known same => ?_
  subst same
  refine (tends_configureNewPort orders hfirst).seq fun _ => ?_
  rw [List.map_cons, ← List.singleton_append, ← foldl_registered]
  refine .forEach (fun p hp pairs => ?_) _
  have hd : p ∈ first :: rest := .tail first hp
  refine (answers_registerPort (k := .l4) (aims_desired orders hd)
    ⟨trivial, rfl, orders.named p hd⟩ (orders.named p hd) pairs).bind fun _ known same => ?_
  subst same
  exact tends_configureNewPort orders hd

theorem answers_syncPorts (hnew : desired ≠ []) (told : Told .l4 name pairs current)
    (some_port : current ≠ []) (covered : ∀ pair ∈ pairs, pair ∈ scope) :
    (syncPorts name desired current).Answers (minding .l4 name scope)
      (Synced .l4 name desired) ⟨pairs, none⟩ := by
  unfold syncPorts
  dsimp only
  split
  · next same => exact synced_of_same orders told some_port same
  · refine (answers_registerMissing orders _ (fun p hp => (mem_portDifferences.1 hp).1) pairs).bind
      fun _ known registered => ?_
    subst registered
    refine (Job.Answers.forEach (fun p hp pairs => answers_deleteDescribed (k := .l4) told covered
      (mem_portDifferences.1 hp).1 pairs) _).bind fun _ known deleted => ?_
    subst deleted
    exact answers_describeSynced orders told hnew

theorem tends_syncPort (hd : d ∈ desired) (same : d.same p = true) :
    (syncPort d p).Tends (minding .l4 name scope) pairs := by
  have aims := aims_desired orders hd
  have shown : (minding .l4 name scope).aims (.ofPort p) := Target.ofPort_of_same same ▸ aims
  refine (tends_updateSettings (k := .l4) shown ⟨trivial, trivial⟩ same).seq fun _ => ?_
  refine Job.Tends.optional (fun _ => ?check) <| Job.Tends.optional (fun _ => ?join) <|
    Job.Tends.optional (fun _ => ?leave) <|
      tends_setFilter (k := .l4) aims (fun _ => ⟨trivial, trivial⟩) p.filters
  case check => exact tends_configureHealthCheck (k := .l4) aims ⟨orders.checks d hd, trivial⟩
  case join => exact tends_registerBackends (k := .l4) shown ⟨trivial, trivial⟩
  case leave => exact tends_deregisterBackends shown ⟨trivial, trivial⟩

theorem answers_converge (hnew : desired ≠ []) (covered : ∀ pair ∈ pairs, pair ∈ scope) :
    (converge name desired).Answers (minding .l4 name scope) (fun _ _ => True) ⟨pairs, none⟩ := by
  refine (answers_describe (k := .l4) pairs).bind fun answer known found => ?_
  obtain ⟨rfl, found⟩ := found
  cases answer with
  | none =>
      refine (answers_create orders hnew).bind fun _ known created => ?_
      subst created
      refine (answers_describeExisting (k := .l4) (by simpa using hnew)).bind
        fun ports known described => ?_
      obtain ⟨status, hstatus⟩ := statusOf_eq (k := .l4) described.2.1 name
      exact .ofExcept hstatus trivial
  | some current =>
      obtain ⟨some_port, told⟩ := found
      refine (answers_syncPorts orders hnew told some_port covered).bind
        fun ports known synced => ?_
      obtain ⟨pairs, rfl, some_port, told, wanted⟩ := synced
      obtain ⟨status, hstatus⟩ := statusOf_eq (k := .l4) some_port name
      exact (tends_eachDesired orders told wanted fun d p hd _ same =>
        tends_syncPort orders hd same).seq fun _ => .ofExcept hstatus trivial

omit orders in
theorem answers_delete (name : String) (covered : ∀ pair ∈ pairs, pair ∈ scope) :
    (delete name).Answers (minding .l4 name scope) (fun _ _ => True) ⟨pairs, none⟩ := by
  refine (answers_describe (k := .l4) pairs).bind fun answer known found => ?_
  obtain ⟨rfl, found⟩ := found
  cases answer with
  | none => trivial
  | some ports =>
      exact (Job.Answers.forEach (fun p hp pairs =>
        answers_deleteDescribed (k := .l4) found.2 covered hp pairs) pairs).imp
          fun _ _ _ => trivial

end L4

section Groups

variable {target : Target}

theorem asks_minding (aims : (minding k name scope).aims (.ofPort p)) :
    (minding k name scope).LetsAsk (.ofPort p) :=
  ⟨aims, nofun, fun _ => ⟨trivial, trivial⟩, fun _ _ => ⟨trivial, trivial⟩,
    fun _ _ => ⟨trivial, trivial⟩, fun _ => ⟨trivial, trivial⟩⟩

variable (asks : duty.LetsAsk target)

include asks

theorem tends_groupsOf (backends : List Backend) :
    (groupsOf target backends).Tends duty pairs := by
  rw [groupsOf]
  split
  · rfl
  · exact (Job.Tends.remote (asks.groupsOf _) asks.aims asks.paired (fun _ => rfl)
      fun _ => rfl).seq fun _ => rfl

/-- The groups of instances that were just let go. -/
theorem answers_groupsOfLeaving {backends : List Backend} (some_backend : backends ≠ []) :
    (groupsOfLeaving target backends).Answers duty (fun _ known => known = ⟨pairs, none⟩)
      ⟨pairs, some (instanceIds backends)⟩ := by
  rw [groupsOfLeaving]
  rw [if_neg (by simpa using some_backend)]
  have asked : (Job.remoteUnless .instanceNotFound .api target
      (.groupsOf (instanceIds backends))).Answers duty (fun _ known => known = ⟨pairs, none⟩)
        ⟨pairs, some (instanceIds backends)⟩ :=
    .remoteUnless (asks.groupsOf _) asks.aims asks.paired (fun code => by simp [Call.harmless])
      (fun _ _ => rfl) fun _ _ _ => rfl
  exact asked.bind fun _ _ same => same

theorem tends_grant (group : String) (rule : Rule) :
    (grant target group rule).Tends duty pairs :=
  (Job.Tends.remoteUnless (asks.authorize group rule) asks.aims asks.paired (fun _ => rfl)
    fun _ => rfl).seq fun answer => by cases answer <;> rfl

theorem tends_withdraw (group : String) (rule : Rule) :
    (withdraw target group rule).Tends duty pairs :=
  (Job.Tends.remoteUnless (asks.revoke group rule) asks.aims asks.paired (fun _ => rfl)
    fun _ => rfl).seq fun answer => by cases answer <;> rfl

theorem tends_awaitApplied (group : String) : (awaitApplied target group).Tends duty pairs :=
  .remote (asks.awaits group) asks.aims asks.paired (fun _ => rfl) fun _ => rfl

theorem tends_authorize (groups : List String) (rules : List Rule) :
    (authorize target groups rules).Tends duty pairs := by
  rw [authorize]
  split
  · rfl
  · exact .forEach fun group _ => (Job.Tends.forEach fun rule _ =>
      tends_grant asks group rule).seq fun _ => tends_awaitApplied asks group

theorem tends_revoke (groups : List String) (rules : List Rule) (retained : List Grant) :
    (revoke target groups rules retained).Tends duty pairs := by
  refine .forEach fun group _ => ?_
  dsimp only
  split
  · rfl
  · exact (Job.Tends.forEach fun rule _ => tends_withdraw asks group rule).seq fun _ =>
      tends_awaitApplied asks group

theorem tends_grantsOf {topology : ElasticPort} {ports : List ElasticPort}
    (derivable : ∀ e ∈ ports, ∃ rules, deriveRules (placed e topology) = .ok rules) :
    (grantsOf target topology ports).Tends duty pairs := by
  induction ports with
  | nil => rfl
  | cons e rest ih =>
      obtain ⟨he, hrest⟩ := List.forall_mem_cons.1 derivable
      exact (Job.Tends.ofExcept he).seq fun _ => (tends_groupsOf asks _).seq fun _ =>
        (ih hrest).seq fun _ => rfl

end Groups

theorem tends_retainedGrants {desired : List ElasticPort} {topology except : ElasticPort}
    (asks : duty.LetsAsk (.ofPort except)) (routed : Routed desired topology) :
    (retainedGrants desired topology except).Tends duty pairs :=
  tends_grantsOf asks fun e he => routed.placed e (List.mem_filter.1 he).1

namespace Elastic

variable {desired current : List ElasticPort} {d p view : ElasticPort} {retained : List Grant}

theorem tends_registerTargets {backends : List Backend} (asks : duty.LetsAsk (.ofPort view))
    (allowed : duty.allowed (.registerBackends .elastic view backends))
    (derivable : ∃ rules, deriveRules view = .ok rules) :
    (registerTargets view backends).Tends duty pairs :=
  (tends_registerBackends (k := .elastic) asks.aims allowed).seq fun _ =>
    (Job.Tends.ofExcept derivable).seq fun _ => (tends_groupsOf asks backends).seq fun groups =>
      tends_authorize asks groups _

theorem tends_deregisterTargets {backends : List Backend} (asks : duty.LetsAsk (.ofPort view))
    (allowed : duty.allowed (.deregisterBackends .elastic view backends))
    (granted : ∃ rules, grantedRules view = .ok rules) (some_backend : backends ≠ [])
    (remaining : List Backend) (retained : List Grant) :
    (deregisterTargets view backends remaining retained).Tends duty pairs := by
  obtain ⟨rules, hrules⟩ := granted
  have deregisters : (deregisterLeaving view backends).Answers duty
      (fun _ known => known = ⟨pairs, some (instanceIds backends)⟩) ⟨pairs, none⟩ := by
    have asked : (Job.remoteUnless .instanceNotFound .api (.ofPort view)
        (.deregisterBackends .elastic view backends)).Answers duty
          (fun _ known => known = ⟨pairs, some (instanceIds backends)⟩) ⟨pairs, none⟩ :=
      .remoteUnless allowed asks.aims rfl (fun _ => rfl) (fun _ _ => rfl) fun _ _ _ => rfl
    refine asked.bind fun answer known same => ?_
    cases answer with
    | none => exact same
    | some value => exact same
  refine deregisters.bind fun _ known left => ?_
  subst left
  rw [hrules]
  show (groupsOfLeaving (.ofPort view) backends >>= _).Answers duty _ _
  refine (answers_groupsOfLeaving asks some_backend).bind fun answer known found => ?_
  subst found
  cases answer with
  | none => rfl
  | some groups =>
      exact (tends_groupsOf asks remaining).seq fun used => tends_revoke asks _ rules retained

theorem tends_refreshRules (asks : duty.LetsAsk (.ofPort view))
    (granted : ∃ rules, grantedRules p = .ok rules)
    (derivable : ∃ rules, deriveRules view = .ok rules) :
    (refreshRules p view retained).Tends duty pairs := by
  refine (Job.Tends.ofExcept granted).seq fun old => (Job.Tends.ofExcept derivable).seq
    fun new => ?_
  dsimp only
  split
  · rfl
  · exact (tends_groupsOf asks _).seq fun groups => (tends_authorize asks groups _).seq fun _ =>
      tends_revoke asks groups _ retained

section Ports

variable (orders : Orders .elastic name scope desired)

include orders

theorem asks_desired (hd : d ∈ desired) :
    (minding .elastic name scope).LetsAsk (.ofPort d) :=
  asks_minding (aims_port (k := .elastic) (orders.named d hd) (orders.covered d hd))

theorem tends_configureNewPort (hd : d ∈ desired) (same : d.same p = true)
    (routed : Routed desired p) :
    (configureNewPort name d p).Answers (minding .elastic name scope)
      (fun _ known => known = ⟨pairs, none⟩) ⟨pairs, none⟩ := by
  have target : Target.ofPort p = .ofPort d := (Target.ofPort_of_same same).symm
  have asks := asks_desired orders hd
  have besides : ((minding .elastic name scope).beside (.ofPort d)).LetsAsk (.ofPort d) :=
    asks.beside
  have named : Target.port name p.pair = .ofPort d := by
    rw [← target, Target.ofPort, ← (Port.same_iff.1 same).1, orders.named d hd]
  rw [configureNewPort]
  rw [named]
  refine .group asks.aims fun job hjob => ?_
  simp only [List.mem_cons, List.not_mem_nil, or_false] at hjob
  obtain rfl | rfl | rfl := hjob
  · exact tends_configureHealthCheck (k := .elastic) besides.aims
      ⟨⟨orders.checks d hd, trivial⟩, fun _ => rfl⟩
  · split
    · rfl
    · have view : Target.ofPort (ruleView d p) = .ofPort d := target
      exact tends_registerTargets (view ▸ besides) ⟨⟨trivial, trivial⟩, fun _ => rfl⟩
        (placed_of_same same ▸ routed.placed d hd)
  · exact tends_setFilter (k := .elastic) besides.aims
      (fun _ => ⟨⟨trivial, trivial⟩, fun _ => rfl⟩) []

theorem answers_createPorts (hnew : desired ≠ []) :
    (createPorts name desired).Answers (minding .elastic name scope)
      (fun _ known => known = ⟨desired.map Port.pair, none⟩) ⟨pairs, none⟩ := by
  obtain ⟨first, rest, rfl⟩ := List.exists_cons_of_ne_nil hnew
  have hfirst : first ∈ first :: rest := List.mem_cons_self
  refine (answers_createPort (k := .elastic) (asks_desired orders hfirst).aims
    ⟨orders.creates first hfirst, rfl, orders.named first hfirst⟩
    (orders.named first hfirst)).bind fun _ known same => ?_
  subst same
  rw [List.map_cons, ← List.singleton_append, ← foldl_registered]
  refine .forEach (fun p hp pairs => ?_) _
  have hd : p ∈ first :: rest := .tail first hp
  exact answers_registerPort (k := .elastic) (asks_desired orders hd).aims
    ⟨orders.registers p hd, rfl, orders.named p hd⟩ (orders.named p hd) pairs

theorem routed_described (told : Told .elastic name pairs current) (hp : p ∈ current) :
    Routed desired p :=
  (told.routable p hp : Routable p).routed orders.checks

theorem answers_create (hnew : desired ≠ []) :
    (create name desired).Answers (minding .elastic name scope)
      (fun ports _ => ports ≠ []) ⟨pairs, none⟩ := by
  refine (Program.Answers.ofJob (answers_createPorts orders hnew)).bind fun _ known created => ?_
  subst created
  refine (Program.Answers.ofJob (answers_describeExisting (k := .elastic)
    (by simpa using hnew))).bind fun current known described => ?_
  obtain ⟨rfl, some_port, told⟩ := described
  refine Program.Answers.bind (.forEach fun p hp => ?_) fun _ _ _ => some_port
  have held : p.pair ∈ desired.map Port.pair := told.pairs ▸ List.mem_map_of_mem hp
  obtain ⟨d, chosen, hd, same⟩ := desiredFor_wanted orders told hp held
  rw [chosen]
  exact tends_configureNewPort orders hd same (routed_described orders told hp)

theorem answers_deleteStale (told : Told .elastic name pairs current)
    (covered : ∀ pair ∈ pairs, pair ∈ scope) (hp : p ∈ current) (left : List PortPair) :
    (deleteStale name desired p).Answers (minding .elastic name scope)
      (fun _ known => known = ⟨left.filter (· ≠ p.pair), none⟩) ⟨left, none⟩ := by
  have routed := routed_described orders told hp
  have asks := asks_minding (aims_described told covered hp)
  have deletes := answers_deleteDescribed (k := .elastic) told covered hp left
  rw [deleteStale]
  split
  · exact deletes
  · next some_backends =>
    exact (tends_retainedGrants asks routed).seq fun retained =>
      (tends_deregisterTargets asks ⟨trivial, trivial⟩ routed.granted (by simpa using some_backends)
        [] retained).seq fun _ => deletes

theorem answers_syncPorts (hnew : desired ≠ []) (told : Told .elastic name pairs current)
    (some_port : current ≠ []) (covered : ∀ pair ∈ pairs, pair ∈ scope) :
    (syncPorts name desired current).Answers (minding .elastic name scope)
      (Synced .elastic name desired) ⟨pairs, none⟩ := by
  unfold syncPorts
  dsimp only
  split
  · next same => exact synced_of_same orders told some_port same
  · refine (answers_registerMissing orders _ (fun p hp => (mem_portDifferences.1 hp).1) pairs).bind
      fun _ known registered => ?_
    subst registered
    refine (Job.Answers.forEach (fun p hp left => answers_deleteStale orders told covered
      (mem_portDifferences.1 hp).1 left) _).bind fun _ known deleted => ?_
    subst deleted
    exact answers_describeSynced orders told hnew

theorem tends_syncPort (hd : d ∈ desired) (same : d.same p = true) (routed : Routed desired p) :
    (syncPort desired d p).Tends (minding .elastic name scope) pairs := by
  have asks := asks_desired orders hd
  have shown : (minding .elastic name scope).LetsAsk (.ofPort p) :=
    Target.ofPort_of_same same ▸ asks
  have viewed : (minding .elastic name scope).LetsAsk (.ofPort (ruleView d p)) := shown
  have derivable : ∃ rules, deriveRules (ruleView d p) = .ok rules :=
    placed_of_same same ▸ routed.placed d hd
  have retains : (retention desired d p).Tends (minding .elastic name scope) pairs := by
    rw [retention]
    split
    · exact tends_retainedGrants asks routed
    · rfl
  have checks (retained : List Grant) :
      (changeCheck d p retained).Tends (minding .elastic name scope) pairs := by
    rw [changeCheck]
    split
    · refine (tends_configureHealthCheck (k := .elastic) asks.aims
        ⟨orders.checks d hd, trivial⟩).seq fun _ => ?_
      split
      · rfl
      · exact tends_refreshRules viewed routed.granted derivable
    · rfl
  have joins : (join d p).Tends (minding .elastic name scope) pairs := by
    rw [join]
    split
    · rfl
    · exact tends_registerTargets viewed ⟨trivial, trivial⟩ derivable
  have leaves (retained : List Grant) :
      (leave d p retained).Tends (minding .elastic name scope) pairs := by
    rw [leave]
    split
    · rfl
    · next some_leave =>
      exact tends_deregisterTargets viewed ⟨trivial, trivial⟩ (grantedRules_ok derivable)
        (by simpa using some_leave) d.backends retained
  rw [syncPort_eq]
  exact (tends_updateSettings (k := .elastic) shown.aims ⟨trivial, trivial⟩ same).seq fun _ =>
    retains.seq fun retained => (checks retained).seq fun _ => joins.seq fun _ =>
      (leaves retained).seq fun _ =>
        tends_setFilter (k := .elastic) asks.aims (fun _ => ⟨trivial, trivial⟩) p.filters

theorem answers_converge (hnew : desired ≠ []) (covered : ∀ pair ∈ pairs, pair ∈ scope) :
    (converge name desired).Answers (minding .elastic name scope) (fun _ _ => True)
      ⟨pairs, none⟩ := by
  refine (Program.Answers.ofJob (answers_describe (k := .elastic) pairs)).bind
    fun answer known found => ?_
  obtain ⟨rfl, found⟩ := found
  cases answer with
  | none =>
      refine (answers_create orders hnew).bind fun ports known some_port => ?_
      obtain ⟨status, hstatus⟩ := statusOf_eq (k := .elastic) some_port name
      exact .ofExcept hstatus trivial
  | some current =>
      obtain ⟨some_port, told⟩ := found
      refine (Program.Answers.ofJob (answers_syncPorts orders hnew told some_port covered)).bind
        fun ports known synced => ?_
      obtain ⟨pairs, rfl, some_port, told, wanted⟩ := synced
      obtain ⟨status, hstatus⟩ := statusOf_eq (k := .elastic) some_port name
      refine Program.Answers.bind (.ofJob (tends_eachDesired orders told wanted
        fun d p hd hp same => tends_syncPort orders hd same (routed_described orders told hp)))
        fun _ known same => ?_
      exact .ofExcept hstatus trivial

end Ports

theorem answers_dropPort (told : Told .elastic name pairs current)
    (covered : ∀ pair ∈ pairs, pair ∈ scope) (hp : p ∈ current) (left : List PortPair) :
    (dropPort name p).Answers (minding .elastic name scope)
      (fun _ known => known = ⟨left.filter (· ≠ p.pair), none⟩) ⟨left, none⟩ := by
  have routable : Routable p := told.routable p hp
  exact Job.Tends.optional (fun some_backends => tends_deregisterTargets
    (asks_minding (aims_described told covered hp)) ⟨trivial, trivial⟩ routable.granted
    (by simpa using some_backends) [] [])
    (answers_deleteDescribed (k := .elastic) told covered hp left)

theorem answers_delete (name : String) (covered : ∀ pair ∈ pairs, pair ∈ scope) :
    (delete name).Answers (minding .elastic name scope) (fun _ _ => True) ⟨pairs, none⟩ := by
  refine (answers_describe (k := .elastic) pairs).bind fun answer known found => ?_
  obtain ⟨rfl, found⟩ := found
  cases answer with
  | none => trivial
  | some ports =>
      exact (Job.Answers.forEach (fun p hp left =>
        answers_dropPort found.2 covered hp left) pairs).imp fun _ _ _ => trivial

end Elastic

/-- The ports that a service wants are in order. -/
theorem orders_of_service {service : Service} {backends : List Backend} {desired : List k.Port}
    (wanted : service.desired backends k = .ok desired)
    (covered : ∀ d ∈ desired, d.pair ∈ scope) :
    Orders k service.balancerName scope desired := by
  have named := service.named_desired wanted
  cases k with
  | l4 => exact ⟨named, covered, fun _ _ => trivial, fun _ _ => trivial, fun _ _ => trivial⟩
  | elastic =>
      have ofService := ofService_desiredElastic wanted
      exact ⟨named, covered, fun d hd => ⟨ofService.protocol d hd, ofService.wired d hd⟩,
        ofService.protocol, ofService.probed⟩

/-- The failure of a reconciliation is passed on. -/
theorem simulate_reporting (config : Config) (name : String) (program : Program Status)
    (w : World) :
    ((reporting name program).simulate config w).1 = (program.simulate config w).1 ∧
      ((reporting name program).simulate config w).2.calls =
        (program.simulate config w).2.calls := by
  rw [reporting, Program.simulate_handle]
  split
  · next h => rw [h]; exact ⟨rfl, rfl⟩
  · next h => rw [h]; exact ⟨rfl, rfl⟩

end Reconcile

/-- Operations on services leave the balancers in order. -/
theorem Administered.stocked {inv : Inventory} (h : Administered inv) (k : Kind) :
    inv.Stocked k := by
  have keeps : (⟨fun _ => True, fun _ _ => True⟩ : Contract).Keeps (·.inventory.Stocked k) :=
    Contract.keeps_of_apply (·.Stocked k)
      (fun _ happly stocked => stocked.changes (Inventory.changes_apply happly))
      fun _ _ _ => trivial
  induction h with
  | empty => exact Inventory.stocked_of_empty (by cases k <;> rfl)
  | serve request config _ ih =>
      exact ((Program.Within.unbound request.program).simulate
        (.start ih fun _ _ _ _ _ => trivial) keeps config).good
  | lookUp service config _ ih =>
      exact ((Program.Within.unbound service.status).simulate
        (.start ih fun _ _ _ _ _ => trivial) keeps config).good
  | regroup groups _ ih => exact ih.of_table (by cases k <;> rfl)

/-- A run fails just if a call of it has, which is the last one to be settled, and the error says
which call and why. All calls that were issued are settled, unless they were dropped with a group
that failed. -/
structure Program.FailsFast {α : Type} (aims : Target → Prop) (config : Config) (w : World)
    (program : Program α) : Prop where
  fails : (∃ e, (program.simulate config w).1 = .error e) ↔
    Settlement.failures none (program.settlements config w) ≠ []
  explained : ∀ e, (program.simulate config w).1 = .error e →
    ∃ s, Settlement.failures none (program.settlements config w) = [s] ∧
      (program.settlements config w).getLast? = some s ∧ s.Explains aims e
  settled : Settlement.Covers w.calls (program.simulate config w).2.calls
    (program.settlements config w) (program.simulate config w).1

theorem Program.failsFast_of_accounts {α : Type} {aims : Target → Prop} {config : Config}
    {w : World} {program : Program α}
    (accounts : Settlement.Accounts aims none (program.settlements config w)
      (program.simulate config w).1)
    (covers : Settlement.Covers w.calls (program.simulate config w).2.calls
      (program.settlements config w) (program.simulate config w).1) :
    program.FailsFast aims config w := by
  refine ⟨?_, fun e he => ?_, covers⟩
  · cases result : (program.simulate config w).1 with
    | ok value =>
        rw [result] at accounts
        exact iff_of_false (by simp) (not_not_intro accounts)
    | error e =>
        rw [result] at accounts
        obtain ⟨s, failed, -⟩ := accounts
        exact iff_of_true ⟨e, rfl⟩ (by simp [failed])
  · rw [he] at accounts
    exact accounts

namespace Reconcile

section Runs

variable {k : Kind} {name : String} {scope pairs : List PortPair} {desired : List k.Port}
  {w : World} (minded : World.Minded k name ⟨pairs, none⟩ w)
  (covered : ∀ pair ∈ pairs, pair ∈ scope) (config : Config)

include minded covered

theorem reconcile_failsFast (orders : Orders k name scope desired) (hnew : desired ≠ [])
    (honest : ∀ s ∈ (reconcile name k desired).settlements config w, s.Honest k name) :
    (reconcile name k desired).FailsFast (Target.Among name scope) config w := by
  obtain ⟨program, hprogram, answers⟩ : ∃ program,
      reconcile name k desired = reporting name program ∧
        program.Answers (minding k name scope) (fun _ _ => True) ⟨pairs, none⟩ := by
    cases k with
    | l4 =>
        exact ⟨_, if_neg (by simpa using hnew), .ofJob (L4.answers_converge orders hnew covered)⟩
    | elastic =>
        exact ⟨_, if_neg (by simpa using hnew), Elastic.answers_converge orders hnew covered⟩
  rw [hprogram, Program.settlements_reporting] at honest
  obtain ⟨accounts, covers⟩ := answers.simulate minded config honest
  obtain ⟨result, calls⟩ := simulate_reporting config name program w
  rw [hprogram]
  apply Program.failsFast_of_accounts
  · rwa [Program.settlements_reporting, result]
  · rwa [Program.settlements_reporting, result, calls]

theorem delete_failsFast
    (honest : ∀ s ∈ (Program.ofJob (delete name k)).settlements config w, s.Honest k name) :
    (Program.ofJob (delete name k)).FailsFast (Target.Among name scope) config w := by
  have answers : (delete name k).Answers (minding k name scope) (fun _ _ => True)
      ⟨pairs, none⟩ := by
    cases k with
    | l4 => exact L4.answers_delete name covered
    | elastic => exact Elastic.answers_delete name covered
  obtain ⟨accounts, covers⟩ := (Program.Answers.ofJob answers).simulate minded config honest
  exact Program.failsFast_of_accounts accounts covers

end Runs

end Reconcile

open Reconcile in
/-- Whatever becomes of the calls of a reconciliation or of a deletion, as long as the cloud does
not tell what is not so: it fails just if a call has, at once, and says which and why. What it is
said to have been made for is the port that its step is about. A balancer is not reconciled to no
ports at all. -/
theorem failures_attributed {w : World} (reachable : Administered w.cloud.inventory)
    {service : Service} {backends : List Backend} {k : Kind} {desired : List k.Port}
    (wanted : service.desired backends k = .ok desired) (truthful : w.script.Truthful)
    (config : Config) :
    (desired ≠ [] →
      (∀ s ∈ (reconcile service.balancerName k desired).settlements config w,
        s.Honest k service.balancerName) →
      (reconcile service.balancerName k desired).FailsFast (Target.Among service.balancerName
        ((w.cloud.inventory.ports k service.balancerName).map Port.pair ++
          desired.map Port.pair)) config w) ∧
    (desired = [] →
      (reconcile service.balancerName k desired).simulate config w =
        (.error (.noPorts service.balancerName), w)) ∧
    (∀ name, (∀ s ∈ (Program.ofJob (delete name k)).settlements config w, s.Honest k name) →
      (Program.ofJob (delete name k)).FailsFast
        (Target.Among name ((w.cloud.inventory.ports k name).map Port.pair)) config w) ∧
    ∀ name, PortByPort name := by
  have minded (name : String) :
      World.Minded k name ⟨(w.cloud.inventory.ports k name).map Port.pair, none⟩ w :=
    ⟨truthful, reachable.provisioned, reachable.stocked k, rfl⟩
  refine ⟨fun hnew honest => ?reconciled, fun none => ?refused, fun name honest => ?deleted,
    portByPort⟩
  case reconciled =>
    exact reconcile_failsFast (minded _) (fun _ => List.mem_append_left _) config
      (orders_of_service wanted fun d hd => List.mem_append_right _ (List.mem_map_of_mem hd))
      hnew honest
  case refused =>
    subst none
    cases k <;> rfl
  case deleted => exact delete_failsFast (minded name) (fun _ => id) config honest

namespace Sample

/-- A group may not be opened to the sample balancer, which has its port already. The error says so,
wrapped as one of the group that configures the port. -/
theorem failures_attributed_refused :
    let world := refusing .authorize inventory
    let reconciled := (Reconcile.reconcile service.balancerName .elastic desired).simulate {} world
    reconciled.1 = .error (.sideEffect (.port "web" ⟨80, 30080⟩)
      (.remote .authorize (.port "web" ⟨80, 30080⟩)
        ⟨.other "Server.InternalError", "try again"⟩)) ∧
    (Reconcile.reconcile service.balancerName .elastic desired).FailsFast
      (Target.Among service.balancerName
        ((world.cloud.inventory.ports .elastic service.balancerName).map Port.pair ++
          desired.map Port.pair)) {} world ∧
    (Program.ofJob (Reconcile.delete service.balancerName .elastic)).FailsFast
      (Target.Among service.balancerName
        ((world.cloud.inventory.ports .elastic service.balancerName).map Port.pair)) {} world := by
  have attributed := failures_attributed (w := refusing .authorize inventory)
    administered_inventory (k := .elastic) desiredElastic_service
    (truthful_refusing .authorize inventory) {}
  exact ⟨by decide +kernel, attributed.1 (by decide +kernel) (by decide +kernel),
    attributed.2.2.1 service.balancerName (by decide +kernel)⟩

/-- A service without ports that can be used. -/
def portless : Service where
  uid := "web"

/-- The balancer of a service without ports is not reconciled, although no call has failed: none is
made. -/
theorem no_ports_refused :
    portless.desired [] .l4 = .ok [] ∧
      ¬ ((∃ e, ((Reconcile.reconcile portless.balancerName .l4 []).simulate {} {}).1 = .error e) ↔
        Settlement.failures none
          ((Reconcile.reconcile portless.balancerName .l4 []).settlements {} {}) ≠ []) := by
  refine ⟨by decide +kernel, fun due => ?_⟩
  exact due.1 ⟨_, rfl⟩ rfl

end Sample

end CloudBalancer
