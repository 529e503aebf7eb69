import CloudBalancer.Proofs.Declarations
import CloudBalancer.Proofs.Steps
import CloudBalancer.Proofs.TargetGrammar

/-!
When the rules of a port can be derived. The health check of a desired port names a probe, and its
interfaces are one, or two of which one carries no VIP, before and after they get their addresses.
So derivation fails for no port that was ever desired, unless its health check is not configured.
-/

namespace CloudBalancer

theorem Probe.ofTarget_tcp (port : UInt16) :
    Probe.ofTarget s!"{tcp}:{port}" = .ok ⟨tcp, some port⟩ :=
  ofTarget_of_spells (spells_printed (by decide) (by decide) port)

/-- The health check of the port names a probe. -/
def Probed (p : ElasticPort) : Prop :=
  ∃ probe, Probe.ofTarget p.healthCheck.target = .ok probe

/-- One interface, or two of which one has no VIP. -/
def Wired (interfaces : List NetworkInterface) : Prop :=
  interfaces.length = 1 ∨
    interfaces.length = 2 ∧ ∃ interface ∈ interfaces, interface.isVipNetwork = false

/-- The rule is one of those for the port. -/
def Derives (p : ElasticPort) (rule : Rule) : Prop :=
  ∃ rules, deriveRules p = .ok rules ∧ rule ∈ rules

theorem deriveRules_ok {p : ElasticPort} (probed : Probed p)
    (wired : Wired p.attachment.interfaces) :
    ∃ rules, deriveRules p = .ok rules := by
  obtain ⟨probe, hprobe⟩ := probed
  simp only [deriveRules, hprobe, bind, Except.bind]
  rcases hinterfaces : p.attachment.interfaces with _ | ⟨first, _ | ⟨second, _ | ⟨third, rest⟩⟩⟩
  · simp [Wired, hinterfaces] at wired
  · exact ⟨_, rfl⟩
  · cases hfind : [first, second].find? (!·.isVipNetwork) with
    | some interface =>
        simp only [hfind]
        exact ⟨_, rfl⟩
    | none =>
        obtain ⟨interface, hmem, hvip⟩ : ∃ i ∈ [first, second], i.isVipNetwork = false := by
          simpa [Wired, hinterfaces] using wired
        have := List.find?_eq_none.1 hfind interface hmem
        simp [hvip] at this
  · simp [Wired, hinterfaces] at wired

/-- What the rules of a port depend on. -/
theorem deriveRules_congr {a b : ElasticPort} (name : a.name = b.name) (pair : a.pair = b.pair)
    (target : a.healthCheck.target = b.healthCheck.target) (vip : a.vip = b.vip)
    (protocol : a.attachment.protocol = b.attachment.protocol)
    (interfaces : a.attachment.interfaces = b.attachment.interfaces) :
    deriveRules a = deriveRules b := by
  simp only [deriveRules, name, pair, target, vip, protocol, interfaces]

theorem not_probed_of_blank {p : ElasticPort} (blank : p.healthCheck.target = "") : ¬ Probed p := by
  rintro ⟨probe, hprobe⟩
  rw [blank] at hprobe
  cases hprobe

theorem probed_of_derives {p : ElasticPort} {rule : Rule} (h : Derives p rule) : Probed p := by
  obtain ⟨rules, hrules, -⟩ := h
  cases hprobe : Probe.ofTarget p.healthCheck.target with
  | ok probe => exact ⟨probe, hprobe⟩
  | error e => simp [deriveRules, hprobe, bind, Except.bind] at hrules

/-- Granted rules are derived ones, a blank health check having neither. -/
theorem derives_iff_granted {p : ElasticPort} {rules : List Rule}
    (h : grantedRules p = .ok rules) (rule : Rule) : Derives p rule ↔ rule ∈ rules := by
  unfold grantedRules at h
  split at h
  · next blank =>
    cases h
    exact ⟨fun hrule => absurd (probed_of_derives hrule) (not_probed_of_blank blank), by simp⟩
  · constructor
    · rintro ⟨others, hothers, hrule⟩
      rw [h] at hothers
      cases hothers
      exact hrule
    · exact fun hrule => ⟨rules, h, hrule⟩

theorem grantedRules_ok {p : ElasticPort} (h : ∃ rules, deriveRules p = .ok rules) :
    ∃ rules, grantedRules p = .ok rules := by
  unfold grantedRules
  split
  · exact ⟨[], rfl⟩
  · exact h

theorem derives_iff {p : ElasticPort} {rules : List Rule} (h : deriveRules p = .ok rules)
    (rule : Rule) : Derives p rule ↔ rule ∈ rules := by
  constructor
  · rintro ⟨others, hothers, hrule⟩
    rw [h] at hothers
    cases hothers
    exact hrule
  · exact fun hrule => ⟨rules, h, hrule⟩

theorem Policy.probed_port (policy : Policy) (name : String) (backends : List Backend)
    (filters : List String) (attachment : Attachment) (pair : PortPair) :
    Probed (policy.port name backends filters attachment pair) := by
  show ∃ probe, Probe.ofTarget (if policy.echoChecks then icmp else _) = .ok probe
  split
  · exact ⟨⟨icmp, none⟩, rfl⟩
  · exact ⟨_, Probe.ofTarget_tcp _⟩

theorem WellAttached.wired {interfaces : List NetworkInterface}
    (attached : WellAttached interfaces) : Wired interfaces := by
  cases attached.count with
  | inl one => exact .inl one
  | inr two =>
      refine .inr ⟨two, ?_⟩
      by_contra hvip
      have hall : ∀ i ∈ interfaces, i.isVipNetwork = true := by simpa using hvip
      have one := attached.vip
      rw [List.filter_eq_self.2 hall, two] at one
      cases one

/-- The ports that a service wants of an elastic balancer. -/
structure OfService (name : String) (backends : List Backend) (desired : List ElasticPort) :
    Prop where
  named : ∀ d ∈ desired, d.name = name
  backends : ∀ d ∈ desired, d.backends = backends
  protocol : ∀ d ∈ desired, d.attachment.protocol = tcp
  wired : ∀ d ∈ desired, Wired d.attachment.interfaces
  probed : ∀ d ∈ desired, Probed d
  unique : ∀ d ∈ desired, ∀ e ∈ desired, d.pair = e.pair → d = e

theorem desiredL4_eq_ok {name : String} {backends : List Backend} {service : Service}
    {desired : List L4Port} (h : desiredL4 name backends service = .ok desired) :
    ∃ (policy : Policy) (filters : List String) (pairs : List PortPair),
      sourceFilter service = .ok filters ∧
        desired = pairs.map (policy.port name backends filters ()) := by
  obtain ⟨policy, filters, -, hfilters, -, built⟩ := desiredL4_eq_ok_iff.1 h
  exact ⟨policy, filters, _, hfilters, built⟩

/-- The ports that a service wants differ in nothing but their pairs. -/
theorem desiredElastic_eq_ok {name : String} {backends : List Backend} {service : Service}
    {desired : List ElasticPort} (h : desiredElastic name backends service = .ok desired) :
    ∃ (policy : Policy) (attachment : Attachment) (pairs : List PortPair),
      attachment.protocol = tcp ∧ Wired attachment.interfaces ∧
        desired = pairs.map (policy.port name backends [] attachment) := by
  obtain ⟨policy, -, interfaces, -, built⟩ := desiredElastic_eq_ok_iff.1 h
  exact ⟨policy, _, _, rfl, interfaces.wellAttached.wired, built⟩

theorem ofService_desiredElastic {name : String} {backends : List Backend} {service : Service}
    {desired : List ElasticPort} (h : desiredElastic name backends service = .ok desired) :
    OfService name backends desired := by
  obtain ⟨policy, attachment, pairs, protocol, wired, rfl⟩ := desiredElastic_eq_ok h
  refine ⟨?_, ?_, ?_, ?_, ?_, ?_⟩
  · simp [Policy.port]
  · simp [Policy.port]
  · simpa [Policy.port] using fun _ _ => protocol
  · simpa [Policy.port] using fun _ _ => wired
  · intro d hd
    obtain ⟨pair, -, rfl⟩ := List.mem_map.1 hd
    exact policy.probed_port ..
  · intro d hd e he hpair
    obtain ⟨first, -, rfl⟩ := List.mem_map.1 hd
    obtain ⟨second, -, rfl⟩ := List.mem_map.1 he
    exact congrArg _ hpair

theorem Service.named_desired {service : Service} {backends : List Backend} {k : Kind}
    {desired : List k.Port} (wanted : service.desired backends k = .ok desired) :
    ∀ d ∈ desired, d.name = service.balancerName := by
  cases k with
  | l4 =>
      obtain ⟨policy, filters, pairs, -, rfl⟩ := desiredL4_eq_ok wanted
      simp [Policy.port]
  | elastic => exact (ofService_desiredElastic wanted).named

theorem filters_desiredElastic {name : String} {backends : List Backend} {service : Service}
    {desired : List ElasticPort} (h : desiredElastic name backends service = .ok desired) :
    ∀ d ∈ desired, d.filters = [] := by
  obtain ⟨policy, attachment, pairs, -, -, rfl⟩ := desiredElastic_eq_ok h
  simp [Policy.port]

end CloudBalancer
