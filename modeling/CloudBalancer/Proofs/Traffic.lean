import CloudBalancer.Proofs.Probes

/-!
Which packets the rules for a port let in. With one interface they are the data from the VIP and the
health checks from the VIP and from the system addresses; with two, the health checks that come
through the first interface without the VIP. Main statement: rules can be derived exactly for such
interfaces, and they let in these packets and no others. Sources are texts here, as rules hold them.
-/

namespace CloudBalancer

/-- What arrives at an instance. An echo has no port. -/
structure Packet where
  protocol : String
  port : Option UInt16
  source : String
  deriving DecidableEq, Repr

/-- The port lies between the bounds. Where there are none, traffic without ports is meant. -/
inductive PortWithin : (low high port : Option UInt16) → Prop
  | between {low high port : UInt16} (above : low ≤ port) (below : port ≤ high) :
      PortWithin (some low) (some high) (some port)
  | portless : PortWithin none none none

theorem portWithin_self {bound port : Option UInt16} :
    PortWithin bound bound port ↔ port = bound := by
  constructor
  · intro within
    cases within with
    | between above below => exact congrArg some (UInt16.le_antisymm below above)
    | portless => rfl
  · intro same
    subst same
    cases port with
    | none => exact .portless
    | some n => exact .between (UInt16.le_refl n) (UInt16.le_refl n)

namespace Rule

structure Admits (rule : Rule) (packet : Packet) : Prop where
  inward : rule.direction = "IN"
  protocol : rule.protocol = packet.protocol
  port : PortWithin rule.fromPort rule.toPort packet.port
  source : packet.source ∈ rule.sources

/-- An inbound rule is for one kind of packet from one source. -/
theorem inbound_admits {protocol source : String} {port : Option UInt16} {packet : Packet} :
    (inbound protocol port source).Admits packet ↔ packet = ⟨protocol, port, source⟩ := by
  obtain ⟨packetProtocol, packetPort, packetSource⟩ := packet
  constructor
  · intro ⟨_, same, within, listed⟩
    have sameProtocol : protocol = packetProtocol := same
    have samePort : packetPort = port := portWithin_self.1 within
    have sameSource : packetSource = source := List.mem_singleton.1 listed
    rw [sameProtocol, samePort, sameSource]
  · intro same
    cases same
    exact ⟨rfl, rfl, portWithin_self.2 rfl, List.mem_singleton_self source⟩

end Rule

/-- One of the rules lets the packet in. -/
def RulesAdmit (rules : List Rule) (packet : Packet) : Prop :=
  ∃ rule ∈ rules, rule.Admits packet

section RulesAdmit

variable {protocol source : String} {port : Option UInt16} {packet : Packet} {rules : List Rule}

@[simp]
theorem rulesAdmit_nil : ¬ RulesAdmit [] packet := by
  simp [RulesAdmit]

@[simp]
theorem rulesAdmit_cons_inbound :
    RulesAdmit (.inbound protocol port source :: rules) packet ↔
      packet = ⟨protocol, port, source⟩ ∨ RulesAdmit rules packet := by
  simp [RulesAdmit, Rule.inbound_admits]

@[simp]
theorem rulesAdmit_append {more : List Rule} :
    RulesAdmit (rules ++ more) packet ↔ RulesAdmit rules packet ∨ RulesAdmit more packet := by
  simp [RulesAdmit, or_and_right, exists_or]

@[simp]
theorem rulesAdmit_map_inbound {sources : List String} :
    RulesAdmit (sources.map (Rule.inbound protocol port)) packet ↔
      ∃ source ∈ sources, packet = ⟨protocol, port, source⟩ := by
  simp [RulesAdmit, Rule.inbound_admits]

@[simp]
theorem rulesAdmit_optional {condition : Prop} [Decidable condition] :
    RulesAdmit (if condition then [.inbound protocol port source] else []) packet ↔
      condition ∧ packet = ⟨protocol, port, source⟩ := by
  split
  · next holds => simp [holds]
  · next fails => simp [fails]

end RulesAdmit

/-- The interface through which health checks go: a single one, or of two the first one without the
VIP. -/
inductive ChecksThrough : List NetworkInterface → NetworkInterface → Prop
  | single {interface : NetworkInterface} : ChecksThrough [interface] interface
  | first {first second : NetworkInterface} (other : first.isVipNetwork = false) :
      ChecksThrough [first, second] first
  | second {first second : NetworkInterface} (vip : first.isVipNetwork = true)
      (other : second.isVipNetwork = false) : ChecksThrough [first, second] second

/-- Health checks of the port come from `source`. -/
inductive ChecksFrom (p : ElasticPort) : (source : String) → Prop
  | vip (single : p.attachment.interfaces.length = 1) : ChecksFrom p p.vip
  | address {interface : NetworkInterface} {source : String}
      (double : p.attachment.interfaces.length = 2)
      (through : ChecksThrough p.attachment.interfaces interface)
      (assigned : interface.ipAddress = some source) (some_text : source ≠ "") :
      ChecksFrom p source
  | system {interface : NetworkInterface} {source : String}
      (through : ChecksThrough p.attachment.interfaces interface)
      (listed : source ∈ interface.systemIpAddresses) : ChecksFrom p source

/-- What the balancer of a port sends to instances that need a rule for it. -/
inductive BalancerSends (p : ElasticPort) (probe : Probe) : Packet → Prop
  | data (single : p.attachment.interfaces.length = 1) :
      BalancerSends p probe ⟨tcp, some p.pair.instancePort, p.vip⟩
  | check {source : String} (sender : ChecksFrom p source) :
      BalancerSends p probe ⟨probe.protocol, probe.port, source⟩

/-- The probe is an echo, or asks on the data port. -/
def Probe.OfPort (probe : Probe) (p : ElasticPort) : Prop :=
  probe = ⟨icmp, none⟩ ∨ probe = ⟨tcp, some p.pair.instancePort⟩

theorem wired_iff_through {interfaces : List NetworkInterface} :
    Wired interfaces ↔ ∃ interface, ChecksThrough interfaces interface := by
  constructor
  · intro wired
    match interfaces with
    | [] => simp [Wired] at wired
    | [interface] => exact ⟨interface, .single⟩
    | [first, second] =>
        cases hfirst : first.isVipNetwork with
        | false => exact ⟨first, .first hfirst⟩
        | true =>
            have hsecond : second.isVipNetwork = false := by simpa [Wired, hfirst] using wired
            exact ⟨second, .second hfirst hsecond⟩
    | _ :: _ :: _ :: _ => simp [Wired] at wired
  · intro chosen
    obtain ⟨interface, through⟩ := chosen
    cases through with
    | single => exact .inl rfl
    | first other => exact .inr ⟨rfl, _, List.mem_cons_self, other⟩
    | second vip other => exact .inr ⟨rfl, _, by simp, other⟩

section Derivation

variable {p : ElasticPort} {probe : Probe} {rules : List Rule} {packet : Packet}
  {interface first second : NetworkInterface}

theorem deriveRules_single (named : Probe.ofTarget p.healthCheck.target = .ok probe)
    (own : probe.OfPort p) (data : p.attachment.protocol = tcp)
    (single : p.attachment.interfaces = [interface]) :
    deriveRules p = .ok (.inbound tcp (some p.pair.instancePort) p.vip ::
      ((if probe.protocol ≠ tcp then [.inbound probe.protocol probe.port p.vip] else []) ++
        interface.systemIpAddresses.map (Rule.inbound probe.protocol probe.port))) := by
  simp only [deriveRules, named, single, data, bind, Except.bind]
  cases own with
  | inl echo => subst echo; rfl
  | inr asks => subst asks; rfl

theorem deriveRules_double (named : Probe.ofTarget p.healthCheck.target = .ok probe)
    (own : probe.OfPort p) (double : p.attachment.interfaces = [first, second])
    (through : ChecksThrough [first, second] interface) :
    deriveRules p = .ok (
      (if interface.ipAddress.getD "" ≠ "" then
        [.inbound probe.protocol probe.port (interface.ipAddress.getD "")] else []) ++
        interface.systemIpAddresses.map (Rule.inbound probe.protocol probe.port)) := by
  have other : [first, second].find? (!·.isVipNetwork) = some interface := by
    cases through with
    | first other => simp [other]
    | second vip other => simp [vip, other]
  simp only [deriveRules, named, double, other, bind, Except.bind]
  cases own with
  | inl echo => subst echo; rfl
  | inr asks => subst asks; rfl

theorem wired_of_deriveRules (derived : deriveRules p = .ok rules) :
    Wired p.attachment.interfaces := by
  simp only [deriveRules, bind, Except.bind] at derived
  split at derived
  · cases derived
  · split at derived
    · next interface single =>
      rw [single]
      exact .inl rfl
    · next first second double =>
      split at derived
      · cases derived
      · next interface chosen =>
        rw [double]
        exact .inr ⟨rfl, interface, List.mem_of_find?_eq_some chosen,
          by simpa using List.find?_some chosen⟩
    · cases derived

/-- Whatever the port, its rules are for one kind of packet each. -/
theorem inbound_of_derived (derived : deriveRules p = .ok rules) :
    ∀ rule ∈ rules, ∃ protocol port source, rule = .inbound protocol port source := by
  have mapped (protocol : String) (port : Option UInt16) (sources : List String) :
      ∀ rule ∈ sources.map (Rule.inbound protocol port), ∃ protocol port source,
        rule = .inbound protocol port source := by
    intro rule member
    obtain ⟨source, -, rfl⟩ := List.mem_map.1 member
    exact ⟨protocol, port, source, rfl⟩
  have optional (condition : Prop) [Decidable condition] (protocol : String)
      (port : Option UInt16) (source : String) :
      ∀ rule ∈ (if condition then [Rule.inbound protocol port source] else []),
        ∃ protocol port source, rule = .inbound protocol port source := by
    split
    · exact mapped protocol port [source]
    · simp
  simp only [deriveRules, bind, Except.bind] at derived
  split at derived
  · cases derived
  · split at derived
    · cases derived
      exact List.forall_mem_cons.2 ⟨⟨_, _, _, rfl⟩,
        List.forall_mem_append.2 ⟨optional _ _ _ _, mapped _ _ _⟩⟩
    · split at derived
      · cases derived
      · cases derived
        exact List.forall_mem_append.2 ⟨optional _ _ _ _, mapped _ _ _⟩
    · cases derived

theorem balancerSends_single (single : p.attachment.interfaces = [interface]) :
    BalancerSends p probe packet ↔
      packet = ⟨tcp, some p.pair.instancePort, p.vip⟩ ∨
        packet = ⟨probe.protocol, probe.port, p.vip⟩ ∨
        ∃ source ∈ interface.systemIpAddresses, packet = ⟨probe.protocol, probe.port, source⟩ := by
  have one : p.attachment.interfaces.length = 1 := by rw [single]; rfl
  constructor
  · intro sends
    cases sends with
    | data => exact .inl rfl
    | check sender =>
        right
        cases sender with
        | vip => exact .inl rfl
        | address double => rw [one] at double; cases double
        | system through listed =>
            rw [single] at through
            cases through
            exact .inr ⟨_, listed, rfl⟩
  · intro sent
    obtain rfl | rfl | ⟨source, listed, rfl⟩ := sent
    · exact .data one
    · exact .check (.vip one)
    · exact .check (.system (by rw [single]; exact .single) listed)

theorem balancerSends_double (double : p.attachment.interfaces = [first, second])
    (through : ChecksThrough [first, second] interface) :
    BalancerSends p probe packet ↔
      (interface.ipAddress.getD "" ≠ "" ∧
        packet = ⟨probe.protocol, probe.port, interface.ipAddress.getD ""⟩) ∨
      ∃ source ∈ interface.systemIpAddresses, packet = ⟨probe.protocol, probe.port, source⟩ := by
  have two : p.attachment.interfaces.length = 2 := by rw [double]; rfl
  have unique {other : NetworkInterface} (chosen : ChecksThrough p.attachment.interfaces other) :
      other = interface := by
    rw [double] at chosen
    cases chosen with
    | first _ => cases through with
      | first _ => rfl
      | second vip _ => simp_all
    | second vip _ => cases through with
      | first _ => simp_all
      | second _ _ => rfl
  constructor
  · intro sends
    cases sends with
    | data single => rw [two] at single; cases single
    | check sender =>
        cases sender with
        | vip single => rw [two] at single; cases single
        | address _ chosen assigned some_text =>
            rw [unique chosen] at assigned
            rw [assigned]
            exact .inl ⟨some_text, rfl⟩
        | system chosen listed =>
            rw [unique chosen] at listed
            exact .inr ⟨_, listed, rfl⟩
  · intro sent
    rw [← double] at through
    obtain ⟨some_text, rfl⟩ | ⟨source, listed, rfl⟩ := sent
    · refine .check (.address two through ?_ some_text)
      cases assigned : interface.ipAddress with
      | none => simp [assigned] at some_text
      | some address => rfl
    · exact .check (.system through listed)

theorem rulesAdmit_derived_iff (named : Probe.ofTarget p.healthCheck.target = .ok probe)
    (own : probe.OfPort p) (data : p.attachment.protocol = tcp)
    (derived : deriveRules p = .ok rules) (packet : Packet) :
    RulesAdmit rules packet ↔ BalancerSends p probe packet := by
  obtain ⟨interface, through⟩ := wired_iff_through.1 (wired_of_deriveRules derived)
  generalize hinterfaces : p.attachment.interfaces = interfaces at through
  cases through with
  | single =>
      rw [deriveRules_single named own data hinterfaces] at derived
      cases derived
      -- Checks over TCP are let in from the VIP as data is.
      have covered (overTcp : probe.protocol = tcp) : probe.port = some p.pair.instancePort := by
        cases own with
        | inl echo => exact absurd overTcp (by rw [echo]; decide)
        | inr asks => rw [asks]
      rw [balancerSends_single hinterfaces, rulesAdmit_cons_inbound, rulesAdmit_append,
        rulesAdmit_optional, rulesAdmit_map_inbound]
      by_cases overTcp : probe.protocol = tcp
      · simp [overTcp, covered overTcp]
      · simp [overTcp]
  | first other =>
      rw [deriveRules_double named own hinterfaces (.first other)] at derived
      cases derived
      rw [balancerSends_double hinterfaces (.first other), rulesAdmit_append, rulesAdmit_optional,
        rulesAdmit_map_inbound]
  | second vip other =>
      rw [deriveRules_double named own hinterfaces (.second vip other)] at derived
      cases derived
      rw [balancerSends_double hinterfaces (.second vip other), rulesAdmit_append,
        rulesAdmit_optional, rulesAdmit_map_inbound]

end Derivation

/-- The rules of a port of TCP data whose health check is an echo or asks on the data port can be
derived exactly if it has one interface, or two of which one carries no VIP. They then let in what
the balancer sends and nothing else, each of them on one port, or none, and from one source. -/
theorem rules_admit_balancer_traffic {p : ElasticPort} {probe : Probe}
    (named : Probe.ofTarget p.healthCheck.target = .ok probe) (own : probe.OfPort p)
    (data : p.attachment.protocol = tcp) :
    ((∃ rules, deriveRules p = .ok rules) ↔ Wired p.attachment.interfaces) ∧
      ∀ rules, deriveRules p = .ok rules →
        (∀ packet, RulesAdmit rules packet ↔ BalancerSends p probe packet) ∧
        ∀ rule ∈ rules,
          rule.direction = "IN" ∧ rule.fromPort = rule.toPort ∧ rule.sources.length = 1 := by
  refine ⟨⟨?_, deriveRules_ok ⟨probe, named⟩⟩, fun rules derived => ⟨?_, ?_⟩⟩
  · intro ⟨rules, derived⟩
    exact wired_of_deriveRules derived
  · exact rulesAdmit_derived_iff named own data derived
  · intro rule member
    obtain ⟨protocol, port, source, rfl⟩ := inbound_of_derived derived rule member
    exact ⟨rfl, rfl, rfl⟩

namespace Sample

/-- A port with an echo check whose second interface is the one without the VIP. -/
def echoedPort : ElasticPort where
  name := "web"
  settings := {}
  pair := ⟨80, 30080⟩
  healthCheck := { target := icmp }
  backends := []
  filters := []
  vip := "203.0.113.1"
  attachment :=
    { protocol := tcp
      interfaces :=
        [{ networkId := commonGlobalNetwork, isVipNetwork := true },
          { networkId := "net-1", ipAddress := some "10.0.0.1",
            systemIpAddresses := ["10.0.0.2", "10.0.0.3"] }] }

end Sample

theorem rules_admit_echoes :
    let p := Sample.echoedPort
    let probe : Probe := ⟨icmp, none⟩
    Probe.ofTarget p.healthCheck.target = .ok probe ∧ probe.OfPort p ∧
      p.attachment.protocol = tcp ∧
      ((∃ rules, deriveRules p = .ok rules) ↔ Wired p.attachment.interfaces) ∧
      ∀ rules, deriveRules p = .ok rules →
        (∀ packet, RulesAdmit rules packet ↔ BalancerSends p probe packet) ∧
        ∀ rule ∈ rules,
          rule.direction = "IN" ∧ rule.fromPort = rule.toPort ∧ rule.sources.length = 1 :=
  have named : Probe.ofTarget Sample.echoedPort.healthCheck.target = .ok ⟨icmp, none⟩ := rfl
  ⟨named, .inl rfl, rfl, rules_admit_balancer_traffic named (.inl rfl) rfl⟩

end CloudBalancer
