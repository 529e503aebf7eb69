import CloudBalancer.Proofs.Probes

/-!
Which services get an elastic balancer, and with which ports. The builder takes exactly the services
that declare one in full; its ports are those of the service with a node port, each of them wired
into networks as the cloud wants it, and with a health check for which rules can be derived.
-/

namespace CloudBalancer

open Annotations

/-- The service declares an elastic balancer. -/
structure ElasticDeclared (service : Service) : Prop where
  policy : PolicyDeclared service.annotations
  interfaces : InterfacesDeclared service.annotations
  ports : PortsDeclared service.ports

/-- The probe that the annotations ask for: an echo, or one on the data port. -/
def declaredProbe (annotations : NameMap String) (pair : PortPair) : Probe :=
  if get? annotations healthCheckProtocol = some icmp then ⟨icmp, none⟩
  else ⟨tcp, some pair.instancePort⟩

/-- A port of the elastic balancer that the service declares, before it is created. -/
structure Declares (name : String) (backends : List Backend) (service : Service)
    (p : ElasticPort) : Prop where
  name : p.name = name
  backends : p.backends = backends
  unfiltered : p.filters = []
  unassigned : p.vip = ""
  data : p.attachment.protocol = tcp
  attached : WellAttached p.attachment.interfaces
  probe : Probe.ofTarget p.healthCheck.target = .ok (declaredProbe service.annotations p.pair)
  rules : ∃ rules, deriveRules p = .ok rules

variable {name : String} {backends : List Backend} {service : Service}

theorem exists_desiredElastic_iff :
    (∃ ports, desiredElastic name backends service = .ok ports) ↔ ElasticDeclared service := by
  simp only [desiredElastic_eq_ok_iff]
  constructor
  · intro ⟨_, policy, read, interfaces, declared, _⟩
    exact ⟨Policy.exists_ofAnnotations_iff.1 ⟨policy, read⟩, interfaces, declared⟩
  · intro ⟨declared, interfaces, ports⟩
    obtain ⟨policy, read⟩ := Policy.exists_ofAnnotations_iff.2 declared
    exact ⟨_, policy, read, interfaces, ports, rfl⟩

theorem Policy.ofTarget_healthCheck {annotations : NameMap String} {policy : Policy}
    (read : ofAnnotations annotations = .ok policy) (pair : PortPair) :
    Probe.ofTarget (policy.healthCheck pair.instancePort).target =
      .ok (declaredProbe annotations pair) := by
  simp only [healthCheck, declaredProbe, echoChecks_eq read, beq_iff_eq]
  split
  · rfl
  · exact Probe.ofTarget_tcp pair.instancePort

theorem Policy.declares_port {policy : Policy} (pair : PortPair)
    (read : ofAnnotations service.annotations = .ok policy)
    (declared : InterfacesDeclared service.annotations) :
    Declares name backends service
      (policy.port name backends [] (attachmentOf backends service) pair) := by
  have attached : WellAttached (attachmentOf backends service).interfaces := declared.wellAttached
  have probe := policy.ofTarget_healthCheck read pair
  exact ⟨rfl, rfl, rfl, rfl, rfl, attached, probe, deriveRules_ok ⟨_, probe⟩ attached.wired⟩

/-- Ports of an elastic balancer are built exactly for the services that declare one. There is one
for each port of the service that has a node port, in their order, and it is as declared. -/
theorem elastic_built_as_declared (name : String) (backends : List Backend) (service : Service) :
    ((∃ ports, desiredElastic name backends service = .ok ports) ↔ ElasticDeclared service) ∧
      ∀ ports, desiredElastic name backends service = .ok ports →
        ports.map Port.pair = service.ports.filterMap ServicePort.pair? ∧
          ∀ p ∈ ports, Declares name backends service p := by
  refine ⟨exists_desiredElastic_iff, fun ports built => ?_⟩
  obtain ⟨policy, read, interfaces, -, rfl⟩ := desiredElastic_eq_ok_iff.1 built
  refine ⟨by simp [Policy.port, Function.comp_def], fun p member => ?_⟩
  obtain ⟨pair, -, rfl⟩ := List.mem_map.1 member
  exact policy.declares_port pair read interfaces

namespace Sample

/-- Checked by echoes, which come through a private network; one of the ports has no node port. -/
def doubleWired : Service where
  uid := "web"
  ports := [{ protocol := tcp, port := 80, nodePort := some 30080 },
            { protocol := tcp, port := 443, nodePort := none }]
  annotations := (((((NameMap.insert ∅ healthCheckProtocol " ICMP ").insert
    (interfaceKeys 1).networkId commonGlobalNetwork).insert
    (interfaceKeys 1).vipNetwork "true").insert
    (interfaceKeys 2).networkId "net-1").insert
    (interfaceKeys 2).ipAddress "10.1.0.1").insert
    (interfaceKeys 2).systemIpAddresses "10.1.0.2, 10.1.0.3"

end Sample

theorem elastic_built_for_two_interfaces :
    ElasticDeclared Sample.doubleWired ∧
      ∃ ports, desiredElastic "web" [] Sample.doubleWired = .ok ports ∧
        ports.map Port.pair = [⟨80, 30080⟩] ∧
          ∀ p ∈ ports, Declares "web" [] Sample.doubleWired p := by
  have accepted : (desiredElastic "web" [] Sample.doubleWired).isOk = true := by decide +kernel
  have pairs : Sample.doubleWired.ports.filterMap ServicePort.pair? = [⟨80, 30080⟩] := by decide
  obtain ⟨acceptance, built⟩ := elastic_built_as_declared "web" [] Sample.doubleWired
  cases ports : desiredElastic "web" [] Sample.doubleWired with
  | error fault => rw [ports] at accepted; cases accepted
  | ok made => exact ⟨acceptance.1 ⟨made, ports⟩, made, rfl, pairs ▸ built made ports⟩

end CloudBalancer
