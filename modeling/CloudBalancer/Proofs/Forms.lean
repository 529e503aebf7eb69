import CloudBalancer.Cloud.Form
import CloudBalancer.Engine.Form
import CloudBalancer.Proofs.Records
import CloudBalancer.Service.Form

/-!
The forms of balancers, security groups, services and configurations are read back.
-/

namespace CloudBalancer

open Json

theorem Backend.faithful : Faithful toJson ofJson? := by
  refine .lenientRecord (by decide) (fun _ => rfl) fun b => ?_
  exact .field .text b.instanceId <| .field .text b.uniqueId <| .field .text b.instanceType <|
    .field .text b.publicIp <| .field .text b.privateIp <| .field .text b.zone <|
    .field .text b.state .pure

theorem HealthCheck.faithful : Faithful toJson ofJson? := by
  refine .lenientRecord (by decide) (fun _ => rfl) fun check => ?_
  exact .field .text check.target <| .field .word check.interval <|
    .field .word check.unhealthyThreshold .pure

theorem NetworkInterface.faithful : Faithful toJson ofJson? := by
  refine .lenientRecord (by decide) (fun _ => rfl) fun interface => ?_
  exact .field .text interface.networkId <|
    .field (.nullable .text rfl) interface.ipAddress <|
    .field .strings interface.systemIpAddresses <| .field .flag interface.isVipNetwork .pure

theorem L4Port.faithful : Faithful toJson ofJson? := by
  refine .lenientRecord (by decide) (fun _ => rfl) fun p => ?_
  exact .field .text p.name <| .field .word p.settings.accountingType <|
    .field .text p.settings.policyType <| .field .word p.settings.balancingType <|
    .field .word p.settings.networkVolume <| .field .port p.pair.balancerPort <|
    .field .port p.pair.instancePort <| .field HealthCheck.faithful p.healthCheck <|
    .field (.list Backend.faithful) p.backends <| .field .strings p.filters <|
    .field .text p.vip .pure

theorem ElasticPort.faithful : Faithful toJson ofJson? := by
  refine .lenientRecord (by decide) (fun _ => rfl) fun p => ?_
  exact .field .text p.name <| .field .word p.settings.accountingType <|
    .field .text p.settings.policyType <| .field .word p.settings.balancingType <|
    .field .word p.settings.networkVolume <| .field .text p.attachment.protocol <|
    .field .port p.pair.balancerPort <| .field .port p.pair.instancePort <|
    .field HealthCheck.faithful p.healthCheck <| .field (.list Backend.faithful) p.backends <|
    .field .strings p.filters <| .field .text p.attachment.availabilityZone <|
    .field .text p.vip <| .field (.list NetworkInterface.faithful) p.attachment.interfaces .pure

theorem PortPair.faithful : Faithful toJson ofJson? := by
  refine .fullRecord (by decide) (fun _ => rfl) fun pair => ?_
  exact .required .port pair.balancerPort <| .required .port pair.instancePort .pure

theorem FilterChange.faithful : Faithful toJson ofJson? := by
  refine .fullRecord (by decide) (fun _ => rfl) fun change => ?_
  exact .required .flag change.add <| .required .text change.address .pure

theorem Status.faithful : Faithful toJson ofJson? := by
  refine .fullRecord (by decide) (fun _ => rfl) fun status => ?_
  exact .required .text status.vip .pure

theorem Rule.faithful : Faithful toJson ofJson? := by
  refine .fullRecord (by decide) (fun _ => rfl) fun rule => ?_
  exact .required .text rule.protocol <| .field (.nullable .port rfl) rule.fromPort <|
    .field (.nullable .port rfl) rule.toPort <| .required .text rule.direction <|
    .required .strings rule.sources .pure

theorem SecurityGroup.faithful : Faithful toJson ofJson? := by
  refine .lenientRecord (by decide) (fun _ => rfl) fun group => ?_
  exact .field .strings group.instanceIds <| .field (.list Rule.faithful) group.rules .pure

theorem Snapshot.faithful : Faithful toJson ofJson? := by
  refine .lenientRecord (by decide) (fun _ => rfl) fun s => ?_
  exact .field (.list L4Port.faithful) s.l4 <| .field (.list ElasticPort.faithful) s.elastic <|
    .field (.nameMap SecurityGroup.faithful) s.groups .pure

theorem ServicePort.faithful : Faithful toJson ofJson? := by
  refine .lenientRecord (by decide) (fun _ => rfl) fun p => ?_
  exact .field .text p.name <| .field .text p.protocol <| .field .port p.port <|
    .field (.nullable .port rfl) p.nodePort .pure

theorem Service.faithful : Faithful toJson ofJson? := by
  refine .lenientRecord (by decide) (fun _ => rfl) fun s => ?_
  exact .field .text s.uid <| .field .text s.namespaceName <| .field .text s.name <|
    .field (.list ServicePort.faithful) s.ports <| .field (.nameMap .text) s.annotations <|
    .field .strings s.sourceRanges .pure

theorem Config.faithful : Faithful toJson ofJson? := by
  refine .lenientRecord (by decide) (fun _ => rfl) fun config => ?_
  exact .field .seconds config.apiTimeoutSecs <|
    .field .seconds config.securityGroupApplyTimeoutSecs .pure

end CloudBalancer
