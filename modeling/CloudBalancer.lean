import CloudBalancer.Main
import CloudBalancer.Proofs.LookUp
import CloudBalancer.Proofs.L4Convergence
import CloudBalancer.Proofs.LeftGrants
import CloudBalancer.Proofs.MissingGrants
import CloudBalancer.Proofs.Steadiness
import CloudBalancer.Proofs.Revocation
import CloudBalancer.Proofs.Frames
import CloudBalancer.Proofs.Attribution
import CloudBalancer.Proofs.Confluence
import CloudBalancer.Proofs.Projection
import CloudBalancer.Proofs.Continuity
import CloudBalancer.Simulation.Group
import CloudBalancer.Proofs.AddressText
import CloudBalancer.Proofs.Provisioning
import CloudBalancer.Proofs.SourceRanges
import CloudBalancer.Proofs.AuditTrail
import CloudBalancer.Proofs.FailFast
import CloudBalancer.Proofs.Deletion
import CloudBalancer.Proofs.ChangeOfKind
import CloudBalancer.Proofs.Renaming
import CloudBalancer.Proofs.Awaiting
import CloudBalancer.Proofs.Deadlines
import CloudBalancer.Proofs.ElasticEconomy
import CloudBalancer.Proofs.Atomicity
import CloudBalancer.Proofs.Displacement
import CloudBalancer.Proofs.InterfaceAddresses
import CloudBalancer.Proofs.FilterChanges
import CloudBalancer.Proofs.Traffic
import CloudBalancer.Proofs.DesiredPorts
import CloudBalancer.Proofs.RangeOrder
import CloudBalancer.Proofs.RangeDeclarations
import CloudBalancer.Proofs.PrintedForms
