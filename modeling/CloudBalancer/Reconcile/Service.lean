import CloudBalancer.Reconcile.Elastic
import CloudBalancer.Reconcile.L4
import CloudBalancer.Service.Desired

/-!
Balancers of services: the kind and the ports come from the service, the rest from the
reconciliation of that kind.
-/

namespace CloudBalancer

namespace Reconcile

def reconcile (name : String) : (k : Kind) → List k.Port → Program Status
  | .l4, desired => L4.reconcile name desired
  | .elastic, desired => Elastic.reconcile name desired

def delete (name : String) : Kind → Job Unit
  | .l4 => L4.delete name
  | .elastic => Elastic.delete name

end Reconcile

namespace Service

open Reconcile

def kindOrFail (service : Service) : Program Kind :=
  .ofExcept (service.kind.mapError .build)

/-- The status of the balancer behind a service, if it exists. -/
def status (service : Service) : Program (Option Status) := do
  Reconcile.status (← service.kindOrFail) service.balancerName

/-- Creates the balancer behind a service, or brings it up to date. -/
def ensure (service : Service) (backends : List Backend) : Program Status := do
  let kind ← service.kindOrFail
  let desired ← Program.ofExcept ((service.desired backends kind).mapError .build)
  reconcile service.balancerName kind desired

/-- As `ensure`, for a service whose backends have changed. -/
def update (service : Service) (backends : List Backend) : Program Unit := do
  discard (service.ensure backends)

/-- Deletes the balancer behind a service. -/
def delete (service : Service) : Program Unit := do
  Reconcile.delete service.balancerName (← service.kindOrFail)

end Service

end CloudBalancer
