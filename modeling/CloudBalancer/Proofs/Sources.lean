import CloudBalancer.Proofs.PortChanges
import CloudBalancer.Proofs.Probes
import CloudBalancer.Reconcile.Ingress

/-!
Where the traffic comes from that rules let in. Each rule of a port has one source, which is an
address of the balancer: its VIP, or what one of its interfaces has. So the addresses of a balancer
tell its rules from those of others.
-/

namespace CloudBalancer

/-- The addresses of the interface itself, and the system addresses that check from there. -/
def NetworkInterface.addresses (interface : NetworkInterface) : List String :=
  interface.ipAddress.toList ++ interface.systemIpAddresses

/-- All addresses of the balancer that has the port. -/
def Port.addresses (p : ElasticPort) : List String :=
  p.vip :: p.attachment.interfaces.flatMap NetworkInterface.addresses

/-- The addresses of a balancer, none if it does not exist. -/
def Inventory.addresses (inv : Inventory) (name : String) : List String :=
  (inv.ports .elastic name).flatMap Port.addresses

/-- The rule lets one of the addresses in and nothing else. -/
def Rule.From (addresses : List String) (rule : Rule) : Prop :=
  ∃ a ∈ addresses, rule.sources = [a]

instance (addresses : List String) (rule : Rule) : Decidable (rule.From addresses) :=
  inferInstanceAs (Decidable (∃ a ∈ addresses, rule.sources = [a]))

theorem Rule.From.mono {addresses more : List String} {rule : Rule} (h : rule.From addresses)
    (subset : addresses ⊆ more) : rule.From more := by
  obtain ⟨a, ha, source⟩ := h
  exact ⟨a, subset ha, source⟩

theorem Rule.from_inbound {addresses : List String} {a : String} (ha : a ∈ addresses)
    (protocol : String) (port : Option UInt16) : (Rule.inbound protocol port a).From addresses :=
  ⟨a, ha, rfl⟩

section Port

variable {p : ElasticPort} {interface : NetworkInterface}

theorem Port.vip_mem_addresses (p : ElasticPort) : p.vip ∈ p.addresses :=
  List.mem_cons_self

theorem Port.system_mem_addresses (hi : interface ∈ p.attachment.interfaces) {a : String}
    (ha : a ∈ interface.systemIpAddresses) : a ∈ p.addresses :=
  .tail _ (List.mem_flatMap.2 ⟨interface, hi, List.mem_append_right _ ha⟩)

theorem Port.ip_mem_addresses (hi : interface ∈ p.attachment.interfaces)
    (some_address : interface.ipAddress.getD "" ≠ "") :
    interface.ipAddress.getD "" ∈ p.addresses := by
  refine .tail _ (List.mem_flatMap.2 ⟨interface, hi, List.mem_append_left _ ?_⟩)
  cases hip : interface.ipAddress with
  | none => simp [hip] at some_address
  | some a => simp

/-- Only VIP and interfaces matter. -/
theorem Port.addresses_congr {q : ElasticPort} (vip : p.vip = q.vip)
    (interfaces : p.attachment.interfaces = q.attachment.interfaces) :
    p.addresses = q.addresses := by
  rw [addresses, addresses, vip, interfaces]

theorem Revises.addresses {c : Call} {d p new : Kind.elastic.Port} (revises : Revises c d p new) :
    Port.addresses new = Port.addresses p :=
  Port.addresses_congr revises.vip (by rw [revises.attachment])

/-- The rules of a port come from the addresses of its balancer. -/
theorem Derives.from_addresses {rule : Rule} (h : Derives p rule) : rule.From p.addresses := by
  obtain ⟨rules, hrules, hrule⟩ := h
  cases hprobe : Probe.ofTarget p.healthCheck.target with
  | error e => simp [deriveRules, hprobe, bind, Except.bind] at hrules
  | ok probe =>
      simp only [deriveRules, hprobe, bind, Except.bind] at hrules
      split at hrules
      case h_1 interface hinterfaces =>
        obtain rfl := Except.ok.inj hrules
        have hi : interface ∈ p.attachment.interfaces := by simp [hinterfaces]
        rcases List.mem_cons.1 hrule with rfl | hrule
        · exact Rule.from_inbound p.vip_mem_addresses ..
        rcases List.mem_append.1 hrule with hrule | hrule
        · split at hrule
          · rw [List.mem_singleton.1 hrule]
            exact Rule.from_inbound p.vip_mem_addresses ..
          · cases hrule
        · obtain ⟨a, ha, rfl⟩ := List.mem_map.1 hrule
          exact Rule.from_inbound (Port.system_mem_addresses hi ha) ..
      case h_2 first second hinterfaces =>
        split at hrules
        · cases hrules
        next interface hfind =>
        obtain rfl := Except.ok.inj hrules
        have hi : interface ∈ p.attachment.interfaces :=
          hinterfaces ▸ List.mem_of_find?_eq_some hfind
        rcases List.mem_append.1 hrule with hrule | hrule
        · split at hrule
          · next some_address =>
            rw [List.mem_singleton.1 hrule]
            exact Rule.from_inbound (Port.ip_mem_addresses hi some_address) ..
          · cases hrule
        · obtain ⟨a, ha, rfl⟩ := List.mem_map.1 hrule
          exact Rule.from_inbound (Port.system_mem_addresses hi ha) ..
      case h_3 => cases hrules

end Port

end CloudBalancer
