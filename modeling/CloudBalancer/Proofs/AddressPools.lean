import CloudBalancer.Proofs.AddressText
import CloudBalancer.Proofs.Snapshots
import Mathlib.Data.List.Fold
import Mathlib.Data.List.MinMax
import Mathlib.Order.Nat

/-!
The pool of VIPs. Both kinds of balancers draw on it, and deletions leave gaps that a restart closes
from the end. What carries the main statement is that every VIP in use that is an address at all
lies at or before the last position of the pool: then the next position is an address that no
balancer has, over whatever calls and restarts, until the pool is used up.
-/

namespace CloudBalancer

/-- The VIPs of all balancers, as their ports state them. -/
def Snapshot.vips (s : Snapshot) : List String :=
  s.l4.map Port.vip ++ s.elastic.map Port.vip

namespace Inventory

variable {inv after : Inventory} {k : Kind} {name : String} {c : Call}

section Positions

variable {pool : Network.Ipv4} {text : String} {texts : List String} {m n : Nat}

theorem offsetIn?_eq_some_iff : offsetIn? pool text = some n ↔
    ∃ a, Network.Ipv4.parse? text = some a ∧ a.value.val = pool.value.val + n ∧ n ≤ poolSpan := by
  cases read : Network.Ipv4.parse? text with
  | none => simp [offsetIn?, read]
  | some a =>
      have offset : offsetIn? pool text =
          if a.value < pool.value then none
          else if a.value.val - pool.value.val ≤ poolSpan then
            some (a.value.val - pool.value.val) else none := by
        simp [offsetIn?, read]
      simp only [offset, Fin.lt_def]
      constructor
      · intro h
        split at h
        · cases h
        · split at h
          · cases h
            exact ⟨a, rfl, by omega, by omega⟩
          · cases h
      · intro ⟨b, same, position, span⟩
        cases same
        rw [if_neg (by omega), if_pos (by omega)]
        congr 1
        omega

/-- A position of the pool is read back from the text of its address. -/
theorem offsetIn?_advance (span : n ≤ poolSpan) (room : pool.value.val + poolSpan ≤ 0xFFFFFFFF) :
    offsetIn? pool (pool.advance n).text = some n := by
  refine offsetIn?_eq_some_iff.2 ⟨pool.advance n, Network.Ipv4.parse?_text _, ?_, span⟩
  simp only [Network.Ipv4.advance]
  omega

theorem highestOffset_eq_foldr (pool : Network.Ipv4) (texts : List String) :
    highestOffset pool texts = (texts.filterMap (offsetIn? pool)).foldr max ⊥ :=
  List.foldl_eq_foldr ..

theorem le_highestOffset (htext : text ∈ texts) (position : offsetIn? pool text = some n) :
    n ≤ highestOffset pool texts := by
  rw [highestOffset_eq_foldr]
  exact List.le_max_of_le (List.mem_filterMap.2 ⟨text, htext, position⟩) (Nat.le_refl n)

theorem highestOffset_le (bound : ∀ text ∈ texts, ∀ n, offsetIn? pool text = some n → n ≤ m) :
    highestOffset pool texts ≤ m := by
  rw [highestOffset_eq_foldr]
  refine List.max_le_of_forall_le _ m fun n hn => ?_
  obtain ⟨text, htext, position⟩ := List.mem_filterMap.1 hn
  exact bound text htext n position

theorem highestOffset_le_span (pool : Network.Ipv4) (texts : List String) :
    highestOffset pool texts ≤ poolSpan := by
  refine highestOffset_le fun text _ n position => ?_
  obtain ⟨a, -, -, span⟩ := offsetIn?_eq_some_iff.1 position
  exact span

end Positions

theorem mem_allPorts {α : Type} {t : Table α} {p : Port α} :
    p ∈ t.allPorts ↔ ∃ name, p ∈ (t.get? name).getD [] := by
  simp only [Table.allPorts, NameMap.values, List.mem_flatten, List.mem_map]
  constructor
  · intro ⟨_, ⟨entry, hentry, rfl⟩, hp⟩
    have held := (t.mem_entries_iff entry.1 entry.2).1 hentry
    exact ⟨entry.1, by rwa [held]⟩
  · intro ⟨name, hp⟩
    cases held : t.get? name with
    | none => simp [held] at hp
    | some ports =>
        rw [held] at hp
        exact ⟨ports, ⟨(name, ports), (t.mem_entries_iff name ports).2 held, rfl⟩, hp⟩

theorem mem_vips {vip : String} : vip ∈ inv.snapshot.vips ↔
    ∃ (k : Kind) (name : String), ∃ p ∈ inv.ports k name, p.vip = vip := by
  simp only [Snapshot.vips, snapshot, List.mem_append, List.mem_map, mem_allPorts]
  constructor
  · intro held
    cases held with
    | inl l4 =>
        obtain ⟨p, ⟨name, hp⟩, hvip⟩ := l4
        exact ⟨.l4, name, p, hp, hvip⟩
    | inr elastic =>
        obtain ⟨p, ⟨name, hp⟩, hvip⟩ := elastic
        exact ⟨.elastic, name, p, hp, hvip⟩
  · intro held
    obtain ⟨k, name, p, hp, hvip⟩ := held
    cases k with
    | l4 => exact .inl ⟨p, ⟨name, hp⟩, hvip⟩
    | elastic => exact .inr ⟨p, ⟨name, hp⟩, hvip⟩

/-- Calls but for creations leave the pools where they are. -/
theorem pools_apply {answer : c.Answer} (h : inv.apply c = .ok (answer, after))
    (other : ∀ k p, c ≠ .create k p) :
    after.lastVip = inv.lastVip ∧ after.lastAddress = inv.lastAddress := by
  have moved : inv.apply c = movedPools inv.lastVip inv.lastAddress (inv.apply c) :=
    apply_withPools other
  rw [h] at moved
  have same : after = after.withPools inv.lastVip inv.lastAddress :=
    congrArg Prod.snd (Except.ok.inj moved)
  rw [same]
  exact ⟨rfl, rfl⟩

theorem pools_create {p : k.Port} {vip : String} (h : inv.create k p = .ok (vip, after)) :
    vip = vipAt (inv.lastVip + 1) ∧ after.lastVip = inv.lastVip + 1 ∧
      after.lastAddress = (attach vip inv.lastAddress k p.attachment).2 := by
  unfold create at h
  split at h
  · cases h
  · simp only [bind, Except.bind] at h
    split at h
    · cases h
    · cases h
      exact ⟨rfl, rfl, rfl⟩

/-- The only VIP that a call brings is the next one of the pool. -/
theorem vips_apply (filed : inv.Filed) {answer : c.Answer}
    (h : inv.apply c = .ok (answer, after)) {vip : String} (hvip : vip ∈ after.snapshot.vips) :
    vip ∈ inv.snapshot.vips ∨ vip = vipAt (inv.lastVip + 1) ∧ ∃ k p, c = .create k p := by
  obtain ⟨k, name, p, hp, rfl⟩ := mem_vips.1 hvip
  have former : ∀ q ∈ inv.ports k name, q.vip ∈ inv.snapshot.vips ∨
      q.vip = vipAt (inv.lastVip + 1) ∧ ∃ k p, c = .create k p :=
    fun q hq => .inl (mem_vips.2 ⟨k, name, q, hq, rfl⟩)
  refine forall_ports_apply ((filed k).solid name) h former ?_ ?_ ?_ p hp
  · exact fun q own _ => .inr ⟨rfl, k, q, own⟩
  · exact fun q first _ known => known
  · exact fun d q new revises _ known => revises.vip ▸ known

/-- VIPs that are addresses lie at or before the last position of the pool, and there are `left`
more positions. -/
structure Ahead (inv : Inventory) (left : Nat) : Prop where
  filed : inv.Filed
  before : ∀ vip ∈ inv.snapshot.vips, ∀ a, Network.Ipv4.parse? vip = some a →
    a.value.val ≤ vipPool.value.val + inv.lastVip
  room : inv.lastVip + left ≤ poolSpan

theorem Ahead.mono {left more : Nat} (ahead : inv.Ahead more) (fewer : left ≤ more) :
    inv.Ahead left :=
  ⟨ahead.filed, ahead.before, (Nat.add_le_add_left fewer _).trans ahead.room⟩

theorem vipPool_room : vipPool.value.val + poolSpan ≤ 0xFFFFFFFF := by decide

theorem Ahead.offset_le {left : Nat} (ahead : inv.Ahead left) {vip : String}
    (hvip : vip ∈ inv.snapshot.vips) {n : Nat} (position : offsetIn? vipPool vip = some n) :
    n ≤ inv.lastVip := by
  obtain ⟨a, read, value, -⟩ := offsetIn?_eq_some_iff.1 position
  have bound := ahead.before vip hvip a read
  omega

/-- The next VIP of the pool is no balancer's. -/
theorem Ahead.next_unused {left : Nat} (ahead : inv.Ahead (left + 1)) :
    vipAt (inv.lastVip + 1) ∉ inv.snapshot.vips := by
  intro taken
  have room := ahead.room
  have position : offsetIn? vipPool (vipAt (inv.lastVip + 1)) = some (inv.lastVip + 1) :=
    offsetIn?_advance (by omega) vipPool_room
  have bound := ahead.offset_le taken position
  omega

theorem Ahead.create {left : Nat} (ahead : inv.Ahead (left + 1)) {p : k.Port} {vip : String}
    (h : inv.create k p = .ok (vip, after)) : after.Ahead left := by
  obtain ⟨-, lastVip, -⟩ := pools_create h
  have room := ahead.room
  refine ⟨ahead.filed.apply (c := .create k p) h, fun held hheld a read => ?_, by omega⟩
  cases vips_apply (c := .create k p) ahead.filed h hheld with
  | inl former =>
      have bound := ahead.before held former a read
      omega
  | inr next =>
      rw [next.1, vipAt, Network.Ipv4.parse?_text] at read
      cases read
      simp only [Network.Ipv4.advance]
      omega

theorem Ahead.apply {left : Nat} (ahead : inv.Ahead left) (other : ∀ k p, c ≠ .create k p)
    {answer : c.Answer} (h : inv.apply c = .ok (answer, after)) : after.Ahead left := by
  obtain ⟨lastVip, -⟩ := pools_apply h other
  refine ⟨ahead.filed.apply h, fun vip hvip a read => ?_, lastVip ▸ ahead.room⟩
  cases vips_apply ahead.filed h hvip with
  | inl former => exact lastVip ▸ ahead.before vip former a read
  | inr next =>
      obtain ⟨-, k, p, own⟩ := next
      exact absurd own (other k p)

/-- The pool goes on after the highest VIP in use, which may be further back than before. -/
theorem Ahead.restart {left : Nat} (ahead : inv.Ahead left) :
    (ofSnapshot inv.snapshot).Ahead left := by
  have room := ahead.room
  refine ⟨filed_ofSnapshot _, fun vip hvip a read => ?_, ?_⟩
  · rw [ahead.filed.snapshot_ofSnapshot] at hvip
    by_cases below : a.value.val ≤ vipPool.value.val
    · omega
    · have bound := ahead.before vip hvip a read
      have position : offsetIn? vipPool vip = some (a.value.val - vipPool.value.val) :=
        offsetIn?_eq_some_iff.2 ⟨a, read, by omega, by omega⟩
      have counted : a.value.val - vipPool.value.val ≤ (ofSnapshot inv.snapshot).lastVip :=
        le_highestOffset hvip position
      omega
  · have back : (ofSnapshot inv.snapshot).lastVip ≤ inv.lastVip :=
      highestOffset_le fun vip hvip n position => ahead.offset_le hvip position
    omega

/-- A cloud that is read from a snapshot has the rest of the pool before it, if no VIP of the
snapshot is an address beyond the pool. -/
theorem ahead_ofSnapshot {s : Snapshot}
    (low : ∀ vip ∈ s.vips, ∀ a, Network.Ipv4.parse? vip = some a →
      a.value.val ≤ vipPool.value.val + poolSpan) :
    (ofSnapshot s).Ahead (poolSpan - highestOffset vipPool s.vips) := by
  have span := highestOffset_le_span vipPool s.vips
  have lastVip : (ofSnapshot s).lastVip = highestOffset vipPool s.vips := rfl
  refine ⟨filed_ofSnapshot s, fun vip hvip a read => ?_, by omega⟩
  have listed : vip ∈ s.vips := by
    rw [snapshot_ofSnapshot] at hvip
    simpa [Snapshot.vips, byName, List.mem_mergeSort] using hvip
  by_cases below : a.value.val ≤ vipPool.value.val
  · omega
  · have bound := low vip listed a read
    have position : offsetIn? vipPool vip = some (a.value.val - vipPool.value.val) :=
      offsetIn?_eq_some_iff.2 ⟨a, read, by omega, by omega⟩
    have counted := le_highestOffset listed position
    omega

end Inventory

namespace Cloud

open Inventory (highestOffset poolSpan vipPool)

variable {cloud : Cloud} {left : Nat}

/-- Whether a balancer is created. -/
def founds (cloud : Cloud) : Happening → Bool
  | .call (.create k p) => (cloud.perform (.create k p)).1.isOk
  | _ => false

/-- How many balancers are created in the course of what happens to a cloud. -/
def creations (cloud : Cloud) : List Happening → Nat
  | [] => 0
  | happening :: rest =>
    (if cloud.founds happening then 1 else 0) + (cloud.undergo happening).creations rest

theorem creations_append (cloud : Cloud) (earlier later : List Happening) :
    cloud.creations (earlier ++ later) =
      cloud.creations earlier + (earlier.foldl undergo cloud).creations later := by
  induction earlier generalizing cloud with
  | nil => simp [creations]
  | cons happening rest ih =>
      simp only [List.cons_append, creations, List.foldl_cons, ih, Nat.add_assoc]

theorem ahead_undergo {happening : Happening}
    (ahead : cloud.inventory.Ahead ((if cloud.founds happening then 1 else 0) + left)) :
    (cloud.undergo happening).inventory.Ahead left := by
  have further := ahead.mono (Nat.le_add_left left _)
  cases happening with
  | call c =>
      cases cloud.perform_outcome c with
      | inl refused =>
          obtain ⟨e, -, same⟩ := refused
          rwa [undergo, same]
      | inr answered =>
          obtain ⟨answer, accepted, happly⟩ := answered
          by_cases creation : ∃ k p, c = .create k p
          · obtain ⟨k, p, rfl⟩ := creation
            simp only [founds, accepted, Except.isOk, Except.toBool, if_true,
              Nat.add_comm 1 left] at ahead
            exact ahead.create happly
          · exact further.apply (fun k p own => creation ⟨k, p, own⟩) happly
  | failOn op e => exact further
  | addToGroup name instanceIds =>
      refine ⟨filed_undergo further.filed (.addToGroup name instanceIds), ?_, further.room⟩
      exact further.before
  | restart => exact further.restart

theorem ahead_undergoAll {run : List Happening}
    (ahead : cloud.inventory.Ahead (cloud.creations run + left)) :
    (run.foldl undergo cloud).inventory.Ahead left := by
  induction run generalizing cloud with
  | nil => exact ahead.mono (Nat.le_add_left left _)
  | cons happening rest ih =>
      rw [creations, Nat.add_assoc] at ahead
      exact ih (ahead_undergo ahead)

/-- The VIP of a new balancer is that of no balancer there is, whatever has happened since a
snapshot without VIPs beyond the pool was read, until the pool is used up. -/
theorem created_vip_unused (s : Snapshot)
    (low : ∀ vip ∈ s.vips, ∀ a, Network.Ipv4.parse? vip = some a →
      a.value.val ≤ vipPool.value.val + poolSpan)
    (earlier later : List Happening) {k : Kind} (port : k.Port) {vip : String}
    (room : (ofSnapshot s).creations (earlier ++ .call (.create k port) :: later) ≤
      poolSpan - highestOffset vipPool s.vips)
    (created : ((earlier.foldl undergo (ofSnapshot s)).perform (.create k port)).1 = .ok vip) :
    vip ∉ (earlier.foldl undergo (ofSnapshot s)).snapshot.vips := by
  have counted :
      (ofSnapshot s).creations earlier + 1 ≤ poolSpan - highestOffset vipPool s.vips := by
    simp only [creations_append, creations, founds, created, Except.isOk, Except.toBool,
      if_true] at room
    omega
  have start : (ofSnapshot s).inventory.Ahead ((ofSnapshot s).creations earlier + 1) :=
    (Inventory.ahead_ofSnapshot low).mono counted
  have ahead := ahead_undergoAll start
  obtain ⟨next, -⟩ := Inventory.pools_create (perform_eq_ok (Prod.ext created rfl))
  rw [next]
  exact ahead.next_unused

end Cloud

/-- A balancer comes and goes, and after a restart its VIP is given to another of the other kind. -/
theorem Cloud.created_vip_unused_scattered :
    let fresh := Sample.plainPort "new" 80 ""
    let earlier : List Happening :=
      [.call (.create .l4 fresh), .call (.deletePort .l4 fresh), .restart]
    let next : ElasticPort := { fresh with name := "next", attachment := {} }
    let later : List Happening := [.call (.create .l4 fresh)]
    let cloud := earlier.foldl undergo (ofSnapshot Sample.scattered)
    (ofSnapshot Sample.scattered).creations
        (earlier ++ .call (.create .elastic next) :: later) = 3 ∧
      ((ofSnapshot Sample.scattered).perform (.create .l4 fresh)).1 = .ok "203.0.113.6" ∧
      (cloud.perform (.create .elastic next)).1 = .ok "203.0.113.6" ∧
      "203.0.113.6" ∉ cloud.snapshot.vips := by
  intro fresh earlier next later cloud
  have low : ∀ vip ∈ Sample.scattered.vips, ∀ a, Network.Ipv4.parse? vip = some a →
      a.value.val ≤ Inventory.vipPool.value.val + Inventory.poolSpan := by decide
  have room : (ofSnapshot Sample.scattered).creations
      (earlier ++ .call (.create .elastic next) :: later) ≤
        Inventory.poolSpan - Inventory.highestOffset Inventory.vipPool Sample.scattered.vips := by
    decide
  have created : (cloud.perform (.create .elastic next)).1 = .ok "203.0.113.6" := by decide
  refine ⟨by decide, by decide, created, ?_⟩
  exact created_vip_unused Sample.scattered low earlier later (k := .elastic) next room created

end CloudBalancer
