import CloudBalancer.Proofs.AddressPools
import Mathlib.Data.List.DropRight
import Mathlib.Data.List.Forall2
import Mathlib.Data.List.Nodup

/-!
The addresses of interfaces. A new elastic balancer states those that it wants, and gets positions
of the pool, one after the other, for the interfaces that state none. A restart looks at all
addresses in use, where the pool goes on; a creation looks at none. So an address of the pool that
is in use beyond the last position was stated since the last restart, and those are the only ones
that can be handed out twice, as long as everything fits into the pool.
-/

namespace CloudBalancer

/-- The address that the interface is to have. -/
def NetworkInterface.stated (interface : NetworkInterface) : Option String :=
  interface.ipAddress.filter (· ≠ "")

/-- Whether the interface is to get an address of its own. -/
def NetworkInterface.isVacant (interface : NetworkInterface) : Bool :=
  interface.stated.isNone && !interface.isVipNetwork

def statedAddresses (interfaces : List NetworkInterface) : List String :=
  interfaces.filterMap NetworkInterface.stated

theorem statedAddresses_append (interfaces more : List NetworkInterface) :
    statedAddresses (interfaces ++ more) = statedAddresses interfaces ++ statedAddresses more :=
  List.filterMap_append

def vacancies (interfaces : List NetworkInterface) : Nat :=
  interfaces.countP NetworkInterface.isVacant

/-- The addresses that the interfaces of all elastic balancers have. -/
def Snapshot.interfaceAddresses (s : Snapshot) : List String :=
  (s.elastic.flatMap fun p => p.attachment.interfaces).filterMap NetworkInterface.ipAddress

/-- Every interface that was to get an address of its own has one that no other interface of the
balancer has, and that is none of the others. -/
def OwnAddresses (others : List String) (asked filled : List NetworkInterface) : Prop :=
  List.Forall₂ (fun interface own => interface.isVacant = true → ∃ address,
    own.ipAddress = some address ∧
      (filled.filterMap NetworkInterface.ipAddress).count address = 1 ∧ address ∉ others)
    asked filled

namespace NetworkInterface

variable {interface : NetworkInterface} {address : String}

theorem stated_eq_some_iff :
    interface.stated = some address ↔ interface.ipAddress = some address ∧ address ≠ "" := by
  simp [stated, Option.filter_eq_some_iff]

theorem not_vacant_of_stated (own : interface.stated = some address) :
    interface.isVacant = false := by
  simp [isVacant, own]

theorem not_vacant_of_vipNetwork (vipNetwork : interface.isVipNetwork = true) :
    interface.isVacant = false := by
  simp [isVacant, vipNetwork]

theorem stated_of_vacant (vacant : interface.isVacant = true) : interface.stated = none := by
  simp only [isVacant, Bool.and_eq_true, Option.isNone_iff_eq_none] at vacant
  exact vacant.1

end NetworkInterface

namespace Inventory

/-- The interfaces are filled in with the VIP and with positions after `last`, up to `used`. -/
inductive HandsOut (vip : String) : Nat → List NetworkInterface → List NetworkInterface → Nat → Prop
  | nil (last : Nat) : HandsOut vip last [] [] last
  | kept {interface : NetworkInterface} {address : String} {last used : Nat}
    {asked filled : List NetworkInterface} (stated : interface.stated = some address)
    (rest : HandsOut vip last asked filled used) :
    HandsOut vip last (interface :: asked) (interface :: filled) used
  | onVip {interface : NetworkInterface} {last used : Nat} {asked filled : List NetworkInterface}
    (blank : interface.stated = none) (vipNetwork : interface.isVipNetwork = true)
    (rest : HandsOut vip last asked filled used) :
    HandsOut vip last (interface :: asked) ({ interface with ipAddress := some vip } :: filled) used
  | pooled {interface : NetworkInterface} {last used : Nat}
    {asked filled : List NetworkInterface} (vacant : interface.isVacant = true)
    (rest : HandsOut vip (last + 1) asked filled used) :
    HandsOut vip last (interface :: asked)
      ({ interface with ipAddress := some (addressAt (last + 1)) } :: filled) used

variable {vip : String} {last used : Nat} {asked filled : List NetworkInterface}

theorem handsOut_fillInterfaces (vip : String) (last : Nat) (asked : List NetworkInterface) :
    HandsOut vip last asked (fillInterfaces vip last asked).1
      (fillInterfaces vip last asked).2 := by
  induction asked generalizing last with
  | nil => exact .nil last
  | cons interface rest ih =>
      unfold fillInterfaces
      split
      next given =>
        cases held : interface.ipAddress with
        | none => simp [held] at given
        | some address =>
            have apart : address ≠ "" := by simpa [held] using given
            exact .kept (NetworkInterface.stated_eq_some_iff.2 ⟨held, apart⟩) (ih last)
      next given =>
        have blank : interface.stated = none := by
          refine Option.eq_none_iff_forall_ne_some.2 fun address stated => given ?_
          have own := NetworkInterface.stated_eq_some_iff.1 stated
          simpa [own.1] using own.2
        split
        next vipNetwork => exact .onVip blank vipNetwork (ih last)
        next inside =>
          have vacant : interface.isVacant = true := by
            simp [NetworkInterface.isVacant, blank, inside]
          exact .pooled vacant (ih (last + 1))

namespace HandsOut

open NetworkInterface (not_vacant_of_stated not_vacant_of_vipNetwork stated_of_vacant)

theorem used_eq (handsOut : HandsOut vip last asked filled used) :
    used = last + vacancies asked := by
  induction handsOut with
  | nil last => rfl
  | kept stated rest ih => simp [ih, vacancies, not_vacant_of_stated stated]
  | onVip blank vipNetwork rest ih => simp [ih, vacancies, not_vacant_of_vipNetwork vipNetwork]
  | pooled vacant rest ih =>
      simp only [ih, vacancies, List.countP_cons_of_pos vacant]
      omega

theorem length_eq (handsOut : HandsOut vip last asked filled used) :
    asked.length = filled.length := by
  induction handsOut with
  | nil last => rfl
  | kept stated rest ih => simp [ih]
  | onVip blank vipNetwork rest ih => simp [ih]
  | pooled vacant rest ih => simp [ih]

/-- The vacancies get the positions in order. -/
theorem positions (handsOut : HandsOut vip last asked filled used) :
    ((asked.zip filled).filter fun pair => pair.1.isVacant).map (fun pair => pair.2.ipAddress) =
      (List.range' (last + 1) (vacancies asked)).map fun n => some (addressAt n) := by
  induction handsOut with
  | nil last => rfl
  | kept stated rest ih => simp [ih, vacancies, not_vacant_of_stated stated]
  | onVip blank vipNetwork rest ih => simp [ih, vacancies, not_vacant_of_vipNetwork vipNetwork]
  | pooled vacant rest ih => simp [ih, vacancies, vacant, List.range'_succ]

/-- All addresses there are after that, in some order. -/
theorem addresses (handsOut : HandsOut vip last asked filled used) :
    ∃ shared, (filled.filterMap NetworkInterface.ipAddress).Perm
      (statedAddresses asked ++
        (List.replicate shared vip ++
          (List.range' (last + 1) (vacancies asked)).map addressAt)) := by
  induction handsOut with
  | nil last => exact ⟨0, .refl _⟩
  | kept stated rest ih =>
      obtain ⟨shared, perm⟩ := ih
      refine ⟨shared, ?_⟩
      have own := (NetworkInterface.stated_eq_some_iff.1 stated).1
      simpa [statedAddresses, vacancies, stated, own, not_vacant_of_stated stated] using perm
  | onVip blank vipNetwork rest ih =>
      obtain ⟨shared, perm⟩ := ih
      refine ⟨shared + 1, ?_⟩
      simp only [statedAddresses, vacancies, List.filterMap_cons, blank, List.replicate_succ,
        List.countP_cons, not_vacant_of_vipNetwork vipNetwork]
      exact (perm.cons vip).trans List.perm_middle.symm
  | @pooled interface last used asked filled vacant rest ih =>
      obtain ⟨shared, perm⟩ := ih
      refine ⟨shared, ?_⟩
      simp only [statedAddresses, vacancies, List.filterMap_cons, stated_of_vacant vacant,
        List.countP_cons_of_pos vacant, List.range'_succ, List.map_cons]
      refine (perm.cons (addressAt (last + 1))).trans ?_
      rw [← List.append_assoc, ← List.append_assoc]
      exact List.perm_middle.symm

end HandsOut

section Positions

variable {m n : Nat}

theorem offsetIn?_addressAt (span : n ≤ poolSpan) :
    offsetIn? addressPool (addressAt n) = some n :=
  offsetIn?_advance span (by decide)

theorem offset_addressAt_le (position : offsetIn? addressPool (addressAt n) = some m) :
    m ≤ n := by
  obtain ⟨a, read, value, -⟩ := offsetIn?_eq_some_iff.1 position
  rw [addressAt, Network.Ipv4.parse?_text] at read
  cases read
  simp only [Network.Ipv4.advance] at value
  omega

/-- VIPs are from elsewhere. -/
theorem offset_vipAt (n : Nat) : offsetIn? addressPool (vipAt n) = none := by
  refine Option.eq_none_iff_forall_ne_some.2 fun m position => ?_
  obtain ⟨a, read, value, span⟩ := offsetIn?_eq_some_iff.1 position
  rw [vipAt, Network.Ipv4.parse?_text] at read
  cases read
  have beyond : addressPool.value.val + poolSpan < vipPool.value.val := by decide
  have below : vipPool.value.val ≤ 0xFFFFFFFF := by decide
  simp only [Network.Ipv4.advance] at value
  omega

theorem nodup_addressAt {length : Nat} (room : last + length ≤ poolSpan) :
    ((List.range' (last + 1) length).map addressAt).Nodup := by
  refine List.Nodup.map_on (fun n hn m hm same => ?_) List.nodup_range'
  rw [List.mem_range'_1] at hn hm
  have position := offsetIn?_addressAt (n := n) (by omega)
  rw [same, offsetIn?_addressAt (by omega)] at position
  exact (Option.some.inj position).symm

end Positions

theorem HandsOut.count_eq_one_iff (handsOut : HandsOut vip last asked filled used)
    (room : used ≤ poolSpan) (outside : offsetIn? addressPool vip = none) {n : Nat}
    (later : last < n) (bound : n ≤ used) :
    (filled.filterMap NetworkInterface.ipAddress).count (addressAt n) = 1 ↔
      addressAt n ∉ statedAddresses asked := by
  have used_eq := handsOut.used_eq
  obtain ⟨shared, perm⟩ := handsOut.addresses
  have other : addressAt n ∉ List.replicate shared vip := by
    intro hmem
    rw [← List.eq_of_mem_replicate hmem, offsetIn?_addressAt (by omega)] at outside
    cases outside
  have handed : addressAt n ∈ (List.range' (last + 1) (vacancies asked)).map addressAt :=
    List.mem_map.2 ⟨n, List.mem_range'_1.2 (by omega), rfl⟩
  have once : ((List.range' (last + 1) (vacancies asked)).map addressAt).count (addressAt n) = 1 :=
    List.count_eq_one_of_mem (nodup_addressAt (by omega)) handed
  rw [perm.count_eq, List.count_append, List.count_append, List.count_eq_zero.2 other, once,
    ← List.count_eq_zero]
  omega

/-- What was handed out is each interface's own unless it was stated on the new balancer or is one
of the others. -/
theorem HandsOut.own_iff (handsOut : HandsOut vip last asked filled used) (room : used ≤ poolSpan)
    (outside : offsetIn? addressPool vip = none) (others : List String) :
    OwnAddresses others asked filled ↔ ∀ n, last < n → n ≤ used →
      addressAt n ∉ statedAddresses asked ∧ addressAt n ∉ others := by
  have used_eq := handsOut.used_eq
  rw [OwnAddresses, List.forall₂_iff_zip]
  constructor
  · intro ⟨_, own⟩ n later bound
    have handed : some (addressAt n) ∈
        (List.range' (last + 1) (vacancies asked)).map fun n => some (addressAt n) :=
      List.mem_map.2 ⟨n, List.mem_range'_1.2 (by omega), rfl⟩
    rw [← handsOut.positions] at handed
    obtain ⟨pair, hpair, address⟩ := List.mem_map.1 handed
    obtain ⟨hzip, vacant⟩ := List.mem_filter.1 hpair
    obtain ⟨a, has, alone, free⟩ := own hzip vacant
    cases has.symm.trans address
    exact ⟨(handsOut.count_eq_one_iff room outside later bound).1 alone, free⟩
  · intro free
    refine ⟨handsOut.length_eq, fun {interface own} hzip vacant => ?_⟩
    have handed : own.ipAddress ∈ ((asked.zip filled).filter fun pair => pair.1.isVacant).map
        fun pair => pair.2.ipAddress :=
      List.mem_map.2 ⟨(interface, own), List.mem_filter.2 ⟨hzip, vacant⟩, rfl⟩
    rw [handsOut.positions] at handed
    obtain ⟨n, hn, address⟩ := List.mem_map.1 handed
    have range := List.mem_range'_1.1 hn
    have later : last < n := by omega
    have bound : n ≤ used := by omega
    have alone := handsOut.count_eq_one_iff room outside later bound
    exact ⟨addressAt n, address.symm, alone.2 (free n later bound).1, (free n later bound).2⟩

section Balancers

variable {inv after : Inventory} {c : Call} {address : String}

theorem mem_interfaceAddresses : address ∈ inv.snapshot.interfaceAddresses ↔
    ∃ name, ∃ p ∈ inv.ports .elastic name,
      address ∈ p.attachment.interfaces.filterMap NetworkInterface.ipAddress := by
  simp only [Snapshot.interfaceAddresses, snapshot, List.mem_filterMap, List.mem_flatMap,
    mem_allPorts]
  constructor
  · intro held
    obtain ⟨interface, ⟨p, ⟨name, hp⟩, hinterface⟩, own⟩ := held
    exact ⟨name, p, hp, interface, hinterface, own⟩
  · intro held
    obtain ⟨name, p, hp, interface, hinterface, own⟩ := held
    exact ⟨interface, ⟨p, ⟨name, hp⟩, hinterface⟩, own⟩

/-- The addresses that a call brings are those of a new balancer. -/
theorem interfaceAddresses_apply (filed : inv.Filed) {answer : c.Answer}
    (h : inv.apply c = .ok (answer, after)) (held : address ∈ after.snapshot.interfaceAddresses) :
    address ∈ inv.snapshot.interfaceAddresses ∨ ∃ p : ElasticPort, c = .create .elastic p ∧
      address ∈ (inv.firstPort (k := .elastic) p).attachment.interfaces.filterMap
        NetworkInterface.ipAddress := by
  obtain ⟨name, p, hp, own⟩ := mem_interfaceAddresses.1 held
  have former : ∀ q ∈ inv.ports .elastic name,
      ∀ address ∈ q.attachment.interfaces.filterMap NetworkInterface.ipAddress,
        address ∈ inv.snapshot.interfaceAddresses ∨ ∃ p : ElasticPort, c = .create .elastic p ∧
          address ∈ (inv.firstPort (k := .elastic) p).attachment.interfaces.filterMap
            NetworkInterface.ipAddress :=
    fun q hq t ht => .inl (mem_interfaceAddresses.2 ⟨name, q, hq, ht⟩)
  refine forall_ports_apply (k := .elastic) ((filed .elastic).solid name) h former ?_ ?_ ?_ p hp
    address own
  · exact fun q own _ t ht => .inr ⟨q, own, ht⟩
  · exact fun q first _ known => known
  · intro d q new revises _ known
    rwa [revises.attachment]

end Balancers

/-- How far the pool is ever used for these interfaces: what is handed out may go on after the
highest address that is stated. -/
def reach (interfaces : List NetworkInterface) : Nat :=
  highestOffset addressPool (statedAddresses interfaces) + vacancies interfaces

section Reach

variable {interfaces more : List NetworkInterface}

theorem offset_le_reach {address : String} {n : Nat} (stated : address ∈ statedAddresses interfaces)
    (position : offsetIn? addressPool address = some n) : n ≤ reach interfaces :=
  (le_highestOffset stated position).trans (Nat.le_add_right ..)

theorem reach_append (interfaces more : List NetworkInterface) :
    reach interfaces + vacancies more ≤ reach (interfaces ++ more) := by
  have higher : highestOffset addressPool (statedAddresses interfaces) ≤
      highestOffset addressPool (statedAddresses (interfaces ++ more)) := by
    refine highestOffset_le fun address stated n position => le_highestOffset ?_ position
    rw [statedAddresses_append]
    exact List.mem_append_left _ stated
  have counted : vacancies (interfaces ++ more) = vacancies interfaces + vacancies more :=
    List.countP_append
  simp only [reach, counted]
  omega

end Reach

/-- Addresses of the pool that interfaces have beyond the last position were stated since the last
restart. -/
structure Numbered (inv : Inventory) (since ever : List NetworkInterface) : Prop where
  filed : inv.Filed
  known : ∀ address ∈ inv.snapshot.interfaceAddresses, ∀ n,
    offsetIn? addressPool address = some n →
      n ≤ inv.lastAddress ∨ address ∈ statedAddresses since
  recent : since ⊆ ever
  within : inv.lastAddress ≤ reach ever

namespace Numbered

variable {inv after : Inventory} {since ever : List NetworkInterface} {c : Call}

theorem more (numbered : inv.Numbered since ever) (interfaces : List NetworkInterface) :
    inv.Numbered (since ++ interfaces) (ever ++ interfaces) := by
  have further := reach_append ever interfaces
  have within := numbered.within
  refine ⟨numbered.filed, fun address held n position => ?_, ?_, by omega⟩
  · refine (numbered.known address held n position).imp_right fun stated => ?_
    rw [statedAddresses_append]
    exact List.mem_append_left _ stated
  · exact List.append_subset.2
      ⟨List.subset_append_of_subset_left _ numbered.recent, List.subset_append_right ..⟩

theorem create (numbered : inv.Numbered since ever) {p : ElasticPort} {vip : String}
    (h : inv.create .elastic p = .ok (vip, after)) :
    after.Numbered (since ++ p.attachment.interfaces) (ever ++ p.attachment.interfaces) := by
  obtain ⟨rfl, -, used⟩ := pools_create h
  have handsOut := handsOut_fillInterfaces (vipAt (inv.lastVip + 1)) inv.lastAddress
    p.attachment.interfaces
  have position : after.lastAddress = inv.lastAddress + vacancies p.attachment.interfaces :=
    used.trans handsOut.used_eq
  have further := reach_append ever p.attachment.interfaces
  have more := numbered.more p.attachment.interfaces
  have within := numbered.within
  refine ⟨numbered.filed.apply (c := .create .elastic p) h, fun address held n hn => ?_,
    more.recent, by omega⟩
  cases interfaceAddresses_apply (c := .create .elastic p) numbered.filed h held with
  | inl former => exact (more.known address former n hn).imp_left fun below => by omega
  | inr own =>
      obtain ⟨q, same, own⟩ := own
      cases same
      obtain ⟨shared, perm⟩ := handsOut.addresses
      have origin := perm.mem_iff.1 own
      simp only [List.mem_append, List.mem_map] at origin
      rcases origin with stated | onVip | ⟨m, hm, rfl⟩
      · refine .inr ?_
        rw [statedAddresses_append]
        exact List.mem_append_right _ stated
      · rw [List.eq_of_mem_replicate onVip, offset_vipAt] at hn
        cases hn
      · have range := List.mem_range'_1.1 hm
        have bound := offset_addressAt_le hn
        exact .inl (by omega)

theorem apply (numbered : inv.Numbered since ever) (other : ∀ p, c ≠ .create .elastic p)
    {answer : c.Answer} (h : inv.apply c = .ok (answer, after)) : after.Numbered since ever := by
  have lastAddress : after.lastAddress = inv.lastAddress := by
    by_cases creation : ∃ k p, c = .create k p
    · obtain ⟨k, p, rfl⟩ := creation
      cases k with
      | l4 => exact (pools_create h).2.2
      | elastic => exact absurd rfl (other p)
    · exact (pools_apply h fun k p own => creation ⟨k, p, own⟩).2
  refine ⟨numbered.filed.apply h, fun address held n position => ?_, numbered.recent,
    lastAddress ▸ numbered.within⟩
  cases interfaceAddresses_apply numbered.filed h held with
  | inl former => exact lastAddress ▸ numbered.known address former n position
  | inr own =>
      obtain ⟨p, same, -⟩ := own
      exact absurd same (other p)

/-- The pool goes on after all addresses in use, whoever stated them. -/
theorem restart (numbered : inv.Numbered since ever) :
    (ofSnapshot inv.snapshot).Numbered [] ever := by
  refine ⟨filed_ofSnapshot _, fun address held n position => ?_, List.nil_subset _, ?_⟩
  · rw [numbered.filed.snapshot_ofSnapshot] at held
    exact .inl (le_highestOffset held position)
  · refine highestOffset_le fun address held n position => ?_
    cases numbered.known address held n position with
    | inl below => exact below.trans numbered.within
    | inr stated =>
        obtain ⟨interface, hinterface, own⟩ := List.mem_filterMap.1 stated
        have ever : address ∈ statedAddresses ever :=
          List.mem_filterMap.2 ⟨interface, numbered.recent hinterface, own⟩
        exact offset_le_reach ever position

end Numbered

end Inventory

namespace Happening

/-- The interfaces that a balancer is created with, which may be refused. -/
def interfaces : Happening → List NetworkInterface
  | .call (.create .elastic p) => p.attachment.interfaces
  | _ => []

def isRestart : Happening → Bool
  | .restart => true
  | _ => false

end Happening

namespace Cloud

open Inventory (addressAt poolSpan reach)

variable {cloud : Cloud} {since ever : List NetworkInterface}

/-- The interfaces that are asked for in the course of what happens. -/
def askedFor (run : List Happening) : List NetworkInterface :=
  run.flatMap Happening.interfaces

/-- What has happened since the last restart. -/
def sinceRestart (run : List Happening) : List Happening :=
  run.rtakeWhile fun happening => !happening.isRestart

theorem numbered_undergo (numbered : cloud.inventory.Numbered since ever) {happening : Happening}
    (on : happening.isRestart = false) :
    (cloud.undergo happening).inventory.Numbered (since ++ happening.interfaces)
      (ever ++ happening.interfaces) := by
  cases happening with
  | call c =>
      have unheeded := numbered.more (Happening.call c).interfaces
      cases cloud.perform_inventory c with
      | inl same => rwa [undergo, same]
      | inr changed =>
          obtain ⟨answer, happly⟩ := changed
          by_cases creation : ∃ p, c = .create .elastic p
          · obtain ⟨p, rfl⟩ := creation
            exact numbered.create happly
          · exact unheeded.apply (fun p own => creation ⟨p, own⟩) happly
  | failOn op e => exact numbered.more []
  | addToGroup name instanceIds =>
      have same := numbered.more []
      exact ⟨filed_undergo numbered.filed (.addToGroup name instanceIds), same.known, same.recent,
        same.within⟩
  | restart => cases on

theorem numbered_undergoAll (run : List Happening) :
    (run.foldl undergo {}).inventory.Numbered (askedFor (sinceRestart run)) (askedFor run) := by
  induction run using List.reverseRecOn with
  | nil =>
      refine ⟨Inventory.filed_ofSnapshot {}, fun address held => ?_, List.nil_subset _, ?_⟩
      · cases held
      · exact Nat.zero_le _
  | append_singleton run happening ih =>
      rw [List.foldl_append, askedFor, askedFor, sinceRestart, List.rtakeWhile_concat,
        List.flatMap_append]
      cases on : happening.isRestart with
      | false => simpa [askedFor, sinceRestart] using numbered_undergo ih on
      | true =>
          cases happening with
          | restart =>
              have restarted : ((run.foldl undergo {}).undergo .restart).inventory.Numbered []
                (askedFor run) := ih.restart
              simpa [askedFor, Happening.interfaces] using restarted
          | call | failOn | addToGroup => cases on

/-- A new elastic balancer gets the next positions of the pool, until it is used up, for the
interfaces that state no address. These addresses are no other interface's if and only if none of
them was stated: on the new balancer, or since the last restart on one that still has it. -/
theorem new_addresses_own_iff (run : List Happening) {p : ElasticPort} {vip : String}
    {after : Cloud}
    (created : (run.foldl undergo {}).perform (.create .elastic p) = (.ok vip, after))
    (room : reach (askedFor run) + vacancies p.attachment.interfaces ≤ poolSpan) :
    let cloud := run.foldl undergo {}
    let used := cloud.inventory.lastAddress + vacancies p.attachment.interfaces
    ∃ stored : ElasticPort, after.inventory.ports .elastic p.name = [stored] ∧
      (OwnAddresses cloud.snapshot.interfaceAddresses p.attachment.interfaces
          stored.attachment.interfaces ↔
        ∀ n, cloud.inventory.lastAddress < n → n ≤ used →
          addressAt n ∉ statedAddresses p.attachment.interfaces ∧
            (addressAt n ∈ cloud.snapshot.interfaceAddresses →
              addressAt n ∉ statedAddresses (askedFor (sinceRestart run)))) := by
  intro cloud used
  have numbered : cloud.inventory.Numbered (askedFor (sinceRestart run)) (askedFor run) :=
    numbered_undergoAll run
  have within : cloud.inventory.lastAddress ≤ reach (askedFor run) := numbered.within
  have happly : cloud.inventory.create .elastic p = .ok (vip, after.inventory) :=
    perform_eq_ok created
  have handsOut := Inventory.handsOut_fillInterfaces (Inventory.vipAt (cloud.inventory.lastVip + 1))
    cloud.inventory.lastAddress p.attachment.interfaces
  rw [handsOut.used_eq] at handsOut
  refine ⟨cloud.inventory.firstPort (k := .elastic) p, ?_, ?_⟩
  · rw [(Inventory.create_eq_ok happly).2, Inventory.ports_withPorts]
  · refine (handsOut.own_iff (by omega) (Inventory.offset_vipAt _) _).trans ?_
    constructor
    · intro free n later bound
      exact ⟨(free n later bound).1, fun held => absurd held (free n later bound).2⟩
    · intro free n later bound
      refine ⟨(free n later bound).1, fun held => (free n later bound).2 held ?_⟩
      have position := Inventory.offsetIn?_addressAt (n := n) (by omega)
      exact (numbered.known _ held n position).resolve_left (by omega)

end Cloud

namespace Sample

/-- A port of a balancer that is on the VIP network and on a private one. -/
def bridgingPort (name : String) (address : Option String) : ElasticPort where
  name
  settings := {}
  pair := ⟨80, 30080⟩
  healthCheck := {}
  backends := []
  filters := []
  vip := ""
  attachment :=
    { interfaces :=
        [{ networkId := commonGlobalNetwork, isVipNetwork := true },
          { networkId := "net-1", ipAddress := address }] }

end Sample

/-- After a restart the stated address is behind the last position. -/
theorem Cloud.restarted_passes_stated_address :
    let first := Sample.bridgingPort "a" (some "10.1.0.1")
    let second := Sample.bridgingPort "b" none
    let run : List Happening := [.call (.create .elastic first), .restart]
    let cloud := run.foldl undergo {}
    (cloud.perform (.create .elastic second)).1 = .ok "203.0.113.2" ∧
      ∃ stored : ElasticPort,
        (cloud.perform (.create .elastic second)).2.inventory.ports .elastic "b" = [stored] ∧
          OwnAddresses cloud.snapshot.interfaceAddresses second.attachment.interfaces
            stored.attachment.interfaces := by
  intro first second run cloud
  have answered : (cloud.perform (.create .elastic second)).1 = .ok "203.0.113.2" := by decide
  have room : Inventory.reach (askedFor run) + vacancies second.attachment.interfaces ≤
      Inventory.poolSpan := by decide
  refine ⟨answered, ?_⟩
  obtain ⟨stored, held, own_iff⟩ := new_addresses_own_iff run (p := second)
    (Prod.ext answered rfl) room
  refine ⟨stored, held, own_iff.2 fun n later bound => ?_⟩
  have last : cloud.inventory.lastAddress = 1 := by decide
  have used : cloud.inventory.lastAddress + vacancies second.attachment.interfaces = 2 := by decide
  have beyond : 1 < n := by rwa [last] at later
  have next : n = 2 := Nat.le_antisymm (bound.trans_eq used) beyond
  subst next
  exact ⟨by decide, by decide⟩

/-- A creation hands out what was stated for another balancer before. -/
theorem Cloud.stated_address_handed_out :
    let first := Sample.bridgingPort "a" (some "10.1.0.1")
    let second := Sample.bridgingPort "b" none
    let cloud := (Cloud.perform {} (.create .elastic first)).2
    "10.1.0.1" ∈ cloud.snapshot.interfaceAddresses ∧
      ∃ stored : ElasticPort,
        (cloud.perform (.create .elastic second)).2.inventory.ports .elastic "b" = [stored] ∧
          stored.attachment.interfaces.map NetworkInterface.ipAddress =
            [some "203.0.113.2", some "10.1.0.1"] ∧
          ¬ OwnAddresses cloud.snapshot.interfaceAddresses second.attachment.interfaces
            stored.attachment.interfaces := by
  intro first second cloud
  have there : "10.1.0.1" ∈ cloud.snapshot.interfaceAddresses := by decide
  refine ⟨there, { second with
    vip := "203.0.113.2"
    attachment := { second.attachment with interfaces :=
      [{ networkId := commonGlobalNetwork, ipAddress := some "203.0.113.2", isVipNetwork := true },
        { networkId := "net-1", ipAddress := some "10.1.0.1" }] } }, by decide, by decide, ?_⟩
  intro own
  have vacancy := (List.forall₂_cons.1 (List.forall₂_cons.1 own).2).1
  obtain ⟨address, given, -, free⟩ := vacancy (by decide)
  cases given
  exact free there

end CloudBalancer
