import CloudBalancer.Proofs.Numerals
import CloudBalancer.Service.Desired

/-!
What a service has to declare to get a balancer: its policy, its ports, and for an elastic balancer
its interfaces. Every declaration is a condition on what is written in the service, annotation by
annotation; next to it stands that the reader of that part accepts exactly the services that meet
it, and what it makes of them.
-/

namespace CloudBalancer

theorem bind_eq_ok_iff {ε α β : Type} {x : Except ε α} {f : α → Except ε β} {b : β} :
    (x >>= f) = .ok b ↔ ∃ a, x = .ok a ∧ f a = .ok b := by
  cases x <;> simp [bind, Except.bind]

theorem bind_eq_error_iff {ε α β : Type} {x : Except ε α} {f : α → Except ε β} {e : ε} :
    (x >>= f) = .error e ↔ x = .error e ∨ ∃ a, x = .ok a ∧ f a = .error e := by
  cases x <;> simp [bind, Except.bind]

theorem pure_eq_ok_iff {ε α : Type} {a b : α} : (pure a : Except ε α) = .ok b ↔ a = b := by
  simp [pure, Except.pure]

theorem map_eq_ok_iff {ε α β : Type} {x : Except ε α} {f : α → β} {b : β} :
    x.map f = .ok b ↔ ∃ a, x = .ok a ∧ f a = b := by
  cases x <;> simp [Except.map]

theorem mapError_eq_ok_iff {ε ε' α : Type} {x : Except ε α} {f : ε → ε'} {a : α} :
    x.mapError f = .ok a ↔ x = .ok a := by
  cases x <;> simp [Except.mapError]

/-- The reader takes what is `Good`, and makes of it what `meaning` says. -/
def Reads {ε α β : Type} (read : α → Except ε β) (Good : α → Prop) (meaning : α → β) : Prop :=
  ∀ a b, read a = .ok b ↔ Good a ∧ b = meaning a

namespace Reads

variable {ε α β : Type} {read : α → Except ε β} {Good : α → Prop} {meaning : α → β}

theorem mapError {ε' : Type} (reads : Reads read Good meaning) (f : α → ε → ε') :
    Reads (fun a => (read a).mapError (f a)) Good meaning := by
  intro a b
  exact mapError_eq_ok_iff.trans (reads a b)

theorem map {γ : Type} (reads : Reads read Good meaning) (f : β → γ) :
    Reads (fun a => (read a).map f) Good (fun a => f (meaning a)) := by
  intro a c
  rw [map_eq_ok_iff]
  constructor
  · intro ⟨b, taken, made⟩
    obtain ⟨good, meant⟩ := (reads a b).1 taken
    exact ⟨good, by rw [← made, meant]⟩
  · intro ⟨good, made⟩
    exact ⟨meaning a, (reads a _).2 ⟨good, rfl⟩, made.symm⟩

/-- A list is read if every part of it is. -/
theorem mapM (reads : Reads read Good meaning) :
    Reads (List.mapM read) (fun as => ∀ a ∈ as, Good a) (List.map meaning) := by
  intro as
  induction as with
  | nil =>
      intro bs
      rw [List.mapM_nil, pure_eq_ok_iff]
      simp [eq_comm]
  | cons a rest ih =>
      intro bs
      simp only [List.mapM_cons, bind_eq_ok_iff, reads a, ih, pure_eq_ok_iff, List.forall_mem_cons,
        List.map_cons]
      constructor
      · intro ⟨_, ⟨first, rfl⟩, _, ⟨others, rfl⟩, together⟩
        exact ⟨⟨first, others⟩, together.symm⟩
      · intro ⟨⟨first, others⟩, together⟩
        exact ⟨_, ⟨first, rfl⟩, _, ⟨others, rfl⟩, together.symm⟩

end Reads

/-- Of an unsigned number of 32 bits. -/
def IsWord (value : String) : Prop :=
  ∃ n ≤ 0xFFFFFFFF, Text.Numeral.Denotes value.toList n

def IsFlag (value : String) : Prop :=
  value = "true" ∨ value = "false"

def IsAddress (value : String) : Prop :=
  (Network.Address.parse? value).isSome

/-- The text under which an address is known; another text stays as it is. -/
def addressText (value : String) : String :=
  ((Network.Address.parse? value).map Network.Address.text).getD value

theorem readAddress_reads : Reads readAddress IsAddress addressText := by
  intro value text
  simp only [readAddress, IsAddress, addressText]
  cases Network.Address.parse? value with
  | none => simp
  | some address => simp [eq_comm]

namespace Annotations

variable {annotations : NameMap String} {key : String}

theorem readOr_eq_ok_iff {α : Type} {read : String → Except AnnotationFault α} {absent a : α} :
    readOr read annotations key absent = .ok a ↔
      match get? annotations key with
      | none => absent = a
      | some value => read value = .ok a := by
  rw [readOr]
  cases get? annotations key with
  | none => simp
  | some value => exact mapError_eq_ok_iff

theorem exists_word_iff {value : String} : (∃ n, word value = .ok n) ↔ IsWord value := by
  simp only [word, IsWord]
  constructor
  · intro ⟨n, read⟩
    cases numeral : Text.Numeral.read 0xFFFFFFFF value with
    | ok m =>
        have denotes := Text.Numeral.readChars_eq_ok_iff.1 numeral
        exact ⟨m, denotes.2, denotes.1⟩
    | error fault =>
        rw [numeral] at read
        cases fault <;> cases read
  · intro ⟨n, small, denotes⟩
    have numeral : Text.Numeral.read 0xFFFFFFFF value = .ok n :=
      Text.Numeral.readChars_eq_ok_iff.2 ⟨denotes, small⟩
    exact ⟨.ofNat n, by rw [numeral]⟩

/-- A number is read if it is absent or a number. -/
theorem exists_readOr_word_iff {absent : UInt32} :
    (∃ n, readOr word annotations key absent = .ok n) ↔
      ∀ value ∈ get? annotations key, IsWord value := by
  simp only [readOr_eq_ok_iff]
  cases get? annotations key with
  | none => simp
  | some value => simp [exists_word_iff]

/-- An annotation is read if it is absent or its reader takes it. -/
theorem readOr_reads {α : Type} {read : String → Except AnnotationFault α} {Good : String → Prop}
    {meaning : String → α} (reads : Reads read Good meaning) {absent a : α} :
    readOr read annotations key absent = .ok a ↔
      (∀ value ∈ get? annotations key, Good value) ∧
        a = ((get? annotations key).map meaning).getD absent := by
  rw [readOr_eq_ok_iff]
  cases get? annotations key with
  | none => simp [eq_comm]
  | some value => simp [reads value a]

theorem flag_reads : Reads flag IsFlag (· == "true") := by
  intro value b
  simp only [flag, IsFlag]
  split
  · next yes => simp [yes, eq_comm]
  · next no =>
    split
    · next isFalse => simp [isFalse, eq_comm]
    · next other => simp [no, other]

end Annotations

open Annotations

/-- The keys of the annotations that are numbers. -/
def numericKeys : List String :=
  [balancingType, accountingType, networkVolume, healthCheckInterval, healthCheckThreshold]

/-- The annotations of the policy are absent or have a meaning. -/
structure PolicyDeclared (annotations : NameMap String) : Prop where
  check : ∀ value ∈ get? annotations healthCheckProtocol, value = tcp ∨ value = icmp
  numbers : ∀ key ∈ numericKeys, ∀ value ∈ get? annotations key, IsWord value

namespace Policy

variable {annotations : NameMap String}

theorem echoChecks?_eq_ok_iff {echo : Bool} :
    echoChecks? annotations = .ok echo ↔
      (∀ value ∈ get? annotations healthCheckProtocol, value = tcp ∨ value = icmp) ∧
        echo = (get? annotations healthCheckProtocol == some icmp) := by
  rw [echoChecks?]
  cases get? annotations healthCheckProtocol with
  | none => simp [eq_comm]
  | some value =>
      simp only
      split
      · next isTcp =>
        have other : (some tcp == some icmp) = false := by decide
        rw [isTcp, other]
        simp [eq_comm]
      · next notTcp =>
        split
        · next isIcmp => simp [isIcmp, eq_comm]
        · next notIcmp => simp [notTcp, notIcmp]

theorem echoChecks_eq {policy : Policy} (read : ofAnnotations annotations = .ok policy) :
    policy.echoChecks = (get? annotations healthCheckProtocol == some icmp) := by
  simp only [ofAnnotations, bind_eq_ok_iff, pure_eq_ok_iff] at read
  obtain ⟨echo, checked, _, _, _, _, _, _, _, _, _, _, rfl⟩ := read
  exact (echoChecks?_eq_ok_iff.1 checked).2

theorem exists_ofAnnotations_iff :
    (∃ policy, ofAnnotations annotations = .ok policy) ↔ PolicyDeclared annotations := by
  simp only [ofAnnotations, bind_eq_ok_iff, pure_eq_ok_iff]
  constructor
  · intro ⟨_, _, checked, n₁, balancing, n₂, accounting, n₃, volume, n₄, interval, n₅, threshold, _⟩
    refine ⟨(echoChecks?_eq_ok_iff.1 checked).1, ?_⟩
    simp only [numericKeys, List.forall_mem_cons]
    exact ⟨exists_readOr_word_iff.1 ⟨n₁, balancing⟩, exists_readOr_word_iff.1 ⟨n₂, accounting⟩,
      exists_readOr_word_iff.1 ⟨n₃, volume⟩, exists_readOr_word_iff.1 ⟨n₄, interval⟩,
      exists_readOr_word_iff.1 ⟨n₅, threshold⟩, List.forall_mem_nil _⟩
  · intro declared
    have number (key : String) (numeric : key ∈ numericKeys) (absent : UInt32) :
        ∃ n, readOr word annotations key absent = .ok n :=
      exists_readOr_word_iff.2 (declared.numbers key numeric)
    obtain ⟨n₁, balancing⟩ := number balancingType (by simp [numericKeys]) 1
    obtain ⟨n₂, accounting⟩ := number accountingType (by simp [numericKeys]) 1
    obtain ⟨n₃, volume⟩ := number networkVolume (by simp [numericKeys]) 10
    obtain ⟨n₄, interval⟩ := number healthCheckInterval (by simp [numericKeys]) 10
    obtain ⟨n₅, threshold⟩ := number healthCheckThreshold (by simp [numericKeys]) 1
    exact ⟨_, _, echoChecks?_eq_ok_iff.2 ⟨declared.check, rfl⟩, n₁, balancing, n₂, accounting, n₃,
      volume, n₄, interval, n₅, threshold, rfl⟩

/-- The policy does not depend on the source ranges. -/
theorem ofAnnotations_congr {others : NameMap String}
    (same : ∀ key ≠ sourceRanges, annotations.get? key = others.get? key) :
    ofAnnotations annotations = ofAnnotations others := by
  have trimmed (key : String) (other : key ≠ sourceRanges) :
      get? annotations key = get? others key := by
    rw [get?, get?, same key other]
  have number (key : String) (absent : UInt32) (other : key ≠ sourceRanges) :
      readOr word annotations key absent = readOr word others key absent := by
    rw [readOr, readOr, trimmed key other]
  simp only [ofAnnotations, echoChecks?]
  rw [trimmed healthCheckProtocol (by decide), number balancingType 1 (by decide),
    number accountingType 1 (by decide), number networkVolume 10 (by decide),
    trimmed policyType (by decide), number healthCheckInterval 10 (by decide),
    number healthCheckThreshold 1 (by decide)]

end Policy

/-- The pair of a service port that has a node port. -/
def ServicePort.pair? (port : ServicePort) : Option PortPair :=
  match port.nodePort with
  | some nodePort => if nodePort = 0 then none else some ⟨port.port, nodePort⟩
  | none => none

/-- The ports are for data traffic, and a balancer has room for those with a node port. -/
structure PortsDeclared (ports : List ServicePort) : Prop where
  protocol : ∀ port ∈ ports, port.protocol = tcp
  room : (ports.filterMap ServicePort.pair?).length ≤ 3

theorem nodePorts_eq_ok_iff {ports : List ServicePort} {pairs : List PortPair} :
    nodePorts ports = .ok pairs ↔
      (∀ port ∈ ports, port.protocol = tcp) ∧ pairs = ports.filterMap ServicePort.pair? := by
  induction ports generalizing pairs with
  | nil => simp [nodePorts, eq_comm]
  | cons port rest ih =>
      rw [nodePorts, List.forall_mem_cons]
      split
      · next other => simp [other]
      · next data =>
        have data : port.protocol = tcp := not_not.1 data
        have first (more : List PortPair) :
            (match port.nodePort with
              | some nodePort =>
                return if nodePort = 0 then more else ⟨port.port, nodePort⟩ :: more
              | none => return more : Except BuildError (List PortPair)) =
            .ok (port.pair?.toList ++ more) := by
          rw [ServicePort.pair?]
          cases port.nodePort with
          | none => rfl
          | some nodePort => by_cases unassigned : nodePort = 0 <;> simp [unassigned] <;> rfl
        have together : (port :: rest).filterMap ServicePort.pair? =
            port.pair?.toList ++ rest.filterMap ServicePort.pair? := by
          cases pair : port.pair? <;> simp [pair]
        simp only [bind_eq_ok_iff, ih, together, data, true_and]
        constructor
        · intro ⟨more, ⟨others, read⟩, placed⟩
          refine ⟨others, ?_⟩
          rw [← read]
          exact (Except.ok.inj ((first more).symm.trans placed)).symm
        · intro ⟨others, read⟩
          exact ⟨_, ⟨others, rfl⟩, (first _).trans (congrArg Except.ok read.symm)⟩

/-- The usable ports are those with a node port, in the order of the service. -/
theorem usablePorts_eq_ok_iff {service : Service} {pairs : List PortPair} :
    usablePorts service = .ok pairs ↔
      PortsDeclared service.ports ∧ pairs = service.ports.filterMap ServicePort.pair? := by
  simp only [usablePorts, bind_eq_ok_iff, nodePorts_eq_ok_iff]
  constructor
  · intro ⟨found, ⟨protocol, hfound⟩, fits⟩
    split at fits
    · cases fits
    · next room =>
      cases fits
      exact ⟨⟨protocol, by rw [← hfound]; exact Nat.le_of_not_lt room⟩, hfound⟩
  · intro ⟨declared, hpairs⟩
    refine ⟨pairs, ⟨declared.protocol, hpairs⟩, ?_⟩
    have room : ¬ maxPorts < pairs.length := Nat.not_lt.2 (hpairs ▸ declared.room)
    rw [if_neg room]
    rfl

section Interfaces

variable {annotations : NameMap String} {slot : Nat} {networkId : String}

/-- A slot that names a network declares an interface on it. -/
structure InterfaceDeclared (annotations : NameMap String) (slot : Nat) (networkId : String) :
    Prop where
  address : ∀ value ∈ get? annotations (interfaceKeys slot).ipAddress, IsAddress value
  systemAddresses :
    ∀ value ∈ Annotations.list annotations (interfaceKeys slot).systemIpAddresses, IsAddress value
  vip : ∀ value ∈ get? annotations (interfaceKeys slot).vipNetwork, IsFlag value
  addressed : networkId ≠ commonGlobalNetwork → networkId ≠ commonPrivateNetwork →
    (get? annotations (interfaceKeys slot).ipAddress).isSome ∧
      (Annotations.list annotations (interfaceKeys slot).systemIpAddresses).length = 2

/-- The interface that a slot declares on a network. -/
def slotInterface (annotations : NameMap String) (slot : Nat) (networkId : String) :
    NetworkInterface where
  networkId := networkId
  ipAddress := (get? annotations (interfaceKeys slot).ipAddress).map addressText
  systemIpAddresses :=
    (Annotations.list annotations (interfaceKeys slot).systemIpAddresses).map addressText
  isVipNetwork := get? annotations (interfaceKeys slot).vipNetwork == some "true"

theorem readOr_address_eq_ok_iff {key : String} {address : Option String} :
    readOr (fun value => (readAddress value).map some) annotations key none = .ok address ↔
      (∀ value ∈ get? annotations key, IsAddress value) ∧
        address = (get? annotations key).map addressText := by
  rw [readOr_reads (readAddress_reads.map some)]
  cases get? annotations key <;> rfl

theorem readOr_flag_eq_ok_iff {key : String} {b : Bool} :
    readOr flag annotations key false = .ok b ↔
      (∀ value ∈ get? annotations key, IsFlag value) ∧
        b = (get? annotations key == some "true") := by
  rw [readOr_reads flag_reads]
  cases get? annotations key <;> rfl

/-- Off the shared networks an interface needs its addresses. -/
theorem slotInterface_addressed_iff :
    ((slotInterface annotations slot networkId).isShared = false →
      (slotInterface annotations slot networkId).ipAddress.isSome ∧
        (slotInterface annotations slot networkId).systemIpAddresses.length = 2) ↔
    (networkId ≠ commonGlobalNetwork → networkId ≠ commonPrivateNetwork →
      (get? annotations (interfaceKeys slot).ipAddress).isSome ∧
        (Annotations.list annotations (interfaceKeys slot).systemIpAddresses).length = 2) := by
  have own : (slotInterface annotations slot networkId).isShared = false ↔
      networkId ≠ commonGlobalNetwork ∧ networkId ≠ commonPrivateNetwork := by
    simp [NetworkInterface.isShared, slotInterface]
  rw [own, and_imp, slotInterface, Option.isSome_map, List.length_map]

theorem ite_addressed_eq_ok_iff {interface : NetworkInterface} {e f : BuildError}
    {declared : Option NetworkInterface} :
    (if interface.isShared then pure (some interface)
      else if interface.ipAddress.isNone then .error e
      else if interface.systemIpAddresses.length ≠ 2 then .error f
      else pure (some interface)) = Except.ok declared ↔
    (interface.isShared = false →
      interface.ipAddress.isSome ∧ interface.systemIpAddresses.length = 2) ∧
      some interface = declared := by
  cases shared : interface.isShared with
  | true => simp [pure, Except.pure]
  | false =>
      cases address : interface.ipAddress with
      | none => simp
      | some text =>
          by_cases two : interface.systemIpAddresses.length = 2 <;> simp [two, pure, Except.pure]

/-- A slot is read if it names no network, or declares an interface. -/
theorem declaredInterface_reads :
    Reads (declaredInterface annotations)
      (fun slot => ∀ networkId ∈ get? annotations (interfaceKeys slot).networkId,
        InterfaceDeclared annotations slot networkId)
      (fun slot => (get? annotations (interfaceKeys slot).networkId).map
        (slotInterface annotations slot)) := by
  intro slot declared
  rw [declaredInterface]
  dsimp only
  cases network : get? annotations (interfaceKeys slot).networkId with
  | none =>
      dsimp only
      rw [pure_eq_ok_iff]
      simp [eq_comm]
  | some networkId =>
      simp only [bind_eq_ok_iff, readOr_address_eq_ok_iff, readOr_flag_eq_ok_iff,
        (readAddress_reads.mapError _).mapM _ _]
      constructor
      · intro ⟨_, ⟨address, rfl⟩, _, ⟨systemAddresses, rfl⟩, _, ⟨vip, rfl⟩, placed⟩
        obtain ⟨addressed, read⟩ := ite_addressed_eq_ok_iff.1 placed
        refine ⟨fun _ same => ?_, read.symm⟩
        cases same
        exact ⟨address, systemAddresses, vip, slotInterface_addressed_iff.1 addressed⟩
      · intro ⟨declares, read⟩
        obtain ⟨address, systemAddresses, vip, addressed⟩ := declares networkId rfl
        exact ⟨_, ⟨address, rfl⟩, _, ⟨systemAddresses, rfl⟩, _, ⟨vip, rfl⟩,
          ite_addressed_eq_ok_iff.2 ⟨slotInterface_addressed_iff.2 addressed, read.symm⟩⟩

/-- The interfaces that the slots of an elastic balancer declare. -/
def slotInterfaces (annotations : NameMap String) : List NetworkInterface :=
  [1, 2].filterMap fun slot => (get? annotations (interfaceKeys slot).networkId).map
    (slotInterface annotations slot)

/-- The interfaces of a balancer whose slots declare `declared`: a single one carries the VIP
whatever is said of it, and if there is none the shared global network does. -/
def attachedInterfaces (declared : List NetworkInterface) : List NetworkInterface :=
  match declared with
  | [] => [{ networkId := commonGlobalNetwork, isVipNetwork := true }]
  | [interface] => [{ interface with isVipNetwork := true }]
  | several => several

theorem attach_eq_ok_iff {declared interfaces : List NetworkInterface} :
    (match declared with
      | [] => pure [{ networkId := commonGlobalNetwork, isVipNetwork := true }]
      | [interface] => pure [{ interface with isVipNetwork := true }]
      | several =>
        let count := (several.filter (·.isVipNetwork)).length
        if count = 1 then pure several else .error (.vipNetworkCount count)) =
      (.ok interfaces : Except BuildError _) ↔
    (2 ≤ declared.length → (declared.filter (·.isVipNetwork)).length = 1) ∧
      interfaces = attachedInterfaces declared := by
  match declared with
  | [] =>
      have few : 2 ≤ ([] : List NetworkInterface).length → False := by simp
      rw [pure_eq_ok_iff]
      exact ⟨fun placed => ⟨fun two => (few two).elim, placed.symm⟩, fun ⟨_, read⟩ => read.symm⟩
  | [interface] =>
      have few : 2 ≤ [interface].length → False := by simp
      rw [pure_eq_ok_iff]
      exact ⟨fun placed => ⟨fun two => (few two).elim, placed.symm⟩, fun ⟨_, read⟩ => read.symm⟩
  | first :: second :: rest =>
      have several : 2 ≤ (first :: second :: rest).length := by simp
      dsimp only
      split
      · next one =>
        rw [pure_eq_ok_iff]
        exact ⟨fun placed => ⟨fun _ => one, placed.symm⟩, fun ⟨_, read⟩ => read.symm⟩
      · next other =>
        exact ⟨fun failed => (nomatch failed), fun ⟨one, _⟩ => absurd (one several) other⟩

/-- The slots that name a network declare an interface, and of two exactly one claims the VIP. -/
structure InterfacesDeclared (annotations : NameMap String) : Prop where
  slots : ∀ slot ∈ [1, 2], ∀ networkId ∈ get? annotations (interfaceKeys slot).networkId,
    InterfaceDeclared annotations slot networkId
  vip : (∀ slot ∈ [1, 2], (get? annotations (interfaceKeys slot).networkId).isSome) →
    (get? annotations (interfaceKeys 1).vipNetwork = some "true" ↔
      get? annotations (interfaceKeys 2).vipNetwork ≠ some "true")

/-- One VIP among two slots, for a single slot and for none nothing is asked. -/
theorem count_vip_iff :
    (2 ≤ (slotInterfaces annotations).length →
      ((slotInterfaces annotations).filter (·.isVipNetwork)).length = 1) ↔
    ((∀ slot ∈ [1, 2], (get? annotations (interfaceKeys slot).networkId).isSome) →
      (get? annotations (interfaceKeys 1).vipNetwork = some "true" ↔
        get? annotations (interfaceKeys 2).vipNetwork ≠ some "true")) := by
  rw [slotInterfaces]
  cases first : get? annotations (interfaceKeys 1).networkId with
  | none =>
      cases second : get? annotations (interfaceKeys 2).networkId with
      | none => simp [first, second]
      | some _ => simp [first, second]
  | some firstNetwork =>
      cases second : get? annotations (interfaceKeys 2).networkId with
      | none => simp [first, second]
      | some secondNetwork =>
          by_cases firstVip : get? annotations (interfaceKeys 1).vipNetwork = some "true" <;>
          by_cases secondVip : get? annotations (interfaceKeys 2).vipNetwork = some "true" <;>
            simp [first, second, slotInterface, firstVip, secondVip]

theorem networkInterfaces_eq_ok_iff {interfaces : List NetworkInterface} :
    networkInterfaces annotations = .ok interfaces ↔
      InterfacesDeclared annotations ∧
        interfaces = attachedInterfaces (slotInterfaces annotations) := by
  simp only [networkInterfaces, bind_eq_ok_iff, declaredInterface_reads.mapM _ _]
  constructor
  · intro ⟨_, ⟨slots, rfl⟩, attached⟩
    obtain ⟨vip, read⟩ := attach_eq_ok_iff.1 attached
    exact ⟨⟨slots, count_vip_iff.1 vip⟩, read⟩
  · intro ⟨declared, read⟩
    exact ⟨_, ⟨declared.slots, rfl⟩, attach_eq_ok_iff.2 ⟨count_vip_iff.2 declared.vip, read⟩⟩

/-- The interfaces of an elastic balancer, as the cloud wants them. -/
structure WellAttached (interfaces : List NetworkInterface) : Prop where
  count : interfaces.length = 1 ∨ interfaces.length = 2
  vip : (interfaces.filter (·.isVipNetwork)).length = 1
  addressed : ∀ interface ∈ interfaces, interface.isShared = false →
    interface.ipAddress.isSome ∧ interface.systemIpAddresses.length = 2

theorem InterfacesDeclared.addressed (declared : InterfacesDeclared annotations) :
    ∀ interface ∈ slotInterfaces annotations, interface.isShared = false →
      interface.ipAddress.isSome ∧ interface.systemIpAddresses.length = 2 := by
  intro interface member
  obtain ⟨slot, hslot, named⟩ := List.mem_filterMap.1 member
  obtain ⟨networkId, network, rfl⟩ := Option.map_eq_some_iff.1 named
  exact slotInterface_addressed_iff.2 (declared.slots slot hslot networkId network).addressed

theorem InterfacesDeclared.wellAttached (declared : InterfacesDeclared annotations) :
    WellAttached (attachedInterfaces (slotInterfaces annotations)) := by
  have addressed := declared.addressed
  have vip := count_vip_iff.2 declared.vip
  have few : (slotInterfaces annotations).length ≤ 2 := List.length_filterMap_le ..
  generalize slotInterfaces annotations = slots at addressed vip few
  match slots with
  | [] => exact ⟨.inl rfl, rfl, by simp [attachedInterfaces, NetworkInterface.isShared]⟩
  | [interface] =>
      refine ⟨.inl rfl, rfl, fun attached member own => ?_⟩
      rw [List.mem_singleton.1 member] at own ⊢
      exact addressed interface (List.mem_singleton_self interface) own
  | [first, second] => exact ⟨.inr rfl, vip (Nat.le_refl 2), addressed⟩

end Interfaces

section Desired

variable {name : String} {backends : List Backend} {service : Service}

theorem desiredL4_eq_ok_iff {ports : List L4Port} :
    desiredL4 name backends service = .ok ports ↔
      ∃ policy filters, Policy.ofAnnotations service.annotations = .ok policy ∧
        sourceFilter service = .ok filters ∧ PortsDeclared service.ports ∧
        ports = (service.ports.filterMap ServicePort.pair?).map
          (policy.port name backends filters ()) := by
  simp only [desiredL4, bind_eq_ok_iff, pure_eq_ok_iff, usablePorts_eq_ok_iff]
  constructor
  · intro ⟨policy, hpolicy, filters, hfilters, _, ⟨declared, rfl⟩, built⟩
    exact ⟨policy, filters, hpolicy, hfilters, declared, built.symm⟩
  · intro ⟨policy, filters, hpolicy, hfilters, declared, built⟩
    exact ⟨policy, hpolicy, filters, hfilters, _, ⟨declared, rfl⟩, built.symm⟩

/-- Where the ports of an elastic balancer are wired in. -/
def attachmentOf (backends : List Backend) (service : Service) : Attachment where
  protocol := tcp
  availabilityZone := availabilityZone backends service
  interfaces := attachedInterfaces (slotInterfaces service.annotations)

theorem desiredElastic_eq_ok_iff {ports : List ElasticPort} :
    desiredElastic name backends service = .ok ports ↔
      ∃ policy, Policy.ofAnnotations service.annotations = .ok policy ∧
        InterfacesDeclared service.annotations ∧ PortsDeclared service.ports ∧
        ports = (service.ports.filterMap ServicePort.pair?).map
          (policy.port name backends [] (attachmentOf backends service)) := by
  simp only [desiredElastic, bind_eq_ok_iff, pure_eq_ok_iff, usablePorts_eq_ok_iff,
    networkInterfaces_eq_ok_iff]
  constructor
  · intro ⟨policy, hpolicy, _, ⟨interfaces, rfl⟩, _, ⟨declared, rfl⟩, built⟩
    exact ⟨policy, hpolicy, interfaces, declared, built.symm⟩
  · intro ⟨policy, hpolicy, interfaces, declared, built⟩
    exact ⟨policy, hpolicy, _, ⟨interfaces, rfl⟩, _, ⟨declared, rfl⟩, built.symm⟩

end Desired

end CloudBalancer
