import CloudBalancer.Proofs.Numerals
import CloudBalancer.SecurityGroup.Derivation

/-!
Which texts are health check targets. The word for echo checks is one; every other target is a
protocol and a port numeral, divided by the first colon. Main statement: a probe is read exactly
from the targets that spell it, and any other text is handed back in the error.
-/

namespace CloudBalancer

/-- The split is at the first colon. -/
theorem splitColon_eq_some_iff {cs left right : List Char} :
    splitColon cs = some (left, right) ↔ cs = left ++ ':' :: right ∧ ':' ∉ left := by
  induction cs generalizing left with
  | nil => simp [splitColon]
  | cons c rest ih =>
      by_cases colon : c = ':'
      · rw [splitColon, if_pos colon]
        cases left with
        | nil => simp [colon, eq_comm]
        | cons d left =>
            refine iff_of_false (by simp) fun ⟨joined, absent⟩ => ?_
            have first : ':' = d := colon.symm.trans (List.cons.inj joined).1
            exact absent (first ▸ List.mem_cons_self)
      · rw [splitColon, if_neg colon]
        cases left with
        | nil => simp [colon]
        | cons d left =>
            have apart : ':' ≠ c := Ne.symm colon
            constructor
            · intro found
              obtain ⟨⟨front, back⟩, split, same⟩ := Option.map_eq_some_iff.1 found
              cases same
              obtain ⟨joined, absent⟩ := ih.1 split
              exact ⟨congrArg (c :: ·) joined, by simpa [apart] using absent⟩
            · intro ⟨joined, absent⟩
              obtain ⟨rfl, rest_joined⟩ := List.cons.inj joined
              have split := ih.2 ⟨rest_joined, fun member => absent (List.mem_cons_of_mem c member)⟩
              rw [split]
              rfl

namespace Probe

/-- What targets spell a probe. Numerals may have a plus sign and leading zeros. -/
inductive Spells : Probe → String → Prop
  | echo : Spells ⟨icmp, none⟩ icmp
  | port {protocol numeral : String} {port : UInt16} (named : protocol ≠ "")
      (free : ':' ∉ protocol.toList) (denotes : Text.Numeral.Denotes numeral.toList port.toNat) :
      Spells ⟨protocol, some port⟩ (protocol ++ ":" ++ numeral)

theorem toList_colon (protocol numeral : String) :
    (protocol ++ ":" ++ numeral).toList = protocol.toList ++ ':' :: numeral.toList := by
  simp

theorem spells_echo_iff {target : String} : Spells ⟨icmp, none⟩ target ↔ target = icmp := by
  constructor
  · intro spelled
    cases spelled
    rfl
  · intro same
    subst same
    exact .echo

theorem spells_port_iff {protocol target : String} {port : UInt16} :
    Spells ⟨protocol, some port⟩ target ↔ protocol ≠ "" ∧ ':' ∉ protocol.toList ∧
      ∃ numeral : String, target = protocol ++ ":" ++ numeral ∧
        Text.Numeral.Denotes numeral.toList port.toNat := by
  constructor
  · intro spelled
    cases spelled with
    | port named free denotes => exact ⟨named, free, _, rfl, denotes⟩
  · intro ⟨named, free, numeral, same, denotes⟩
    subst same
    exact .port named free denotes

variable {target : String} {probe : Probe}

theorem ofTarget_of_spells (spelled : Spells probe target) : ofTarget target = .ok probe := by
  cases spelled with
  | echo => rfl
  | @port protocol numeral port named free denotes =>
      have other : protocol ++ ":" ++ numeral ≠ icmp := fun same => by
        have colon : ':' ∈ icmp.toList := same ▸ by simp
        exact absurd colon (by decide)
      have split : splitColon (protocol ++ ":" ++ numeral).toList =
          some (protocol.toList, numeral.toList) :=
        splitColon_eq_some_iff.2 ⟨toList_colon protocol numeral, free⟩
      have read : Text.Numeral.readChars 0xFFFF numeral.toList = .ok port.toNat :=
        Text.Numeral.readChars_eq_ok_iff.2 ⟨denotes, Nat.le_of_lt_succ port.toNat_lt⟩
      rw [ofTarget, if_neg other, split]
      simp [read, named]

theorem spells_of_ofTarget (read : ofTarget target = .ok probe) : Spells probe target := by
  rw [ofTarget] at read
  split at read
  · next echo =>
    cases read
    exact spells_echo_iff.2 echo
  · split at read
    · cases read
    · next protocol numeral split =>
      obtain ⟨joined, free⟩ := splitColon_eq_some_iff.1 split
      split at read
      · cases read
      · next n number =>
        obtain ⟨denotes, small⟩ := Text.Numeral.readChars_eq_ok_iff.1 number
        split at read
        · cases read
        · next named =>
          cases read
          have unwrapped : (UInt16.ofNat n).toNat = n := by
            rw [UInt16.toNat_ofNat']
            omega
          refine spells_port_iff.2 ⟨?_, ?_, String.ofList numeral, ?_, ?_⟩
          · simpa using named
          · simpa using free
          · rw [← String.toList_inj, toList_colon, joined]
            simp
          · rw [unwrapped, String.toList_ofList]
            exact denotes

theorem ofTarget_eq_ok_iff : ofTarget target = .ok probe ↔ Spells probe target :=
  ⟨spells_of_ofTarget, ofTarget_of_spells⟩

theorem ofTarget_error {fault : EngineError} (refused : ofTarget target = .error fault) :
    fault = .invalidHealthCheckTarget target := by
  rw [ofTarget] at refused
  repeat' split at refused
  all_goals cases refused
  all_goals rfl

/-- A text that spells no probe is handed back. -/
theorem ofTarget_eq_error_iff {fault : EngineError} :
    ofTarget target = .error fault ↔
      fault = .invalidHealthCheckTarget target ∧ ∀ probe, ¬ Spells probe target := by
  constructor
  · intro refused
    refine ⟨ofTarget_error refused, fun probe spelled => ?_⟩
    rw [ofTarget_of_spells spelled] at refused
    cases refused
  · intro ⟨same, unspelled⟩
    cases read : ofTarget target with
    | ok probe => exact absurd (spells_of_ofTarget read) (unspelled probe)
    | error other => rw [same, ofTarget_error read]

theorem spells_printed {protocol : String} (named : protocol ≠ "")
    (free : ':' ∉ protocol.toList) (port : UInt16) :
    Spells ⟨protocol, some port⟩ s!"{protocol}:{port}" := by
  have printed : (toString port).toList = Nat.toDigits 10 port.toNat := Nat.toList_repr
  refine .port named free ?_
  rw [printed]
  exact .inl (Text.Numeral.digitsOf_toDigits port.toNat)

/-- Targets are read by their grammar: the word for echo checks as an echo, a protocol without
colons with a port numeral behind the colon as that protocol and port, and any other text is handed
back. So a port comes back from its decimal digits. -/
theorem ofTarget_follows_grammar (target : String) :
    (ofTarget target = .ok ⟨icmp, none⟩ ↔ target = icmp) ∧
    (∀ (protocol : String) (port : UInt16), ofTarget target = .ok ⟨protocol, some port⟩ ↔
      protocol ≠ "" ∧ ':' ∉ protocol.toList ∧ ∃ numeral : String,
        target = protocol ++ ":" ++ numeral ∧
          Text.Numeral.Denotes numeral.toList port.toNat) ∧
    (∀ fault, ofTarget target = .error fault ↔
      fault = .invalidHealthCheckTarget target ∧ ∀ probe, ¬ Spells probe target) ∧
    ∀ protocol : String, protocol ≠ "" → ':' ∉ protocol.toList → ∀ port : UInt16,
      ofTarget s!"{protocol}:{port}" = .ok ⟨protocol, some port⟩ := by
  refine ⟨?_, fun protocol port => ?_, fun fault => ofTarget_eq_error_iff, ?_⟩
  · exact ofTarget_eq_ok_iff.trans spells_echo_iff
  · exact ofTarget_eq_ok_iff.trans spells_port_iff
  · intro protocol named free port
    exact ofTarget_of_spells (spells_printed named free port)

/-- A sign and leading zeros before the digits of a port, and a port behind the word for echoes. -/
theorem ofTarget_reads_signed_port :
    ofTarget "TCP:+00443" = .ok ⟨tcp, some 443⟩ ∧
      ofTarget s!"{icmp}:{(65535 : UInt16)}" = .ok ⟨icmp, some 65535⟩ := by
  obtain ⟨-, port_iff, -, printed⟩ := ofTarget_follows_grammar "TCP:+00443"
  have read : Text.Numeral.readChars 0xFFFF "+00443".toList = .ok (443 : UInt16).toNat := rfl
  have denotes := (Text.Numeral.readChars_eq_ok_iff.1 read).1
  exact ⟨(port_iff tcp 443).2 ⟨by decide, by decide, "+00443", by decide, denotes⟩,
    printed icmp (by decide) (by decide) 65535⟩

end Probe

end CloudBalancer
