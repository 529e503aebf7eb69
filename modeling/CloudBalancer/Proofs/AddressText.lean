import CloudBalancer.Network.Grammar
import CloudBalancer.Proofs.Numerals
import Mathlib.Data.List.TakeWhile

/-!
Addresses and blocks as texts. The strict grammar reads an IPv4 address back from its text, and no
text is both an address and a block: what the readers of addresses take has no slash, and a block
has one behind its address.
-/

namespace CloudBalancer.Network

namespace Grammar

/-- A reader that takes `cs` and leaves `rest` has not come across a slash. -/
def Unslashed (cs rest : List Char) : Prop :=
  ∃ read, cs = read ++ rest ∧ '/' ∉ read

theorem Unslashed.refl (cs : List Char) : Unslashed cs cs :=
  ⟨[], rfl, List.not_mem_nil⟩

theorem Unslashed.trans {cs ds rest : List Char} (first : Unslashed cs ds)
    (second : Unslashed ds rest) : Unslashed cs rest := by
  obtain ⟨read, rfl, unslashed⟩ := first
  obtain ⟨more, rfl, unslashed'⟩ := second
  exact ⟨read ++ more, (List.append_assoc ..).symm, by simp [unslashed, unslashed']⟩

theorem digit?_slash (radix : Nat) : digit? radix '/' = none := by
  simp [digit?]

section Readers

variable {g : Grammar} {cs rest : List Char}

theorem unslashed_number {radix width bound : Nat} {leadingZeros : Bool} {n : Fin bound}
    (h : number radix width bound leadingZeros cs = some (n, rest)) : Unslashed cs rest := by
  rw [number] at h
  dsimp only at h
  split at h
  · cases h
  · split at h
    · cases h
      refine ⟨cs.takeWhile fun c => (digit? radix c).isSome, ?_, fun slash => ?_⟩
      · exact (List.prefix_iff_eq_append.1 (List.takeWhile_prefix _)).symm
      · have digit := List.mem_takeWhile_imp slash
        simp [digit?_slash] at digit
    · cases h

theorem expect_eq_some {c : Char} (h : expect c cs = some rest) : cs = c :: rest := by
  cases cs with
  | nil => cases h
  | cons d cs =>
      simp only [expect] at h
      split at h
      · next same =>
        cases h
        rw [same]
      · cases h

theorem unslashed_expect {c : Char} (other : c ≠ '/') (h : expect c cs = some rest) :
    Unslashed cs rest :=
  ⟨[c], expect_eq_some h, by simpa using other.symm⟩

theorem unslashed_ipv4 {a : Ipv4} (h : g.ipv4 cs = some (a, rest)) : Unslashed cs rest := by
  simp only [ipv4, Option.bind_eq_bind, Option.bind_eq_some_iff] at h
  obtain ⟨_, first, _, dot₁, _, second, _, dot₂, _, third, _, dot₃, _, fourth, ends⟩ := h
  cases ends
  exact (unslashed_number first).trans <|
    (unslashed_expect (by decide) dot₁).trans <| (unslashed_number second).trans <|
    (unslashed_expect (by decide) dot₂).trans <| (unslashed_number third).trans <|
    (unslashed_expect (by decide) dot₃).trans (unslashed_number fourth)

theorem unslashed_groups (first : Bool) (limit : Nat) (cs : List Char) :
    Unslashed cs (g.groups first limit cs).rest := by
  induction limit generalizing first cs with
  | zero => exact .refl cs
  | succ limit ih =>
      rw [groups]
      split
      · exact .refl cs
      · next body hbody =>
        have begun : Unslashed cs body := by
          cases first with
          | true =>
              cases hbody
              exact .refl cs
          | false => exact unslashed_expect (by decide) hbody
        split
        · next hdotted =>
          split at hdotted
          · cases hdotted
          · exact begun.trans (unslashed_ipv4 hdotted)
        · split
          · exact .refl cs
          · next hnumber => exact begun.trans ((unslashed_number hnumber).trans (ih false _))

theorem unslashed_ipv6 {a : Ipv6} (h : g.ipv6 cs = some (a, rest)) : Unslashed cs rest := by
  have head := unslashed_groups true 8 cs (g := g)
  simp only [ipv6] at h
  split at h
  · cases h
    exact head
  · split at h
    · cases h
    · simp only [Option.bind_eq_bind, Option.bind_eq_some_iff] at h
      obtain ⟨_, colon, _, colon', ends⟩ := h
      cases ends
      exact head.trans <| (unslashed_expect (by decide) colon).trans <|
        (unslashed_expect (by decide) colon').trans (unslashed_groups true _ _)

theorem Unslashed.slash_mem {ds : List Char} (address : Unslashed cs ds)
    (slash : expect '/' ds = some rest) : '/' ∈ cs := by
  obtain ⟨read, rfl, -⟩ := address
  rw [expect_eq_some slash]
  simp

end Readers

theorem whole_eq_some {α : Type} {read : Option (α × List Char)} {a : α}
    (h : whole read = some a) : read = some (a, []) := by
  unfold whole at h
  split at h
  · cases h
    rfl
  · cases h

end Grammar

open Grammar

/-- What is read as an address has no slash. -/
theorem Ipv4.unslashed_of_parse? {s : String} {a : Ipv4} (h : Ipv4.parse? s = some a) :
    '/' ∉ s.toList := by
  obtain ⟨read, hread, unslashed⟩ := unslashed_ipv4 (whole_eq_some h)
  rwa [hread, List.append_nil]

/-- What is read as a block has one. -/
theorem Block.slash_of_parse? {s : String} {block : Block} (h : Block.parse? s = some block) :
    '/' ∈ s.toList := by
  have read := whole_eq_some h
  rw [Option.or_eq_some_iff] at read
  cases read with
  | inl block4 =>
      simp only [readV4, Option.bind_eq_bind, Option.bind_eq_some_iff] at block4
      obtain ⟨_, address, _, slash, -⟩ := block4
      exact (unslashed_ipv4 address).slash_mem slash
  | inr block6 =>
      simp only [readV6, Option.bind_eq_bind, Option.bind_eq_some_iff] at block6
      obtain ⟨-, _, address, _, slash, -⟩ := block6
      exact (unslashed_ipv6 address).slash_mem slash

theorem Block.parse?_of_address {s : String} {a : Ipv4} (h : Ipv4.parse? s = some a) :
    Block.parse? s = none := by
  cases hblock : Block.parse? s with
  | none => rfl
  | some block => exact absurd (Block.slash_of_parse? hblock) (Ipv4.unslashed_of_parse? h)

namespace Grammar

theorem digit?_digitChar : ∀ {d : Nat}, d < 10 → digit? 10 d.digitChar = some d := by
  decide

theorem digitsValue_concat (radix : Nat) (digits : List Char) (c : Char) :
    digitsValue radix (digits ++ [c]) =
      digitsValue radix digits * radix + (digit? radix c).getD 0 := by
  simp [digitsValue]

/-- The digits of a number are all read, as the number that they stand for. -/
theorem digits_toDigits (n : Nat) :
    (∀ c ∈ Nat.toDigits 10 n, (digit? 10 c).isSome) ∧ digitsValue 10 (Nat.toDigits 10 n) = n := by
  induction n using Nat.strongRecOn with
  | ind n ih =>
      cases Nat.lt_or_ge n 10 with
      | inl small =>
          rw [Nat.toDigits_of_lt_base small]
          simp [digitsValue, digit?_digitChar small]
      | inr large =>
          obtain ⟨digits, value⟩ := ih (n / 10) (by omega)
          have last := digit?_digitChar (Nat.mod_lt n (show 0 < 10 by decide))
          rw [Nat.toDigits_of_base_le (by decide) large, digitsValue_concat, value, last]
          refine ⟨fun c hc => ?_, by simpa using Nat.div_add_mod' n 10⟩
          cases List.mem_append.1 hc with
          | inl former => exact digits c former
          | inr final =>
              obtain rfl := List.mem_singleton.1 final
              rw [last]
              rfl

/-- The digits of an octet fit, and are not padded. -/
theorem octet_digits (n : Fin 256) :
    (Nat.toDigits 10 n).length ≤ 3 ∧
      (1 < (Nat.toDigits 10 n).length → (Nat.toDigits 10 n).head? ≠ some '0') := by
  have width (k : Nat) (hk : 0 < k) : (Nat.toDigits 10 n).length ≤ k ↔ (n : Nat) < 10 ^ k :=
    Nat.length_toDigits_le_iff (by decide) hk
  refine ⟨(width 3 (by decide)).2 (by omega), fun several => ?_⟩
  have large := mt (width 1 (by decide)).2 (by omega)
  exact Text.Numeral.head?_toDigits (by omega)

theorem number_octet (n : Fin 256) (leadingZeros : Bool) {rest : List Char}
    (stop : ∀ c ∈ rest.head?, digit? 10 c = none) :
    number 10 3 256 leadingZeros (Nat.toDigits 10 n ++ rest) = some (n, rest) := by
  obtain ⟨digits, value⟩ := digits_toDigits n
  obtain ⟨width, unpadded⟩ := octet_digits n
  have taken : (Nat.toDigits 10 n ++ rest).takeWhile (fun c => (digit? 10 c).isSome) =
      Nat.toDigits 10 n := by
    rw [List.takeWhile_append_of_pos digits]
    cases rest with
    | nil => simp
    | cons c rest => simp [stop c rfl]
  have admitted : ((Nat.toDigits 10 n).isEmpty || 3 < (Nat.toDigits 10 n).length ||
      (1 < (Nat.toDigits 10 n).length && (Nat.toDigits 10 n).head? == some '0') &&
        !leadingZeros) = false := by
    have narrow : ¬ 3 < (Nat.toDigits 10 n).length := by omega
    have plain : (1 < (Nat.toDigits 10 n).length && (Nat.toDigits 10 n).head? == some '0') =
        false := by
      simpa using unpadded
    simp [narrow, plain]
  rw [number]
  simp only [taken, admitted, value, Bool.false_eq_true, if_false, Fin.is_lt, dite_true,
    List.drop_left]

end Grammar

theorem Ipv4.ofOctets_octet (a : Ipv4) :
    Ipv4.ofOctets ⟨a.octet 3, Nat.mod_lt _ (by decide)⟩ ⟨a.octet 2, Nat.mod_lt _ (by decide)⟩
      ⟨a.octet 1, Nat.mod_lt _ (by decide)⟩ ⟨a.octet 0, Nat.mod_lt _ (by decide)⟩ = a := by
  obtain ⟨⟨value, bound⟩⟩ := a
  simp only [ofOctets, octet, Nat.shiftRight_eq_div_pow, Ipv4.mk.injEq, Fin.mk.injEq]
  omega

theorem Ipv4.toList_text (a : Ipv4) : a.text.toList =
    Nat.toDigits 10 (a.octet 3) ++ '.' :: (Nat.toDigits 10 (a.octet 2) ++
      '.' :: (Nat.toDigits 10 (a.octet 1) ++ '.' :: Nat.toDigits 10 (a.octet 0))) := by
  have dot : (toString ".").toList = ['.'] := rfl
  simp [text, String.toList_append, dot]

/-- An address is read back from its text. -/
theorem Ipv4.parse?_text (a : Ipv4) : Ipv4.parse? a.text = some a := by
  have inner (place : Nat) (rest : List Char) :
      number 10 3 256 false (Nat.toDigits 10 (a.octet place) ++ '.' :: rest) =
        some (⟨a.octet place, Nat.mod_lt _ (by decide)⟩, '.' :: rest) :=
    number_octet ⟨a.octet place, _⟩ false (by simp [digit?])
  have last (place : Nat) : number 10 3 256 false (Nat.toDigits 10 (a.octet place)) =
      some (⟨a.octet place, Nat.mod_lt _ (by decide)⟩, []) := by
    have read : number 10 3 256 false (Nat.toDigits 10 (a.octet place) ++ []) = some (_, []) :=
      number_octet ⟨a.octet place, Nat.mod_lt _ (by decide)⟩ false (by simp)
    rwa [List.append_nil] at read
  have dot (rest : List Char) : expect '.' ('.' :: rest) = some rest := by simp [expect]
  have read : strict.ipv4 a.text.toList = some (a, []) := by
    simp only [ipv4, strict, a.toList_text, inner, last, dot, Option.bind_eq_bind,
      Option.bind_some, a.ofOctets_octet, Option.pure_def]
  rw [Ipv4.parse?, read]
  rfl

end CloudBalancer.Network
