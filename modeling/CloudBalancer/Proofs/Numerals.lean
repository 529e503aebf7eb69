import CloudBalancer.Text
import Mathlib.Data.List.Basic

/-!
Which texts are numerals, and of which numbers. The reader settles a numeral digit by digit and
gives up as soon as its bound is passed; as digits only ever add to a number, that is the same as
looking at the whole number in the end. Main statement: a number is read exactly from the texts that
denote it, if it is within the bound.
-/

namespace CloudBalancer.Text.Numeral

theorem isDigit_iff {c : Char} : c.isDigit = true ↔ '0' ≤ c ∧ c ≤ '9' := by
  simp [Char.isDigit, Char.le_def]

theorem digit?_of_isDigit {c : Char} (h : c.isDigit = true) :
    digit? c = some (c.toNat - '0'.toNat) := by
  rw [digit?, if_pos (isDigit_iff.1 h)]

theorem digit?_eq_none {c : Char} (h : c.isDigit = false) : digit? c = none := by
  rw [digit?, if_neg]
  intro bounds
  rw [isDigit_iff.2 bounds] at h
  cases h

theorem le_ofDigitChars (cs : List Char) (n : Nat) : n ≤ Nat.ofDigitChars 10 cs n := by
  induction cs generalizing n with
  | nil => simp
  | cons c rest ih =>
      rw [Nat.ofDigitChars_cons]
      exact Nat.le_trans (by omega) (ih _)

theorem extend_eq_ok_iff {bound n m : Nat} {cs : List Char} (small : n ≤ bound) :
    extend bound n cs = .ok m ↔
      (∀ c ∈ cs, c.isDigit = true) ∧ Nat.ofDigitChars 10 cs n = m ∧ m ≤ bound := by
  induction cs generalizing n with
  | nil =>
      simp only [extend, Except.ok.injEq, Nat.ofDigitChars_nil]
      constructor
      · intro same
        exact ⟨by simp, same, same ▸ small⟩
      · exact fun read => read.2.1
  | cons c rest ih =>
      rw [Nat.ofDigitChars_cons, List.forall_mem_cons]
      cases digit : c.isDigit with
      | false => simp [extend, digit?_eq_none digit]
      | true =>
          simp only [extend, digit?_of_isDigit digit, true_and]
          split
          · next large =>
            -- The number only grows, so it does not come back under the bound.
            have grows := le_ofDigitChars rest (10 * n + (c.toNat - '0'.toNat))
            constructor
            · intro refused
              cases refused
            · intro ⟨_, value, within⟩
              omega
          · next within => exact ih (Nat.le_of_not_lt within)

/-- The digits of the number `n`. -/
def DigitsOf (cs : List Char) (n : Nat) : Prop :=
  cs ≠ [] ∧ (∀ c ∈ cs, c.isDigit = true) ∧ Nat.ofDigitChars 10 cs 0 = n

theorem digitsOf_plus (cs : List Char) (n : Nat) : ¬ DigitsOf ('+' :: cs) n := by
  intro ⟨_, digits, _⟩
  exact absurd (digits '+' List.mem_cons_self) (by decide)

/-- Digits, after one plus sign at most. -/
def Denotes (cs : List Char) (n : Nat) : Prop :=
  DigitsOf cs n ∨ ∃ digits, cs = '+' :: digits ∧ DigitsOf digits n

theorem extend_zero_eq_ok_iff {bound n : Nat} {cs : List Char} (some_char : cs ≠ []) :
    extend bound 0 cs = .ok n ↔ DigitsOf cs n ∧ n ≤ bound := by
  rw [extend_eq_ok_iff (Nat.zero_le bound)]
  simp [DigitsOf, some_char, and_assoc]

/-- The numbers are read that the text denotes and that are within the bound. -/
theorem readChars_eq_ok_iff {bound n : Nat} {cs : List Char} :
    readChars bound cs = .ok n ↔ Denotes cs n ∧ n ≤ bound := by
  cases cs with
  | nil => simp [readChars, Denotes, DigitsOf]
  | cons c rest =>
      by_cases sign : c = '+'
      · subst sign
        have denotes : Denotes ('+' :: rest) n ↔ DigitsOf rest n := by
          simp [Denotes, digitsOf_plus]
        rw [denotes]
        cases rest with
        | nil => simp [readChars, DigitsOf]
        | cons d rest => exact extend_zero_eq_ok_iff (List.cons_ne_nil d rest)
      · have denotes : Denotes (c :: rest) n ↔ DigitsOf (c :: rest) n := by
          simp [Denotes, sign]
        have unsigned : readChars bound (c :: rest) = extend bound 0 (c :: rest) := by
          unfold readChars
          simp [sign]
        rw [denotes, unsigned]
        exact extend_zero_eq_ok_iff (List.cons_ne_nil c rest)

theorem digitsOf_toDigits (n : Nat) : DigitsOf (Nat.toDigits 10 n) n := by
  refine ⟨Nat.toDigits_ne_nil, fun c hc => ?_, Nat.ofDigitChars_ten_toDigits⟩
  exact Nat.isDigit_of_mem_toDigits (by decide) (by decide) hc

/-- Only zero is written with a leading zero. -/
theorem head?_toDigits {n : Nat} (positive : 0 < n) :
    (Nat.toDigits 10 n).head? ≠ some '0' := by
  induction n using Nat.strongRecOn with
  | ind n ih =>
      cases Nat.lt_or_ge n 10 with
      | inl small =>
          have lone : ∀ d < 10, 0 < d → some d.digitChar ≠ some '0' := by decide
          rw [Nat.toDigits_of_lt_base small]
          exact lone n small positive
      | inr large =>
          have former := ih (n / 10) (by omega) (by omega)
          obtain ⟨c, digits, leading⟩ :=
            List.exists_cons_of_ne_nil (Nat.toDigits_ne_nil (n := n / 10) (b := 10))
          rw [Nat.toDigits_of_base_le (by decide) large, leading]
          rwa [leading] at former

end CloudBalancer.Text.Numeral
