import CloudBalancer.Json.Printer
import CloudBalancer.Json.Token
import CloudBalancer.Proofs.Numerals
import Mathlib.Data.List.Forall2
import Mathlib.Data.List.TakeWhile

/-!
Printed scalars as tokens. A printed string is scanned piece by piece, one piece for each of its
characters, escaped or not; a printed number is scanned up to where its digits end, so that it
matters what follows it. Main statements: the scanner takes a printed string, and a printed integer
before a text that does not go on with it, for what they are.
-/

namespace CloudBalancer.Json.Token

/-- The piece of a string stands for the character. -/
inductive Means : Piece → Char → Prop
  | char (c : Char) : Means (.char c) c
  | unit {c : Char} (control : c.toNat < 0x20) : Means (.unit c.toNat) c

/-- The characters of a printed string between its quotes. -/
def escaped (cs : List Char) : List Char :=
  cs.flatMap fun c => (escapedChar c).toList

theorem toList_stringText (s : String) :
    (stringText s).toList = '"' :: (escaped s.toList ++ ['"']) := by
  rw [stringText, String.toList_append, String.toList_append, String.toList_join,
    List.flatMap_map, escaped]
  rfl

section Strings

theorem scanString_quote (done : List Piece) (rest : List Char) :
    scanString done ('"' :: rest) = some (done.reverse, rest) := by
  rw [scanString]

theorem scanString_plain {c : Char} (quote : c ≠ '"') (backslash : c ≠ '\\') (seen : 0x20 ≤ c.toNat)
    (done : List Piece) (rest : List Char) :
    scanString done (c :: rest) = scanString (.char c :: done) rest := by
  have plain : ¬ (decide (c.toNat < 0x20) || c == '\\') = true := by
    simp [backslash, seen]
  rw [scanString, if_neg plain]
  · exact quote
  · intro _ _ _ _ _ same
    exact absurd same backslash
  · intro _ _ same
    exact absurd same backslash

theorem scanString_short {c e : Char} (short : shortEscape? e = some c) (done : List Piece)
    (rest : List Char) :
    scanString done ('\\' :: e :: rest) = scanString (.char c :: done) rest := by
  rw [scanString]
  · simp only [short]
  · intro _ _ _ _ _ unit _
    rw [unit] at short
    cases short

theorem scanString_unit {a b c d : Char} {n : Nat} (unit : unit? a b c d = some n)
    (done : List Piece) (rest : List Char) :
    scanString done ('\\' :: 'u' :: a :: b :: c :: d :: rest) =
      scanString (.unit n :: done) rest := by
  rw [scanString]
  simp [unit]

theorem unit_low : ∀ n < 0x10, unit? '0' '0' '0' n.digitChar = some n := by
  decide

theorem unit_high : ∀ n < 0x10, unit? '0' '0' '1' n.digitChar = some (n + 0x10) := by
  decide

theorem toList_hex_low {n : Nat} (low : n < 0x10) :
    (Text.Numeral.hex n).toList = [n.digitChar] := by
  rw [Text.Numeral.hex, String.toList_ofList, Nat.toDigits_of_lt_base low]

theorem toList_hex_high {n : Nat} (low : 0x10 ≤ n) (high : n < 0x20) :
    (Text.Numeral.hex n).toList = ['1', (n - 0x10).digitChar] := by
  have quotient : n / 0x10 = 1 := by omega
  have remainder : n % 0x10 = n - 0x10 := by omega
  rw [Text.Numeral.hex, String.toList_ofList, Nat.toDigits_of_base_le (by decide) low, quotient,
    remainder]
  rfl

/-- A printed character is scanned as one piece that stands for it. -/
theorem exists_piece (c : Char) : ∃ piece, Means piece c ∧ ∀ done rest,
    scanString done ((escapedChar c).toList ++ rest) = scanString (piece :: done) rest := by
  have short (e : Char) (known : shortEscape? e = some c) : ∃ piece, Means piece c ∧
      ∀ done rest, scanString done (['\\', e] ++ rest) = scanString (piece :: done) rest :=
    ⟨.char c, .char c, scanString_short known⟩
  rw [escapedChar]
  split
  · next same => exact short '"' (by rw [same]; rfl)
  · next quote =>
    split
    · next same => exact short '\\' (by rw [same]; rfl)
    · next backslash =>
      split
      · next same => exact short 'b' (by rw [same]; rfl)
      split
      · next same => exact short 'f' (by rw [same]; rfl)
      split
      · next same => exact short 'n' (by rw [same]; rfl)
      split
      · next same => exact short 'r' (by rw [same]; rfl)
      split
      · next same => exact short 't' (by rw [same]; rfl)
      split
      · next low =>
        refine ⟨.unit c.toNat, .unit (by omega), fun done rest => ?_⟩
        rw [String.toList_append, toList_hex_low low]
        exact scanString_unit (unit_low c.toNat low) done rest
      · next low =>
        split
        · next high =>
          refine ⟨.unit c.toNat, .unit high, fun done rest => ?_⟩
          have unit := unit_high (c.toNat - 0x10) (by omega)
          rw [Nat.sub_add_cancel (by omega)] at unit
          rw [String.toList_append, toList_hex_high (by omega) high]
          exact scanString_unit unit done rest
        · next high =>
          have itself : c.toString.toList = [c] := String.toList_singleton c
          refine ⟨.char c, .char c, fun done rest => ?_⟩
          rw [itself]
          exact scanString_plain quote backslash (by omega) done rest

theorem exists_pieces (cs : List Char) : ∃ pieces, List.Forall₂ Means pieces cs ∧ ∀ done rest,
    scanString done (escaped cs ++ '"' :: rest) = some (done.reverse ++ pieces, rest) := by
  induction cs with
  | nil =>
      refine ⟨[], .nil, fun done rest => ?_⟩
      rw [List.append_nil]
      exact scanString_quote done rest
  | cons c cs ih =>
      obtain ⟨piece, means, first⟩ := exists_piece c
      obtain ⟨pieces, mean, others⟩ := ih
      refine ⟨piece :: pieces, .cons means mean, fun done rest => ?_⟩
      have regrouped : escaped (c :: cs) ++ '"' :: rest =
          (escapedChar c).toList ++ (escaped cs ++ '"' :: rest) := by
        rw [escaped, List.flatMap_cons, List.append_assoc, escaped]
      rw [regrouped, first, others, List.reverse_cons, List.append_assoc]
      rfl

theorem textOf_unit {n : Nat} (control : n < 0x20) (done : List Char) (pieces : List Piece) :
    textOf done (.unit n :: pieces) = textOf (Char.ofNat n :: done) pieces := by
  have alone : ¬ (decide (0xD800 ≤ n) && decide (n < 0xE000)) = true := by
    simp
    omega
  cases pieces with
  | nil => simp only [textOf, if_neg alone]
  | cons piece pieces =>
      cases piece with
      | char c => simp only [textOf, if_neg alone]
      | unit low =>
          have unpaired : ¬ (decide (0xD800 ≤ n) && decide (n < 0xDC00) &&
              decide (0xDC00 ≤ low) && decide (low < 0xE000)) = true := by
            simp
            omega
          rw [textOf, if_neg unpaired, if_neg alone]

theorem textOf_means {pieces : List Piece} {cs : List Char} (mean : List.Forall₂ Means pieces cs)
    (done : List Char) : textOf done pieces = some (String.ofList (done.reverse ++ cs)) := by
  induction mean generalizing done with
  | nil => rw [textOf, List.append_nil]
  | cons means _ ih =>
      cases means with
      | char c => rw [textOf, ih, List.reverse_cons, List.append_assoc]; rfl
      | unit control =>
          rw [textOf_unit control, Char.ofNat_toNat, ih, List.reverse_cons, List.append_assoc]
          rfl

/-- A printed string is a token for the string. -/
theorem scan_stringText (s : String) (rest : List Char) :
    scan ((stringText s).toList ++ rest) = some (.string (some s), rest) := by
  obtain ⟨pieces, mean, scanned⟩ := exists_pieces s.toList
  have text : textOf [] pieces = some s := by
    rw [textOf_means mean, List.reverse_nil, List.nil_append, String.ofList_toList]
  rw [toList_stringText, List.cons_append, List.append_assoc, List.singleton_append, scan, scanned,
    Option.map_some, List.reverse_nil, List.nil_append]
  exact congrArg (fun text => some (Token.string text, rest)) text

end Strings

/-- A number in front of the text does not go on with it. -/
def Ends (rest : List Char) : Prop :=
  ∀ c ∈ rest.head?, isDigit c = false ∧ c ≠ '.' ∧ c ≠ 'e' ∧ c ≠ 'E'

section Numbers

variable {n : Nat} {rest : List Char}

theorem isDigit_toDigits (n : Nat) : ∀ c ∈ Nat.toDigits 10 n, isDigit c = true := by
  intro c member
  have digit : c.isDigit = true := Nat.isDigit_of_mem_toDigits (by decide) (by decide) member
  simpa [isDigit] using Text.Numeral.isDigit_iff.1 digit

theorem decimal_toDigits (n : Nat) : decimal (Nat.toDigits 10 n) = n := by
  have same : decimal (Nat.toDigits 10 n) = Nat.ofDigitChars 10 (Nat.toDigits 10 n) 0 := by
    simp only [decimal, Nat.ofDigitChars_eq_foldl, Nat.mul_comm]
  rw [same, Nat.ofDigitChars_ten_toDigits]

/-- The digits end where the text does not go on with one. -/
theorem scanDigits_toDigits (ends : Ends rest) (n : Nat) :
    scanDigits (Nat.toDigits 10 n ++ rest) = some (Nat.toDigits 10 n, rest) := by
  have digits := isDigit_toDigits n
  have taken : (Nat.toDigits 10 n ++ rest).takeWhile isDigit = Nat.toDigits 10 n := by
    rw [List.takeWhile_append_of_pos digits]
    cases rest with
    | nil => simp
    | cons c rest => simp [(ends c rfl).1]
  have left : (Nat.toDigits 10 n ++ rest).dropWhile isDigit = rest := by
    rw [List.dropWhile_append_of_pos digits]
    cases rest with
    | nil => rfl
    | cons c rest => simp [(ends c rfl).1]
  simp only [scanDigits, taken, left]
  rw [if_neg (by simp [Nat.toDigits_ne_nil])]

theorem scanDecimals_of_ends (ends : Ends rest) : scanDecimals rest = some ([], rest) := by
  rw [scanDecimals]
  intro cs same
  subst same
  exact absurd rfl (ends '.' rfl).2.1

theorem scanExponent_of_ends (ends : Ends rest) : scanExponent rest = some (none, rest) := by
  cases rest with
  | nil => rfl
  | cons c rest =>
      obtain ⟨-, -, lower, upper⟩ := ends c rfl
      exact if_neg (by simp [lower, upper])

/-- Digits that are not padded are a whole number. -/
theorem scanUnsigned_toDigits (negative : Bool) (ends : Ends rest) (n : Nat) :
    scanUnsigned negative (Nat.toDigits 10 n ++ rest) =
      some (numberOf negative (Nat.toDigits 10 n) [] none, rest) := by
  have unpadded : ¬ ((Nat.toDigits 10 n).head? = some '0' ∧ Nat.toDigits 10 n ≠ ['0']) := by
    intro ⟨leading, more⟩
    cases Nat.eq_zero_or_pos n with
    | inl zero => exact more (by rw [zero]; rfl)
    | inr positive => exact Text.Numeral.head?_toDigits positive leading
  simp only [scanUnsigned, scanDigits_toDigits ends, scanDecimals_of_ends ends,
    scanExponent_of_ends ends, Option.bind_eq_bind, Option.bind_some, if_neg unpadded]
  rfl

theorem numberOf_natural (small : n ≤ 0xFFFFFFFFFFFFFFFF) :
    numberOf false (Nat.toDigits 10 n) [] none = .integer n := by
  simp [numberOf, decimal_toDigits, small]

theorem numberOf_negative (positive : 0 < n) (small : n ≤ 0x8000000000000000) :
    numberOf true (Nat.toDigits 10 n) [] none = .integer (-n) := by
  simp [numberOf, decimal_toDigits, positive, small]

/-- A text that starts with a digit is scanned as a number. -/
theorem scan_digit {c : Char} (digit : isDigit c = true) (cs : List Char) :
    scan (c :: cs) = (scanUnsigned false (c :: cs)).map fun (n, rest) => (.scalar n, rest) := by
  rw [scan]
  -- What is left is that no other token starts with a digit.
  all_goals
    intro _ same
    cases same
    cases digit

/-- A printed integer is a token for the integer. -/
theorem scan_integer {n : Int} (least : -0x8000000000000000 ≤ n)
    (greatest : n ≤ 0xFFFFFFFFFFFFFFFF) (ends : Ends rest) :
    scan ((toString n).toList ++ rest) = some (.scalar (.integer n), rest) := by
  cases n with
  | ofNat n =>
      have text : (toString (Int.ofNat n)).toList = Nat.toDigits 10 n := Nat.toList_repr
      have small : n ≤ 0xFFFFFFFFFFFFFFFF := Int.ofNat_le.1 greatest
      obtain ⟨c, digits, printed⟩ :=
        List.exists_cons_of_ne_nil (Nat.toDigits_ne_nil (n := n) (b := 10))
      have digit : isDigit c = true := isDigit_toDigits n c (by simp [printed])
      have scanned := scan_digit digit (digits ++ rest)
      rw [← List.cons_append, ← printed, scanUnsigned_toDigits false ends, numberOf_natural small]
        at scanned
      rw [text, scanned]
      rfl
  | negSucc n =>
      have text : (toString (Int.negSucc n)).toList = '-' :: Nat.toDigits 10 (n + 1) := by
        have printed : toString (Int.negSucc n) = "-" ++ (n + 1).repr := rfl
        rw [printed, String.toList_append, Nat.toList_repr]
        rfl
      rw [text, List.cons_append, scan, scanUnsigned_toDigits true ends,
        numberOf_negative (Nat.succ_pos n) (by omega)]
      rfl

end Numbers

/-- A token does not start with a space. -/
theorem scan_space {c : Char} (space : isSpace c = true) (cs : List Char) :
    scan (c :: cs) = none := by
  have other : isDigit c = false := by
    simp only [isSpace, Bool.or_eq_true, beq_iff_eq] at space
    obtain ((rfl | rfl) | rfl) | rfl := space <;> rfl
  have none_left : (c :: cs).takeWhile isDigit = [] := List.takeWhile_cons_of_neg (by simp [other])
  rw [scan]
  · rw [scanUnsigned, scanDigits, none_left]
    rfl
  all_goals
    intro _ same
    cases same
    cases space

end CloudBalancer.Json.Token
