import Mathlib.Data.String.Basic
import Mathlib.Data.List.Lex

/-!
The order of texts. Comparing code points comes to the same as comparing UTF-8 bytes: of two
characters the lesser one has the lesser byte at the first place where their encodings differ, and
neither encoding begins the other.
-/

namespace CloudBalancer.Text

/-- The UTF-8 bytes of a text. -/
def utf8 (s : String) : List UInt8 :=
  s.toUTF8.data.toList

theorem utf8_eq_flatMap (s : String) : utf8 s = s.toList.flatMap String.utf8EncodeChar := by
  rw [utf8, String.toUTF8, ← String.utf8Encode_toList, List.utf8Encode,
    List.toList_data_toByteArray]

theorem toNat_val_lt (c : Char) : c.val.toNat < 0x110000 := by
  have valid := c.valid
  simp only [UInt32.isValidChar, Nat.isValidChar] at valid
  omega

/-- One case for each pair of encoded lengths; the bytes are compared as the numbers that their
payload bits are. -/
theorem encodeChar_append_lt {c d : Char} (h : c < d) (l m : List UInt8) :
    String.utf8EncodeChar c ++ l < String.utf8EncodeChar d ++ m := by
  have less : c.val.toNat < d.val.toNat := h
  have bound := toNat_val_lt d
  have lead2 (n : Nat) : (n % 32 + 192) % 2 ^ 8 = n % 32 + 192 := by omega
  have lead3 (n : Nat) : (n % 16 + 224) % 2 ^ 8 = n % 16 + 224 := by omega
  have lead4 (n : Nat) : (n % 8 + 240) % 2 ^ 8 = n % 8 + 240 := by omega
  have trail (n : Nat) : (n % 64 + 128) % 2 ^ 8 = n % 64 + 128 := by omega
  have second (n : Nat) : n / 4096 = n / 64 / 64 := by omega
  have third (n : Nat) : n / 262144 = n / 64 / 64 / 64 := by omega
  simp only [String.utf8EncodeChar]
  repeat' split
  all_goals
    simp only [List.cons_append, List.cons_lt_cons_iff, UInt8.lt_iff_toNat_lt, UInt8.toNat_ofNat',
      ← UInt8.toNat_inj, lead2, lead3, lead4, trail, second, third]
    omega

theorem flatMap_encodeChar_lt {l m : List Char} (h : l < m) :
    l.flatMap String.utf8EncodeChar < m.flatMap String.utf8EncodeChar := by
  induction h with
  | nil =>
      rename_i c m
      obtain ⟨first, rest, encoded⟩ :=
        List.exists_cons_of_ne_nil (String.utf8EncodeChar_ne_nil (c := c))
      simp [encoded]
  | cons h ih => exact List.append_left_lt ih
  | rel h => exact encodeChar_append_lt h _ _

theorem utf8_lt_of_lt {a b : String} (h : a < b) : utf8 a < utf8 b := by
  rw [utf8_eq_flatMap, utf8_eq_flatMap]
  exact flatMap_encodeChar_lt h

theorem utf8_le_iff {a b : String} : utf8 a ≤ utf8 b ↔ a ≤ b := by
  constructor
  · intro bytes
    by_contra later
    exact List.not_lt.2 bytes (utf8_lt_of_lt (String.not_le.1 later))
  · intro h
    cases h.eq_or_lt with
    | inl same => exact same ▸ List.le_refl _
    | inr less => exact List.le_of_lt (utf8_lt_of_lt less)

end CloudBalancer.Text
