import CloudBalancer.Text
import Mathlib.Data.List.Forall2
import Mathlib.Data.List.TakeWhile

/-!
Comma separated lists. Blanks around a text are lost in trimming and nothing else is, and no comma
is a blank, so that it does not matter whether the whole list is trimmed before its items are. Main
statement: items without commas that are not blank are read back from what they are joined to, with
whatever blanks around each of them.
-/

namespace CloudBalancer.Text

/-- All characters are blanks. -/
def Blanks (cs : List Char) : Prop :=
  ∀ c ∈ cs, isBlank c = true

instance instDecidableBlanks (cs : List Char) : Decidable (Blanks cs) :=
  List.decidableBAll _ cs

variable {left right cs : List Char}

theorem Blanks.comma_not_mem (blanks : Blanks cs) : ',' ∉ cs := fun member =>
  absurd (blanks ',' member) (by decide)

theorem Blanks.reverse (blanks : Blanks cs) : Blanks cs.reverse := fun c member =>
  blanks c (List.mem_reverse.1 member)

theorem blanks_takeWhile (cs : List Char) : Blanks (cs.takeWhile isBlank) :=
  fun _ => List.mem_takeWhile_imp

theorem trimChars_append_left (blanks : Blanks left) (cs : List Char) :
    trimChars (left ++ cs) = trimChars cs := by
  rw [trimChars, trimChars, List.dropWhile_append_of_pos blanks]

theorem trimChars_append_right (blanks : Blanks right) (cs : List Char) :
    trimChars (cs ++ right) = trimChars cs := by
  have dropped : right.dropWhile isBlank = [] := List.dropWhile_eq_nil_iff.2 blanks
  simp only [trimChars, List.dropWhile_append]
  split
  · next all => rw [dropped, List.isEmpty_iff.1 all]
  · rw [List.reverse_append, List.dropWhile_append_of_pos blanks.reverse]

theorem trimChars_padded (before : Blanks left) (after : Blanks right) (cs : List Char) :
    trimChars (left ++ cs ++ right) = trimChars cs := by
  rw [trimChars_append_right after, trimChars_append_left before]

/-- What is trimmed away are blanks on both sides. -/
theorem exists_trimChars (cs : List Char) :
    ∃ left right, Blanks left ∧ Blanks right ∧ cs = left ++ trimChars cs ++ right := by
  let after := cs.dropWhile isBlank
  have front : cs.takeWhile isBlank ++ after = cs := List.takeWhile_append_dropWhile
  have back : trimChars cs ++ (after.reverse.takeWhile isBlank).reverse = after := by
    rw [trimChars, ← List.reverse_append, List.takeWhile_append_dropWhile, List.reverse_reverse]
  refine ⟨_, _, blanks_takeWhile cs, (blanks_takeWhile after.reverse).reverse, ?_⟩
  rw [List.append_assoc, back, front]

theorem trimChars_trimChars (cs : List Char) : trimChars (trimChars cs) = trimChars cs := by
  obtain ⟨left, right, before, after, same⟩ := exists_trimChars cs
  rw [← trimChars_padded before after (trimChars cs), ← same]

@[simp]
theorem trim_trim (s : String) : trim (trim s) = trim s := by
  rw [trim, trim, String.toList_ofList, trimChars_trimChars]

/-- The items of a list, blank ones included. -/
def trimmedItems (cs : List Char) : List (List Char) :=
  (cs.splitOn ',').map trimChars

theorem trimmedItems_of_free (free : ',' ∉ cs) : trimmedItems cs = [trimChars cs] := by
  rw [trimmedItems, List.splitOn_eq_singleton free, List.map_singleton]

theorem trimmedItems_append_comma (front back : List Char) :
    trimmedItems (front ++ ',' :: back) = trimmedItems front ++ trimmedItems back := by
  rw [trimmedItems, List.splitOn_append_cons_self, List.map_append, trimmedItems, trimmedItems]

/-- Blanks before a list belong to its first item. -/
theorem trimmedItems_append_left (blanks : Blanks left) (cs : List Char) :
    trimmedItems (left ++ cs) = trimmedItems cs := by
  have padded {item : List Char} (free : ',' ∉ item) :
      trimmedItems (left ++ item) = trimmedItems item := by
    have still_free : ',' ∉ left ++ item := by simp [blanks.comma_not_mem, free]
    rw [trimmedItems_of_free still_free, trimmedItems_of_free free, trimChars_append_left blanks]
  by_cases comma : ',' ∈ cs
  · obtain ⟨first, others, rfl, free⟩ := List.eq_append_cons_of_mem comma
    rw [← List.append_assoc, trimmedItems_append_comma, trimmedItems_append_comma, padded free]
  · exact padded comma

/-- Blanks behind a list belong to its last item. -/
theorem trimmedItems_append_right (blanks : Blanks right) (cs : List Char) :
    trimmedItems (cs ++ right) = trimmedItems cs := by
  have padded {item : List Char} (free : ',' ∉ item) :
      trimmedItems (item ++ right) = trimmedItems item := by
    have still_free : ',' ∉ item ++ right := by simp [blanks.comma_not_mem, free]
    rw [trimmedItems_of_free still_free, trimmedItems_of_free free, trimChars_append_right blanks]
  by_cases comma : ',' ∈ cs
  · obtain ⟨last, others, same, free⟩ := List.eq_append_cons_of_mem (List.mem_reverse.2 comma)
    have split : cs = others.reverse ++ ',' :: last.reverse := by
      rw [← List.reverse_reverse cs, same]
      simp
    have last_free : ',' ∉ last.reverse := by simpa using free
    rw [split, List.append_assoc, List.cons_append, trimmedItems_append_comma,
      trimmedItems_append_comma, padded last_free]
  · exact padded comma

theorem trimmedItems_trimChars (cs : List Char) :
    trimmedItems (trimChars cs) = trimmedItems cs := by
  obtain ⟨left, right, before, after, same⟩ := exists_trimChars cs
  conv => rhs; rw [same]
  rw [trimmedItems_append_right after, trimmedItems_append_left before]

theorem commaItems_eq (s : String) :
    commaItems s = (trimmedItems s.toList).filterMap fun item =>
      if item.isEmpty then none else some (String.ofList item) :=
  rfl

/-- Trimming a list first changes none of its items. -/
theorem commaItems_trim (s : String) : commaItems (trim s) = commaItems s := by
  rw [commaItems_eq, commaItems_eq, trim, String.toList_ofList, trimmedItems_trimChars]

/-- The text with blanks around it. -/
def Padded (item padded : String) : Prop :=
  ∃ left right : String, Blanks left.toList ∧ Blanks right.toList ∧ padded = left ++ item ++ right

theorem Padded.trimChars_eq {item padded : String} (h : Padded item padded) :
    trimChars padded.toList = trimChars item.toList := by
  obtain ⟨left, right, before, after, rfl⟩ := h
  rw [String.toList_append, String.toList_append, trimChars_padded before after]

theorem Padded.free {item padded : String} (h : Padded item padded) (free : ',' ∉ item.toList) :
    ',' ∉ padded.toList := by
  obtain ⟨left, right, before, after, rfl⟩ := h
  simp [before.comma_not_mem, after.comma_not_mem, free]

/-- The text can be an item of a list. -/
structure IsItem (s : String) : Prop where
  unblank : trim s ≠ ""
  free : ',' ∉ s.toList

instance instDecidableIsItem (s : String) : Decidable (IsItem s) :=
  decidable_of_iff (trim s ≠ "" ∧ ',' ∉ s.toList)
    ⟨fun ⟨unblank, free⟩ => ⟨unblank, free⟩, fun item => ⟨item.unblank, item.free⟩⟩

section Joined

variable {items padded : List String}

theorem free_of_padded (pads : List.Forall₂ Padded items padded)
    (all_items : ∀ item ∈ items, IsItem item) : ∀ text ∈ padded, ',' ∉ text.toList := by
  induction pads with
  | nil => simp
  | cons pad _ ih =>
      obtain ⟨first, others⟩ := List.forall_mem_cons.1 all_items
      exact List.forall_mem_cons.2 ⟨pad.free first.free, ih others⟩

theorem map_trimChars_padded (pads : List.Forall₂ Padded items padded) :
    (padded.map String.toList).map trimChars = (items.map String.toList).map trimChars := by
  induction pads with
  | nil => rfl
  | cons pad _ ih =>
      simp only [List.map_cons, pad.trimChars_eq]
      rw [ih]

theorem trimmedItems_joined (pads : List.Forall₂ Padded items padded) (some_item : items ≠ [])
    (all_items : ∀ item ∈ items, IsItem item) :
    trimmedItems (",".intercalate padded).toList = (items.map String.toList).map trimChars := by
  have some_padded : padded.map String.toList ≠ [] := by
    intro none_padded
    have same_length := pads.length_eq
    rw [List.map_eq_nil_iff.1 none_padded] at same_length
    exact some_item (List.eq_nil_of_length_eq_zero same_length)
  have free : ∀ cs ∈ padded.map String.toList, ',' ∉ cs :=
    List.forall_mem_map.2 (free_of_padded pads all_items)
  have comma : ",".toList = [','] := rfl
  rw [trimmedItems, String.toList_intercalate, comma, List.splitOn_intercalate ',' free some_padded,
    map_trimChars_padded pads]

/-- The items of a list are those that were joined, trimmed. -/
theorem commaItems_joined (pads : List.Forall₂ Padded items padded) (some_item : items ≠ [])
    (all_items : ∀ item ∈ items, IsItem item) :
    commaItems (",".intercalate padded) = items.map trim := by
  rw [commaItems_eq, trimmedItems_joined pads some_item all_items, List.filterMap_map,
    List.filterMap_map, ← List.filterMap_eq_map]
  refine List.filterMap_congr fun item member => ?_
  have kept : trimChars item.toList ≠ [] := fun blank =>
    (all_items item member).unblank (by rw [trim, blank])
  simp [trim, kept]

end Joined

end CloudBalancer.Text
