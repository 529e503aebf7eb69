/-!
Finite maps whose keys are names, kept in the order of the names: by code point, which is also
the order of their UTF-8 bytes. The entries are part of the value, so two maps with the same
look-ups are equal.
-/

namespace CloudBalancer

/-- The entry of `name` replaced, or put in its place in an ascending list. -/
def insertEntry {α : Type} (name : String) (value : α) :
    List (String × α) → List (String × α)
  | [] => [(name, value)]
  | entry :: rest =>
    if name = entry.1 then (name, value) :: rest
    else if name < entry.1 then (name, value) :: entry :: rest
    else entry :: insertEntry name value rest

def Ascending {α : Type} (entries : List (String × α)) : Prop :=
  entries.Pairwise fun a b => a.1 < b.1

theorem mem_insertEntry {α : Type} {name : String} {value : α} {e : String × α}
    {entries : List (String × α)} (h : e ∈ insertEntry name value entries) :
    e = (name, value) ∨ e ∈ entries := by
  induction entries with
  | nil => simpa [insertEntry] using h
  | cons entry rest ih =>
    unfold insertEntry at h
    split at h
    · exact (List.mem_cons.1 h).imp id (.tail _)
    · split at h
      · exact List.mem_cons.1 h
      · rcases List.mem_cons.1 h with rfl | h
        · exact .inr (.head _)
        · exact (ih h).imp id (.tail _)

theorem name_lt_of_not_le {a b : String} (hne : ¬ a = b) (hlt : ¬ a < b) : b < a := by
  rcases Decidable.em (b < a) with h | h
  · exact h
  · exact absurd (String.le_antisymm (String.not_lt.1 h) (String.not_lt.1 hlt)) hne

theorem ascending_insertEntry {α : Type} {name : String} {value : α}
    {entries : List (String × α)} (h : Ascending entries) :
    Ascending (insertEntry name value entries) := by
  induction entries with
  | nil => simp [insertEntry, Ascending]
  | cons entry rest ih =>
    obtain ⟨hle, hrest⟩ := List.pairwise_cons.1 h
    unfold insertEntry
    split
    · next heq => exact List.pairwise_cons.2 ⟨fun e he => heq ▸ hle e he, hrest⟩
    · next hne =>
      split
      · next hlt =>
        refine List.pairwise_cons.2 ⟨fun e he => ?_, h⟩
        rcases List.mem_cons.1 he with rfl | he
        · exact hlt
        · exact String.lt_trans hlt (hle e he)
      · next hlt =>
        refine List.pairwise_cons.2 ⟨fun e he => ?_, ih hrest⟩
        rcases mem_insertEntry he with rfl | he
        · exact name_lt_of_not_le hne hlt
        · exact hle e he

structure NameMap (α : Type) where
  entries : List (String × α)
  ascending : Ascending entries

namespace NameMap

variable {α : Type}

@[ext]
theorem ext {m n : NameMap α} (h : m.entries = n.entries) : m = n := by
  cases m; cases n; cases h; rfl

instance [DecidableEq α] : DecidableEq (NameMap α) := fun m n =>
  decidable_of_iff (m.entries = n.entries) ⟨ext, fun h => h ▸ rfl⟩

def empty : NameMap α := ⟨[], .nil⟩

instance : EmptyCollection (NameMap α) := ⟨empty⟩

instance : Inhabited (NameMap α) := ⟨empty⟩

def get? (m : NameMap α) (name : String) : Option α :=
  m.entries.lookup name

def contains (m : NameMap α) (name : String) : Bool :=
  (m.get? name).isSome

def insert (m : NameMap α) (name : String) (value : α) : NameMap α :=
  ⟨insertEntry name value m.entries, ascending_insertEntry m.ascending⟩

def erase (m : NameMap α) (name : String) : NameMap α :=
  ⟨m.entries.filter fun e => e.1 ≠ name, m.ascending.filter _⟩

/-- The entry of `name` changed by `f`, which is given nothing where there is none yet. -/
def alter (m : NameMap α) (name : String) (f : Option α → α) : NameMap α :=
  m.insert name (f (m.get? name))

def values (m : NameMap α) : List α :=
  m.entries.map Prod.snd

/-- Later entries of one name replace earlier ones. -/
def ofList (entries : List (String × α)) : NameMap α :=
  entries.foldl (fun m e => m.insert e.1 e.2) ∅

end NameMap

end CloudBalancer
