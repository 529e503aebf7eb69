import CloudBalancer.Json.Record
import CloudBalancer.Proofs.LookUp
import Mathlib.Data.List.Nodup

/-!
How decoding undoes encoding: part by part for numbers, lists, options and maps, and field by field
for records, which are written as objects with one member for each field. What an encoder makes can
also be written as text: it has neither fractions nor unreadable parts, and its numbers are short.
-/

namespace CloudBalancer.Json

/-- Values that a text can say. -/
inductive Writable : Json → Prop
  | null : Writable .null
  | bool (value : Bool) : Writable (.bool value)
  | integer {n : Int} (least : -0x8000000000000000 ≤ n) (greatest : n ≤ 0xFFFFFFFFFFFFFFFF) :
      Writable (.integer n)
  | string (text : String) : Writable (.string text)
  | array {items : List Json} (each : ∀ item ∈ items, Writable item) : Writable (.array items)
  | object {members : List (String × Json)} (each : ∀ member ∈ members, Writable member.2) :
      Writable (.object members)

/-- What is encoded can be written, and is decoded again. -/
structure Faithful {α : Type} (encode : α → Json) (decode : Decoder α) : Prop where
  writable : ∀ a, Writable (encode a)
  decoded : ∀ a, decode (encode a) = some a

theorem mapM_map_eq_some {α β : Type} {encode : α → β} {decode : β → Option α} {as : List α}
    (decoded : ∀ a ∈ as, decode (encode a) = some a) : (as.map encode).mapM decode = some as := by
  induction as with
  | nil => rfl
  | cons a rest ih =>
      obtain ⟨first, others⟩ := List.forall_mem_cons.1 decoded
      rw [List.map_cons, List.mapM_cons, first, ih others]
      rfl

theorem writable_ofNat {n : Nat} (small : n ≤ 0xFFFFFFFFFFFFFFFF) : Writable (.ofNat n) :=
  .integer (by omega) (by omega)

theorem natural_ofNat {bound n : Nat} (small : n ≤ bound) :
    Decoder.natural bound (.ofNat n) = some n := by
  have within : (0 : Int) ≤ n ∧ (n : Int) ≤ bound := by omega
  rw [ofNat, Decoder.natural, if_pos within, Int.toNat_natCast]

namespace Faithful

variable {α : Type} {encode : α → Json} {decode : Decoder α}

theorem text : Faithful .string .text := ⟨.string, fun _ => rfl⟩

theorem flag : Faithful .bool .flag := ⟨.bool, fun _ => rfl⟩

/-- A number of a bounded type is written as the natural number that it is. -/
theorem number {toNat : α → Nat} {ofNat : Nat → α} {bound : Nat} (small : ∀ a, toNat a ≤ bound)
    (readable : bound ≤ 0xFFFFFFFFFFFFFFFF) (back : ∀ a, ofNat (toNat a) = a) :
    Faithful (fun a => .ofNat (toNat a)) (fun j => (Decoder.natural bound j).map ofNat) where
  writable a := writable_ofNat (Nat.le_trans (small a) readable)
  decoded a := by rw [natural_ofNat (small a), Option.map_some, back]

theorem port : Faithful (fun n : UInt16 => .ofNat n.toNat) .port :=
  number (fun n => Nat.le_of_lt_succ n.toNat_lt) (by decide) fun n => UInt16.ofNat_toNat

theorem word : Faithful (fun n : UInt32 => .ofNat n.toNat) .word :=
  number (fun n => Nat.le_of_lt_succ n.toNat_lt) (by decide) fun n => UInt32.ofNat_toNat

theorem seconds : Faithful (fun n : UInt64 => .ofNat n.toNat) .seconds :=
  number (fun n => Nat.le_of_lt_succ n.toNat_lt) (by decide) fun n => UInt64.ofNat_toNat

theorem list (items : Faithful encode decode) :
    Faithful (fun as => .array (as.map encode)) (.list decode) where
  writable as := by
    refine .array (List.forall_mem_map.2 fun a _ => items.writable a)
  decoded _ := mapM_map_eq_some fun a _ => items.decoded a

theorem strings : Faithful .strings (.list .text) := text.list

/-- An option is told from a value as that is never read from `null`. -/
theorem nullable (value : Faithful encode decode) (some_value : decode .null = none) :
    Faithful (.ofOption encode) (.nullable decode) where
  writable o := by
    cases o with
    | none => exact .null
    | some a => exact value.writable a
  decoded o := by
    cases o with
    | none => rfl
    | some a =>
        have decoded := value.decoded a
        rw [ofOption, Decoder.nullable, decoded]
        · rfl
        · intro null
          rw [null, some_value] at decoded
          cases decoded

theorem nameMap (value : Faithful encode decode) :
    Faithful (ofNameMap encode) (.nameMap decode) where
  writable m := .object (List.forall_mem_map.2 fun entry _ => value.writable entry.2)
  decoded m := by
    have entries : (m.entries.map fun entry => (entry.1, encode entry.2)).mapM
        (fun entry => (decode entry.2).map (entry.1, ·)) = some m.entries :=
      mapM_map_eq_some fun entry _ => by rw [value.decoded entry.2, Option.map_some]
    show ((m.entries.map fun entry => (entry.1, encode entry.2)).mapM
      fun entry => (decode entry.2).map (entry.1, ·)).bind (fun es => some (.ofList es)) = some m
    rw [entries, Option.bind_some, NameMap.ofList_entries]

end Faithful

section Written

variable {members : List (String × Json)}

/-- Each name is looked up where it stands. -/
theorem map_lookup_eq (distinct : (members.map Prod.fst).Nodup) :
    (members.map Prod.fst).map (members.lookup ·) = (members.map Prod.snd).map some := by
  induction members with
  | nil => rfl
  | cons member rest ih =>
      rw [List.map_cons, List.nodup_cons] at distinct
      obtain ⟨absent, distinct⟩ := distinct
      have others : (rest.map Prod.fst).map ((member :: rest).lookup ·) =
          (rest.map Prod.fst).map (rest.lookup ·) := by
        refine List.map_congr_left fun name member_name => ?_
        have other : name ≠ member.1 := fun same => absent (same ▸ member_name)
        rw [lookup_cons_name, if_neg other]
      rw [List.map_cons, List.map_cons, List.map_cons, List.map_cons, others, ih distinct,
        lookup_cons_name, if_pos rfl]

theorem written_eq (distinct : (members.map Prod.fst).Nodup) :
    written (members.map Prod.fst) members = some ((members.map Prod.snd).map some) := by
  have once : ((members.map Prod.fst).any fun name =>
      1 < members.countP fun member => member.1 == name) = false := by
    rw [List.any_eq_false]
    intro name _
    have count := List.nodup_iff_count_le_one.1 distinct name
    rw [List.count, List.countP_map] at count
    simpa [Function.comp_def] using count
  rw [written, once, if_neg Bool.false_ne_true, map_lookup_eq distinct]

end Written

/-- The fields can be written, and the reader takes all of them and makes the value. -/
structure Recorded {α : Type} (reader : FieldReader α) (fields : List Json) (a : α) : Prop where
  writable : ∀ j ∈ fields, Writable j
  made : reader (fields.map some) = some (a, [])

namespace Recorded

variable {α β : Type} {reader : α → FieldReader β} {encode : α → Json} {decode : Decoder α}
  {fields : List Json} {b : β}

theorem pure : Recorded (Pure.pure b) [] b := ⟨List.forall_mem_nil _, rfl⟩

/-- One field, and the rest of the record. -/
theorem cons {first : FieldReader α} (part : Faithful encode decode) (a : α)
    (taken : ∀ rest, first (some (encode a) :: rest) = (decode (encode a)).map (·, rest))
    (others : Recorded (reader a) fields b) :
    Recorded (first >>= reader) (encode a :: fields) b where
  writable := List.forall_mem_cons.2 ⟨part.writable a, others.writable⟩
  made := by
    show (first (some (encode a) :: fields.map some)).bind (fun (a, rest) => reader a rest) =
      some (b, [])
    rw [taken, part.decoded a]
    exact others.made

theorem field {absent : α} (part : Faithful encode decode) (a : α)
    (others : Recorded (reader a) fields b) :
    Recorded (FieldReader.field absent decode >>= reader) (encode a :: fields) b :=
  others.cons part a fun _ => rfl

theorem required (part : Faithful encode decode) (a : α)
    (others : Recorded (reader a) fields b) :
    Recorded (FieldReader.required decode >>= reader) (encode a :: fields) b :=
  others.cons part a fun _ => rfl

end Recorded

section Object

variable {α : Type} {names : List String} {reader : FieldReader α}
  {members : α → List (String × Json)}

theorem writable_members {members : List (String × Json)}
    (fields : ∀ j ∈ members.map Prod.snd, Writable j) : Writable (.object members) :=
  .object (List.forall_mem_map.1 fields)

/-- A record that is read from its members, whatever else it might be read from. -/
theorem Faithful.record {decode : Decoder α}
    (object : ∀ members, decode (.object members) =
      (written names members).bind fun fields => (reader.run fields).map Prod.fst)
    (distinct : names.Nodup) (named : ∀ a, (members a).map Prod.fst = names)
    (recorded : ∀ a, Recorded reader ((members a).map Prod.snd) a) :
    Faithful (fun a => .object (members a)) decode where
  writable a := writable_members (recorded a).writable
  decoded a := by
    rw [object, ← named a, written_eq (named a ▸ distinct), Option.bind_some, StateT.run,
      (recorded a).made]
    rfl

theorem Faithful.lenientRecord (distinct : names.Nodup)
    (named : ∀ a, (members a).map Prod.fst = names)
    (recorded : ∀ a, Recorded reader ((members a).map Prod.snd) a) :
    Faithful (fun a => .object (members a)) (.lenientRecord names reader) :=
  .record (fun _ => rfl) distinct named recorded

theorem Faithful.fullRecord (distinct : names.Nodup)
    (named : ∀ a, (members a).map Prod.fst = names)
    (recorded : ∀ a, Recorded reader ((members a).map Prod.snd) a) :
    Faithful (fun a => .object (members a)) (.fullRecord names reader) :=
  .record (fun _ => rfl) distinct named recorded

end Object

end CloudBalancer.Json
