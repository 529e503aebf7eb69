import CloudBalancer.Json.Basic
import CloudBalancer.NameMap

/-!
Decoding values from JSON. A record is written as an object, in which unknown members do not count
and a repeated known one is an error, or as an array of its fields in declared order. Records
whose fields all have defaults may leave fields out of either form; the others may leave out
only optional fields, and only of an object.
-/

namespace CloudBalancer.Json

abbrev Decoder (α : Type) := Json → Option α

namespace Decoder

def text : Decoder String
  | .string s => some s
  | _ => none

def flag : Decoder Bool
  | .bool b => some b
  | _ => none

def integer : Decoder Int
  | .integer n => some n
  | _ => none

/-- A number from zero to `bound`. -/
def natural (bound : Nat) : Decoder Nat
  | .integer n => if 0 ≤ n ∧ n ≤ bound then some n.toNat else none
  | _ => none

def port : Decoder UInt16 := fun j => (natural 0xFFFF j).map UInt16.ofNat

def word : Decoder UInt32 := fun j => (natural 0xFFFFFFFF j).map UInt32.ofNat

def seconds : Decoder UInt64 := fun j => (natural 0xFFFFFFFFFFFFFFFF j).map UInt64.ofNat

def list {α : Type} (item : Decoder α) : Decoder (List α)
  | .array items => items.mapM item
  | _ => none

def nullable {α : Type} (value : Decoder α) : Decoder (Option α)
  | .null => some none
  | j => (value j).map some

/-- Each name's last value counts, but every one has to decode. -/
def nameMap {α : Type} (value : Decoder α) : Decoder (NameMap α)
  | .object members => do
    let entries ← members.mapM fun (name, j) => (value j).map (name, ·)
    return .ofList entries
  | _ => none

end Decoder

def ofNameMap {α : Type} (encode : α → Json) (m : NameMap α) : Json :=
  .object (m.entries.map fun (name, value) => (name, encode value))

/-- Reads the fields of a record one after the other; `none` stands for a field left out. -/
abbrev FieldReader := StateT (List (Option Json)) Option

namespace FieldReader

/-- The next field, or `absent` where it is left out. -/
def field {α : Type} (absent : α) (decode : Decoder α) : FieldReader α
  | [] => none
  | none :: rest => some (absent, rest)
  | some j :: rest => (decode j).map (·, rest)

def required {α : Type} (decode : Decoder α) : FieldReader α
  | some j :: rest => (decode j).map (·, rest)
  | _ => none

def optional {α : Type} (decode : Decoder α) : FieldReader (Option α) :=
  field none (Decoder.nullable decode)

end FieldReader

/-- What an object says about each of `names`. -/
def written (names : List String) (members : List (String × Json)) : Option (List (Option Json)) :=
  if names.any fun name => 1 < members.countP fun member => member.1 == name then none
  else some (names.map (members.lookup ·))

/-- A record whose fields all have defaults. -/
def Decoder.lenientRecord {α : Type} (names : List String) (reader : FieldReader α) : Decoder α
  | .object members => do (reader.run (← written names members)).map Prod.fst
  | .array items =>
    if items.length ≤ names.length then
      (reader.run (items.map some ++ List.replicate (names.length - items.length) none)).map
        Prod.fst
    else none
  | _ => none

/-- A record that has to be written in full. -/
def Decoder.fullRecord {α : Type} (names : List String) (reader : FieldReader α) : Decoder α
  | .object members => do (reader.run (← written names members)).map Prod.fst
  | .array items =>
    if items.length = names.length then (reader.run (items.map some)).map Prod.fst else none
  | _ => none

end CloudBalancer.Json
