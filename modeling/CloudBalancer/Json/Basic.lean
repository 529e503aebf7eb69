/-!
JSON values. Integers of 64 bits keep their value; of the other numbers nothing is read, so they
carry none. What is well written but no value (a string with an unpaired surrogate, an object with
such a key, a number beyond every double) is `unreadable`: it can be skipped over and no more.
-/

namespace CloudBalancer

inductive Json
  | null
  | bool (value : Bool)
  | integer (value : Int)
  | fraction
  | string (text : String)
  | array (items : List Json)
  | object (members : List (String × Json))
  | unreadable
  deriving Repr, Inhabited

namespace Json

def ofNat (n : Nat) : Json := .integer n

def strings (texts : List String) : Json := .array (texts.map .string)

def ofOption {α : Type} (encode : α → Json) : Option α → Json
  | none => .null
  | some a => encode a

/-- Deepest nesting of arrays and objects in a value. -/
def maxDepth : Nat := 127

/-- The members of an object of which, for each name, the last one counts. -/
def lastMembers : List (String × Json) → List (String × Json)
  | [] => []
  | member :: rest =>
    if rest.any fun later => later.1 == member.1 then lastMembers rest
    else member :: lastMembers rest

mutual

/-- The value meant by a text, if all of it is readable and no deeper than `room`. -/
def settle : Nat → Json → Option Json
  | room + 1, .array items => do return .array (← settleItems room items)
  | room + 1, .object members => do return .object (lastMembers (← settleMembers room members))
  | 0, .array _ | 0, .object _ | _, .unreadable => none
  | _, .null => some .null
  | _, .bool value => some (.bool value)
  | _, .integer value => some (.integer value)
  | _, .fraction => some .fraction
  | _, .string text => some (.string text)

def settleItems : Nat → List Json → Option (List Json)
  | _, [] => some []
  | room, item :: rest => do return (← settle room item) :: (← settleItems room rest)

def settleMembers : Nat → List (String × Json) → Option (List (String × Json))
  | _, [] => some []
  | room, (name, item) :: rest => do
    return (name, ← settle room item) :: (← settleMembers room rest)

end

/-- The member `name` of an object. -/
def member? (name : String) : Json → Option Json
  | .object members => members.lookup name
  | _ => none

end Json

end CloudBalancer
