import CloudBalancer.Json.Record
import CloudBalancer.NameMap

/-!
Security groups: which instances they protect and which inbound traffic they let through. Groups
and their rules have JSON forms.
-/

namespace CloudBalancer

structure Rule where
  protocol : String
  fromPort : Option UInt16
  toPort : Option UInt16
  direction : String
  sources : List String
  deriving DecidableEq, Repr

namespace Rule

/-- Lets `source` in with `protocol` on `port`, or on no port at all. -/
def inbound (protocol : String) (port : Option UInt16) (source : String) : Rule :=
  ⟨protocol, port, port, "IN", [source]⟩

def text (rule : Rule) : String :=
  let traffic :=
    match rule.fromPort with
    | some port => s!"{rule.direction} {rule.protocol}:{port}"
    | none => s!"{rule.direction} {rule.protocol}"
  traffic ++ " from " ++ ",".intercalate rule.sources

end Rule

structure SecurityGroup where
  instanceIds : List String := []
  rules : List Rule := []
  deriving DecidableEq, Repr

/-- A rule on a group. -/
abbrev Grant : Type := String × Rule

open Json

namespace Rule

def fields : List String := ["protocol", "fromPort", "toPort", "inOut", "ipRanges"]

def portToJson (port : UInt16) : Json := .ofNat port.toNat

def toJson (rule : Rule) : Json :=
  .object [("protocol", .string rule.protocol), ("fromPort", .ofOption portToJson rule.fromPort),
    ("toPort", .ofOption portToJson rule.toPort), ("inOut", .string rule.direction),
    ("ipRanges", .strings rule.sources)]

def ofJson? : Decoder Rule :=
  .fullRecord fields do
    return {
      protocol := ← .required .text
      fromPort := ← .optional .port
      toPort := ← .optional .port
      direction := ← .required .text
      sources := ← .required (.list .text) }

end Rule

namespace SecurityGroup

def toJson (group : SecurityGroup) : Json :=
  .object [("instanceIds", .strings group.instanceIds),
    ("rules", .array (group.rules.map Rule.toJson))]

def ofJson? : Decoder SecurityGroup :=
  .lenientRecord ["instanceIds", "rules"] do
    return {
      instanceIds := ← .field [] (.list .text)
      rules := ← .field [] (.list Rule.ofJson?) }

end SecurityGroup

end CloudBalancer
