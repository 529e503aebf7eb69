import CloudBalancer.Json.Basic
import CloudBalancer.Text

/-!
Printing JSON, on one line or indented by two spaces. Strings keep every character but the quote,
the backslash and the control characters.
-/

namespace CloudBalancer.Json

def escapedChar (c : Char) : String :=
  if c = '"' then "\\\""
  else if c = '\\' then "\\\\"
  else if c = '\x08' then "\\b"
  else if c = '\x0c' then "\\f"
  else if c = '\n' then "\\n"
  else if c = '\r' then "\\r"
  else if c = '\t' then "\\t"
  else if c.toNat < 0x10 then "\\u000" ++ Text.Numeral.hex c.toNat
  else if c.toNat < 0x20 then "\\u00" ++ Text.Numeral.hex c.toNat
  else c.toString

def stringText (s : String) : String :=
  "\"" ++ String.join (s.toList.map escapedChar) ++ "\""

/-- Text of a scalar; what has no value of its own prints as `null`. -/
def scalarText : Json → String
  | .bool true => "true"
  | .bool false => "false"
  | .integer n => toString n
  | .string s => stringText s
  | _ => "null"

mutual

def compact : Json → String
  | .array items => "[" ++ ",".intercalate (compactItems items) ++ "]"
  | .object members => "\x7b" ++ ",".intercalate (compactMembers members) ++ "\x7d"
  | scalar => scalarText scalar

def compactItems : List Json → List String
  | [] => []
  | item :: rest => compact item :: compactItems rest

def compactMembers : List (String × Json) → List String
  | [] => []
  | (name, value) :: rest => (stringText name ++ ":" ++ compact value) :: compactMembers rest

end

def indentation (depth : Nat) : String :=
  String.ofList (List.replicate (2 * depth) ' ')

/-- The parts of an array or object, each on a line of its own. -/
def framed (opening closing : String) (depth : Nat) (parts : List String) : String :=
  if parts.isEmpty then opening ++ closing
  else
    opening ++ "\n" ++ ",\n".intercalate (parts.map (indentation (depth + 1) ++ ·)) ++ "\n" ++
      indentation depth ++ closing

mutual

/-- Indented text of a value that starts `depth` levels deep. -/
def prettyAt (depth : Nat) : Json → String
  | .array items => framed "[" "]" depth (prettyItems (depth + 1) items)
  | .object members => framed "\x7b" "\x7d" depth (prettyMembers (depth + 1) members)
  | scalar => scalarText scalar

def prettyItems (depth : Nat) : List Json → List String
  | [] => []
  | item :: rest => prettyAt depth item :: prettyItems depth rest

def prettyMembers (depth : Nat) : List (String × Json) → List String
  | [] => []
  | (name, value) :: rest =>
    (stringText name ++ ": " ++ prettyAt depth value) :: prettyMembers depth rest

end

def pretty (j : Json) : String := prettyAt 0 j

end CloudBalancer.Json
