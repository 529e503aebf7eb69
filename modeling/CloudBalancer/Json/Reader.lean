import CloudBalancer.Json.Token

/-!
Reading JSON: an automaton takes one token at a time, with the arrays and objects still open on a
stack. A text is one value and nothing else.
-/

namespace CloudBalancer.Json

/-- An array or object still open, its parts newest first. -/
inductive Frame
  | items (done : List Json)
  /-- `sound` says that every key so far is text. -/
  | members (done : List (String × Json)) (sound : Bool)
  /-- As `members`, waiting for the value of a key. -/
  | member (done : List (String × Json)) (sound : Bool) (key : Option String)

/-- What the next token has to be. -/
inductive Expecting
  | value
  | valueOrClose
  | key
  | keyOrClose
  | colon (key : Option String)
  | next (value : Json)

structure Automaton where
  expecting : Expecting
  stack : List Frame

namespace Automaton

def start : Automaton := ⟨.value, []⟩

def closed (done : List (String × Json)) (sound : Bool) : Json :=
  if sound then .object done.reverse else .unreadable

def extended (done : List (String × Json)) (key : Option String) (value : Json) :
    List (String × Json) :=
  match key with
  | some name => (name, value) :: done
  | none => done

def beginValue (stack : List Frame) : Token → Option Automaton
  | .scalar value => some ⟨.next value, stack⟩
  | .string (some text) => some ⟨.next (.string text), stack⟩
  | .string none => some ⟨.next .unreadable, stack⟩
  | .openBracket => some ⟨.valueOrClose, .items [] :: stack⟩
  | .openBrace => some ⟨.keyOrClose, .members [] true :: stack⟩
  | _ => none

def step (a : Automaton) (token : Token) : Option Automaton :=
  match a.expecting, token, a.stack with
  | .value, token, stack => beginValue stack token
  | .valueOrClose, .closeBracket, .items _ :: stack => some ⟨.next (.array []), stack⟩
  | .valueOrClose, token, stack => beginValue stack token
  | .keyOrClose, .closeBrace, .members done sound :: stack =>
    some ⟨.next (closed done sound), stack⟩
  | .keyOrClose, .string key, stack | .key, .string key, stack => some ⟨.colon key, stack⟩
  | .colon key, .colon, .members done sound :: stack =>
    some ⟨.value, .member done sound key :: stack⟩
  | .next value, .comma, .items done :: stack => some ⟨.value, .items (value :: done) :: stack⟩
  | .next value, .closeBracket, .items done :: stack =>
    some ⟨.next (.array (value :: done).reverse), stack⟩
  | .next value, .comma, .member done sound key :: stack =>
    some ⟨.key, .members (extended done key value) (sound && key.isSome) :: stack⟩
  | .next value, .closeBrace, .member done sound key :: stack =>
    some ⟨.next (closed (extended done key value) (sound && key.isSome)), stack⟩
  | _, _, _ => none

def result? : Automaton → Option Json
  | ⟨.next value, []⟩ => some value
  | _ => none

end Automaton

/-- The text as written, repeated keys and unreadable parts included. -/
def parse? (s : String) : Option Json := do
  let tokens ← tokens? s
  (← tokens.foldlM Automaton.step .start).result?

/-- The value meant by the text. -/
def parseValue? (s : String) : Option Json :=
  (parse? s).bind (settle maxDepth)

end CloudBalancer.Json
