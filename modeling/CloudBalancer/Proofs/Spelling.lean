import CloudBalancer.Json.Reader
import CloudBalancer.Proofs.Records
import CloudBalancer.Proofs.Tokens

/-!
Printed values are read back. Both layouts write a value with the same tokens and put nothing but
white space between them, and of these tokens the automaton makes the value again.
-/

namespace CloudBalancer.Json

namespace Token

/-- The text is made of the tokens and of white space. -/
inductive Lexed : List Char → List Token → Prop
  | nil : Lexed [] []
  | space {c : Char} {cs : List Char} {tokens : List Token} (space : isSpace c = true)
      (more : Lexed cs tokens) : Lexed (c :: cs) tokens
  | token {c : Char} {cs rest : List Char} {token : Token} {tokens : List Token}
      (scanned : scan (c :: (cs ++ rest)) = some (token, rest)) (more : Lexed rest tokens) :
      Lexed (c :: (cs ++ rest)) (token :: tokens)

theorem scanAll_of_lexed {cs : List Char} {tokens : List Token} (lexed : Lexed cs tokens)
    {room : Nat} (enough : cs.length ≤ room) (done : List Token) :
    scanAll room done cs = some (done.reverse ++ tokens) := by
  induction lexed generalizing room done with
  | nil => rw [scanAll, List.dropWhile_nil, List.append_nil]
  | space space more ih =>
      rw [scanAll, List.dropWhile_cons_of_pos space, ← scanAll]
      exact ih (Nat.le_of_succ_le enough) done
  | @token c cs rest token tokens scanned more ih =>
      have solid : ¬ isSpace c = true := fun space => by
        rw [scan_space space] at scanned
        cases scanned
      cases room with
      | zero => cases enough
      | succ room =>
          have shorter : rest.length ≤ room := by
            simp only [List.length_cons, List.length_append] at enough
            omega
          rw [scanAll, List.dropWhile_cons_of_neg solid]
          simp only [scanned, ih shorter, List.reverse_cons, List.append_assoc,
            List.singleton_append]

theorem tokens?_of_lexed {s : String} {tokens : List Token} (lexed : Lexed s.toList tokens) :
    tokens? s = some tokens :=
  scanAll_of_lexed lexed (Nat.le_refl _) []

/-- The text consists of white space. -/
def Gap (text : List Char) : Prop :=
  ∀ c ∈ text, isSpace c = true

theorem Gap.nil : Gap [] := List.forall_mem_nil _

theorem Gap.spaces (n : Nat) : Gap (List.replicate n ' ') := fun c member => by
  rw [List.eq_of_mem_replicate member]
  rfl

theorem Gap.cons {c : Char} {text : List Char} (space : isSpace c = true) (gap : Gap text) :
    Gap (c :: text) :=
  List.forall_mem_cons.2 ⟨space, gap⟩

theorem Lexed.gap {text rest : List Char} {tokens : List Token} (gap : Gap text)
    (lexed : Lexed rest tokens) : Lexed (text ++ rest) tokens := by
  induction text with
  | nil => exact lexed
  | cons c text ih =>
      obtain ⟨space, gap⟩ := List.forall_mem_cons.1 gap
      exact .space space (ih gap)

theorem Ends.nil : Ends [] := fun c none => by cases none

theorem Ends.gap {text rest : List Char} (gap : Gap text) (ends : Ends rest) :
    Ends (text ++ rest) := by
  cases text with
  | nil => exact ends
  | cons c text =>
      intro c' first
      cases first
      have space := gap c List.mem_cons_self
      simp only [isSpace, Bool.or_eq_true, beq_iff_eq] at space
      obtain ((rfl | rfl) | rfl) | rfl := space <;> decide

/-- The character is a token by itself, and in no number. -/
structure Mark (c : Char) (token : Token) : Prop where
  scanned : ∀ rest, scan (c :: rest) = some (token, rest)
  ends : ∀ rest, Ends (c :: rest)

theorem Mark.of {c : Char} {token : Token} (scanned : ∀ rest, scan (c :: rest) = some (token, rest))
    (other : isDigit c = false ∧ c ≠ '.' ∧ c ≠ 'e' ∧ c ≠ 'E') : Mark c token :=
  ⟨scanned, fun _ _ first => by cases first; exact other⟩

theorem Mark.openBrace : Mark '\x7b' .openBrace := .of (fun _ => rfl) (by decide)

theorem Mark.closeBrace : Mark '\x7d' .closeBrace := .of (fun _ => rfl) (by decide)

theorem Mark.openBracket : Mark '[' .openBracket := .of (fun _ => rfl) (by decide)

theorem Mark.closeBracket : Mark ']' .closeBracket := .of (fun _ => rfl) (by decide)

theorem Mark.comma : Mark ',' .comma := .of (fun _ => rfl) (by decide)

theorem Mark.colon : Mark ':' .colon := .of (fun _ => rfl) (by decide)

theorem Lexed.mark {c : Char} {token : Token} {rest : List Char} {tokens : List Token}
    (mark : Mark c token) (lexed : Lexed rest tokens) : Lexed (c :: rest) (token :: tokens) :=
  @Lexed.token c [] rest token tokens (mark.scanned rest) lexed

/-- The text says the tokens in front of any other, so long as that does not go on with a number
that the text ends with. -/
def Says (text : List Char) (tokens : List Token) : Prop :=
  ∀ rest more, Ends rest → Lexed rest more → Lexed (text ++ rest) (tokens ++ more)

namespace Says

variable {text : List Char} {tokens : List Token}

theorem lexed (said : Says text tokens) : Lexed text tokens := by
  have alone := said [] [] .nil .nil
  rwa [List.append_nil, List.append_nil] at alone

theorem token {token : Token}
    (scanned : ∀ rest, Ends rest → scan (text ++ rest) = some (token, rest)) :
    Says text [token] := by
  intro rest more ends lexed
  cases text with
  | nil => cases scanned [] .nil
  | cons c cs => exact .token (scanned rest ends) lexed

theorem nil : Says [] [] := fun _ _ _ lexed => lexed

theorem gap {space : List Char} (gap : Gap space) (said : Says text tokens) :
    Says (space ++ text) tokens := fun rest more ends lexed => by
  rw [List.append_assoc]
  exact (said rest more ends lexed).gap gap

variable {space : List Char}

/-- Parts with commas between them, after which there may be white space. -/
theorem listed {α : Type} {text : α → List Char} {tokens : α → List Token} {parts : List α}
    (gap : Gap space) (each : ∀ part ∈ parts, Says (text part) (tokens part)) :
    Says ((',' :: space).intercalate (parts.map text))
      ([Token.comma].intercalate (parts.map tokens)) := by
  induction parts with
  | nil => exact .nil
  | cons part parts ih =>
      obtain ⟨first, others⟩ := List.forall_mem_cons.1 each
      cases parts with
      | nil => simpa only [List.map_cons, List.map_nil, List.intercalate_singleton] using first
      | cons next parts =>
          intro rest more ends lexed
          have tail := (ih others rest more ends lexed).gap gap
          have whole := first _ _ (Mark.comma.ends _) (tail.mark Mark.comma)
          simpa only [List.map_cons, List.intercalate_cons_cons, List.append_assoc,
            List.cons_append, List.nil_append] using whole

/-- A body between an opening and a closing mark. -/
theorem enclosed {o c : Char} {opening closing : Token} {before after : List Char}
    (opens : Mark o opening) (closes : Mark c closing) (early : Gap before) (late : Gap after)
    (body : Says text tokens) :
    Says (o :: (before ++ text ++ after ++ [c])) (opening :: (tokens ++ [closing])) := by
  intro rest more ends lexed
  have closed := (lexed.mark closes).gap late
  have inside := (body _ _ ((closes.ends rest).gap late) closed).gap early
  simpa only [List.append_assoc, List.cons_append, List.nil_append] using inside.mark opens

/-- A name and a value, with a colon and white space between them. -/
theorem member (name : String) (gap : Gap space) (value : Says text tokens) :
    Says ((stringText name).toList ++ ':' :: (space ++ text))
      (.string (some name) :: .colon :: tokens) := by
  intro rest more ends lexed
  have named : Says (stringText name).toList [.string (some name)] :=
    .token fun rest _ => scan_stringText name rest
  have valued := ((value rest more ends lexed).gap gap).mark Mark.colon
  have whole := named _ _ (Mark.colon.ends _) valued
  simpa only [List.append_assoc, List.cons_append, List.nil_append] using whole

end Says

end Token

open Token

section Layouts

mutual

/-- The tokens that a value is written with. -/
def spelt : Json → List Token
  | .array items => .openBracket :: ([.comma].intercalate (speltItems items) ++ [.closeBracket])
  | .object members => .openBrace :: ([.comma].intercalate (speltMembers members) ++ [.closeBrace])
  | .string text => [.string (some text)]
  | value => [.scalar value]

def speltItems : List Json → List (List Token)
  | [] => []
  | item :: rest => spelt item :: speltItems rest

def speltMembers : List (String × Json) → List (List Token)
  | [] => []
  | (name, value) :: rest => (.string (some name) :: .colon :: spelt value) :: speltMembers rest

end

def speltMember (member : String × Json) : List Token :=
  .string (some member.1) :: .colon :: spelt member.2

/-- A member on one line. -/
def compactMember (member : String × Json) : String :=
  stringText member.1 ++ ":" ++ compact member.2

/-- A member of an indented object. -/
def prettyMember (depth : Nat) (member : String × Json) : String :=
  stringText member.1 ++ ": " ++ prettyAt depth member.2

theorem eq_map_of_cons {α β : Type} {f : List α → List β} {g : α → β} (nil : f [] = [])
    (cons : ∀ a rest, f (a :: rest) = g a :: f rest) (as : List α) : f as = as.map g := by
  induction as with
  | nil => exact nil
  | cons a rest ih => rw [cons, ih, List.map_cons]

theorem speltItems_eq (items : List Json) : speltItems items = items.map spelt :=
  eq_map_of_cons rfl (fun _ _ => rfl) items

theorem speltMembers_eq (members : List (String × Json)) :
    speltMembers members = members.map speltMember :=
  eq_map_of_cons rfl (fun _ _ => rfl) members

theorem compactItems_eq (items : List Json) : compactItems items = items.map compact :=
  eq_map_of_cons rfl (fun _ _ => rfl) items

theorem compactMembers_eq (members : List (String × Json)) :
    compactMembers members = members.map compactMember :=
  eq_map_of_cons rfl (fun _ _ => rfl) members

theorem prettyItems_eq (depth : Nat) (items : List Json) :
    prettyItems depth items = items.map (prettyAt depth) :=
  eq_map_of_cons rfl (fun _ _ => rfl) items

theorem prettyMembers_eq (depth : Nat) (members : List (String × Json)) :
    prettyMembers depth members = members.map (prettyMember depth) :=
  eq_map_of_cons rfl (fun _ _ => rfl) members

theorem says_scalarText_integer {n : Int} (least : -0x8000000000000000 ≤ n)
    (greatest : n ≤ 0xFFFFFFFFFFFFFFFF) :
    Says (scalarText (.integer n)).toList [.scalar (.integer n)] :=
  .token fun _ ends => scan_integer least greatest ends

theorem says_scalarText_string (text : String) :
    Says (scalarText (.string text)).toList [.string (some text)] :=
  .token fun rest _ => scan_stringText text rest

theorem says_scalarText_null : Says (scalarText .null).toList [.scalar .null] :=
  .token fun _ _ => rfl

theorem says_scalarText_bool (value : Bool) :
    Says (scalarText (.bool value)).toList [.scalar (.bool value)] := by
  cases value with
  | false => exact .token fun _ _ => rfl
  | true => exact .token fun _ _ => rfl

/-- Parts on one line. -/
theorem says_enclosed {α : Type} {text : α → String} {tokens : α → List Token} {parts : List α}
    {opening closing : String} {o c : Char} {first last : Token}
    (opens : Mark o first) (closes : Mark c last)
    (opened : opening.toList = [o]) (closed : closing.toList = [c])
    (each : ∀ part ∈ parts, Says (text part).toList (tokens part)) :
    Says (opening ++ ",".intercalate (parts.map text) ++ closing).toList
      (first :: ([Token.comma].intercalate (parts.map tokens) ++ [last])) := by
  have body := Says.listed .nil each
  have whole := Says.enclosed opens closes .nil .nil body
  have comma : ",".toList = [','] := rfl
  rw [String.toList_append, String.toList_append, String.toList_intercalate, opened, closed, comma,
    List.map_map]
  simpa only [Function.comp_def, List.nil_append, List.append_nil, List.cons_append] using whole

/-- Parts on lines of their own. -/
theorem says_framed {α : Type} {text : α → String} {tokens : α → List Token} {parts : List α}
    {opening closing : String} {o c : Char} {first last : Token}
    (opens : Mark o first) (closes : Mark c last)
    (opened : opening.toList = [o]) (closed : closing.toList = [c]) (depth : Nat)
    (each : ∀ part ∈ parts, Says (text part).toList (tokens part)) :
    Says (framed opening closing depth (parts.map text)).toList
      (first :: ([Token.comma].intercalate (parts.map tokens) ++ [last])) := by
  have indented (depth : Nat) : Gap (indentation depth).toList := by
    rw [indentation, String.toList_ofList]
    exact .spaces _
  rw [framed]
  split
  · next none =>
    have empty : parts = [] := by simpa using none
    subst empty
    have whole := Says.enclosed opens closes .nil .nil .nil
    rw [String.toList_append, opened, closed]
    exact whole
  · have line : Gap ['\n'] := .cons rfl .nil
    have body := Says.listed line fun part member =>
      (each part member).gap (indented (depth + 1))
    have whole := Says.enclosed opens closes line ((indented depth).cons (c := '\n') rfl) body
    simpa [opened, closed, Function.comp_def] using whole

/-- A value on one line. -/
theorem Writable.says_compact {j : Json} (writable : Writable j) :
    Says (compact j).toList (spelt j) := by
  induction writable with
  | null => exact says_scalarText_null
  | bool value => exact says_scalarText_bool value
  | integer least greatest => exact says_scalarText_integer least greatest
  | string text => exact says_scalarText_string text
  | @array items _ ih =>
      rw [compact, spelt, compactItems_eq, speltItems_eq]
      exact says_enclosed .openBracket .closeBracket rfl rfl ih
  | @object members _ ih =>
      rw [compact, spelt, compactMembers_eq, speltMembers_eq]
      refine says_enclosed .openBrace .closeBrace rfl rfl fun member among => ?_
      have said := Says.member member.1 .nil (ih member among)
      simpa [compactMember, speltMember] using said

/-- A value on lines of its own. -/
theorem Writable.says_prettyAt {j : Json} (writable : Writable j) (depth : Nat) :
    Says (prettyAt depth j).toList (spelt j) := by
  induction writable generalizing depth with
  | null => exact says_scalarText_null
  | bool value => exact says_scalarText_bool value
  | integer least greatest => exact says_scalarText_integer least greatest
  | string text => exact says_scalarText_string text
  | @array items _ ih =>
      rw [prettyAt, spelt, prettyItems_eq, speltItems_eq]
      exact says_framed .openBracket .closeBracket rfl rfl depth fun item among =>
        ih item among (depth + 1)
  | @object members _ ih =>
      rw [prettyAt, spelt, prettyMembers_eq, speltMembers_eq]
      refine says_framed .openBrace .closeBrace rfl rfl depth fun member among => ?_
      have said := Says.member member.1 (.spaces 1) (ih member among (depth + 1))
      simpa [prettyMember, speltMember] using said

end Layouts

namespace Automaton

/-- The automaton once it has taken the tokens. -/
def after (a : Automaton) (tokens : List Token) : Option Automaton :=
  tokens.foldlM step a

theorem after_append (a : Automaton) (tokens more : List Token) :
    a.after (tokens ++ more) = (a.after tokens).bind (·.after more) :=
  List.foldlM_append

theorem after_singleton (a : Automaton) (token : Token) : a.after [token] = a.step token :=
  List.foldlM_cons.trans (Option.bind_fun_some _)

/-- What follows can be a value. -/
inductive Awaits (stack : List Frame) : Automaton → Prop
  | value : Awaits stack ⟨.value, stack⟩
  | valueOrClose : Awaits stack ⟨.valueOrClose, stack⟩

/-- What follows can be a name. -/
inductive AwaitsKey (stack : List Frame) : Automaton → Prop
  | key : AwaitsKey stack ⟨.key, stack⟩
  | keyOrClose : AwaitsKey stack ⟨.keyOrClose, stack⟩

/-- Of the tokens the value is made, whatever is open around it. -/
def Makes (tokens : List Token) (value : Json) : Prop :=
  ∀ {a stack}, Awaits stack a → a.after tokens = some ⟨.next value, stack⟩

theorem Makes.scalar {scalar : Json} : Makes [.scalar scalar] scalar := by
  intro a stack awaits
  cases awaits <;> rfl

theorem Makes.string (text : String) : Makes [.string (some text)] (.string text) := by
  intro a stack awaits
  cases awaits <;> rfl

/-- The parts of something open, up to its end. What is taken of one part, if the automaton is ready
for it, can be followed by a comma and the next part or be closed. -/
theorem after_listed {α : Type} {tokens : α → List Token} {parts : List α} (closing : Token)
    (Ready : List α → Automaton → Prop) (closed : List α → Automaton)
    (each : ∀ part ∈ parts, ∀ {done a}, Ready done a → ∃ taken next,
      a.after (tokens part) = some taken ∧
      taken.step .comma = some next ∧ Ready (part :: done) next ∧
      taken.step closing = some (closed (part :: done)))
    (some_part : parts ≠ []) {done : List α} {a : Automaton} (ready : Ready done a) :
    a.after ([Token.comma].intercalate (parts.map tokens) ++ [closing]) =
      some (closed (parts.reverse ++ done)) := by
  induction parts generalizing a done with
  | nil => exact absurd rfl some_part
  | cons part rest ih =>
      obtain ⟨first, others⟩ := List.forall_mem_cons.1 each
      obtain ⟨taken, next, taken_eq, next_eq, ready, closed_eq⟩ := first ready
      rw [List.reverse_cons, List.append_assoc, List.singleton_append]
      cases rest with
      | nil =>
          rw [List.map_cons, List.map_nil, List.intercalate_singleton, after_append, taken_eq,
            Option.bind_some, after_singleton, closed_eq]
          rfl
      | cons second rest =>
          have tail := ih others (List.cons_ne_nil second rest) ready
          rw [List.map_cons, List.map_cons, List.intercalate_cons_cons, List.append_assoc,
            List.append_assoc, after_append, taken_eq, Option.bind_some, after_append,
            after_singleton, next_eq, Option.bind_some, ← List.map_cons, tail]

/-- The items of an array that is open, up to its end. -/
theorem after_items {items : List Json} (each : ∀ item ∈ items, Makes (spelt item) item)
    (some_item : items ≠ []) {a : Automaton} {stack : List Frame}
    (awaits : Awaits (.items [] :: stack) a) :
    a.after ([Token.comma].intercalate (items.map spelt) ++ [.closeBracket]) =
      some ⟨.next (.array items), stack⟩ := by
  have run := after_listed .closeBracket (fun done => Awaits (.items done :: stack))
    (fun done => ⟨.next (.array done.reverse), stack⟩)
    (fun item among _ _ ready => ⟨_, _, each item among ready, rfl, .value, rfl⟩) some_item awaits
  rwa [List.append_nil, List.reverse_reverse] at run

theorem after_member {member : String × Json} (value : Makes (spelt member.2) member.2)
    {a : Automaton} {stack : List Frame} {done : List (String × Json)}
    (awaits : AwaitsKey (.members done true :: stack) a) :
    a.after (speltMember member) =
      some ⟨.next member.2, .member done true (some member.1) :: stack⟩ := by
  have named : a.after [.string (some member.1), .colon] =
      some ⟨.value, .member done true (some member.1) :: stack⟩ := by
    cases awaits <;> rfl
  have split : speltMember member = [.string (some member.1), .colon] ++ spelt member.2 := rfl
  rw [split, after_append, named]
  exact value .value

/-- The members of an object that is open, up to its end. -/
theorem after_members {members : List (String × Json)}
    (each : ∀ member ∈ members, Makes (spelt member.2) member.2) (some_member : members ≠ [])
    {a : Automaton} {stack : List Frame} (awaits : AwaitsKey (.members [] true :: stack) a) :
    a.after ([Token.comma].intercalate (members.map speltMember) ++ [.closeBrace]) =
      some ⟨.next (.object members), stack⟩ := by
  have run := after_listed .closeBrace (fun done => AwaitsKey (.members done true :: stack))
    (fun done => ⟨.next (.object done.reverse), stack⟩)
    (fun member among _ _ ready =>
      ⟨_, _, after_member (each member among) ready, rfl, .key, rfl⟩) some_member awaits
  rwa [List.append_nil, List.reverse_reverse] at run

/-- The automaton makes a value of its tokens. -/
theorem makes_spelt {j : Json} (writable : Writable j) : Makes (spelt j) j := by
  induction writable with
  | null => exact Makes.scalar
  | bool value => exact Makes.scalar
  | integer least greatest => exact Makes.scalar
  | string text => exact Makes.string text
  | @array items _ ih =>
      intro a stack awaits
      have opened : a.after [.openBracket] = some ⟨.valueOrClose, .items [] :: stack⟩ := by
        cases awaits <;> rfl
      rw [spelt, speltItems_eq, ← List.singleton_append, after_append, opened]
      cases items with
      | nil => rfl
      | cons item rest => exact after_items ih (List.cons_ne_nil item rest) .valueOrClose
  | @object members _ ih =>
      intro a stack awaits
      have opened : a.after [.openBrace] = some ⟨.keyOrClose, .members [] true :: stack⟩ := by
        cases awaits <;> rfl
      rw [spelt, speltMembers_eq, ← List.singleton_append, after_append, opened]
      cases members with
      | nil => rfl
      | cons member rest => exact after_members ih (List.cons_ne_nil member rest) .keyOrClose

end Automaton

theorem parse?_of_lexed {j : Json} (writable : Writable j) {s : String}
    (lexed : Lexed s.toList (spelt j)) : parse? s = some j := by
  have made : (spelt j).foldlM Automaton.step .start = some ⟨.next j, []⟩ :=
    Automaton.makes_spelt writable .value
  rw [parse?, tokens?_of_lexed lexed, Option.bind_eq_bind, Option.bind_some, made]
  rfl

/-- The text of a value on one line is read back. -/
theorem parse?_compact {j : Json} (writable : Writable j) : parse? (compact j) = some j :=
  parse?_of_lexed writable writable.says_compact.lexed

/-- The indented text of a value is read back. -/
theorem parse?_pretty {j : Json} (writable : Writable j) : parse? (pretty j) = some j :=
  parse?_of_lexed writable (writable.says_prettyAt 0).lexed

/-- White space after the text changes nothing. -/
theorem parse?_pretty_append {j : Json} (writable : Writable j) {space : String}
    (gap : Gap space.toList) : parse? (pretty j ++ space) = some j := by
  refine parse?_of_lexed writable ?_
  have said := writable.says_prettyAt 0 space.toList [] (by simpa using Ends.nil.gap gap)
    (by simpa using Lexed.nil.gap gap)
  simpa [pretty] using said

end CloudBalancer.Json
