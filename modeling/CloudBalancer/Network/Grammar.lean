import CloudBalancer.Network.Address

/-!
Reading addresses and address blocks. Two grammars are in use and share one reader: the strict one
for single addresses, and the lenient one for blocks, where octets and block lengths may have
leading zeros and `::` may stand for no group at all.
-/

namespace CloudBalancer.Network

structure Grammar where
  leadingZeros : Bool
  emptyGap : Bool
  deriving DecidableEq, Repr

def Grammar.strict : Grammar := ⟨false, false⟩

def Grammar.lenient : Grammar := ⟨true, true⟩

namespace Grammar

def digit? (radix : Nat) (c : Char) : Option Nat :=
  let value :=
    if '0' ≤ c ∧ c ≤ '9' then c.toNat - '0'.toNat
    else if 'a' ≤ c ∧ c ≤ 'f' then c.toNat - 'a'.toNat + 10
    else if 'A' ≤ c ∧ c ≤ 'F' then c.toNat - 'A'.toNat + 10
    else radix
  if value < radix then some value else none

def digitsValue (radix : Nat) (digits : List Char) : Nat :=
  digits.foldl (fun n c => n * radix + (digit? radix c).getD 0) 0

/-- The number that starts `cs`: all the digits there are, at most `width` of them, below
`bound`. -/
def number (radix width bound : Nat) (leadingZeros : Bool) (cs : List Char) :
    Option (Fin bound × List Char) :=
  let digits := cs.takeWhile fun c => (digit? radix c).isSome
  let padded := 1 < digits.length && digits.head? == some '0'
  if digits.isEmpty || width < digits.length || (padded && !leadingZeros) then none
  else
    let n := digitsValue radix digits
    if h : n < bound then some (⟨n, h⟩, cs.drop digits.length) else none

def expect (c : Char) : List Char → Option (List Char)
  | [] => none
  | d :: cs => if d = c then some cs else none

def ipv4 (g : Grammar) (cs : List Char) : Option (Ipv4 × List Char) := do
  let (a, cs) ← number 10 3 256 g.leadingZeros cs
  let (b, cs) ← number 10 3 256 g.leadingZeros (← expect '.' cs)
  let (c, cs) ← number 10 3 256 g.leadingZeros (← expect '.' cs)
  let (d, cs) ← number 10 3 256 g.leadingZeros (← expect '.' cs)
  return (.ofOctets a b c d, cs)

/-- What a run of IPv6 groups came to. -/
structure Groups where
  values : List (Fin 0x10000)
  /-- The run ended in dotted octets, which stand for its last two groups. -/
  dotted : Bool
  rest : List Char

/-- At most `limit` groups, with a colon before each but, if `first`, the first. -/
def groups (g : Grammar) (first : Bool) : Nat → List Char → Groups
  | 0, cs => ⟨[], false, cs⟩
  | limit + 1, cs =>
    match if first then some cs else expect ':' cs with
    | none => ⟨[], false, cs⟩
    | some body =>
      match if limit = 0 then none else g.ipv4 body with
      | some (a, rest) =>
        ⟨[⟨a.value.val / 0x10000, by omega⟩, ⟨a.value.val % 0x10000, by omega⟩], true, rest⟩
      | none =>
        match number 16 4 0x10000 true body with
        | none => ⟨[], false, cs⟩
        | some (value, rest) =>
          let more := g.groups false limit rest
          ⟨value :: more.values, more.dotted, more.rest⟩

/-- Eight groups, the gap between `head` and `tail` filled with zeros. -/
def joined (head tail : List (Fin 0x10000)) : Ipv6 :=
  ⟨Vector.ofFn fun i =>
    (head ++ List.replicate (8 - head.length - tail.length) 0 ++ tail).getD i 0⟩

def ipv6 (g : Grammar) (cs : List Char) : Option (Ipv6 × List Char) :=
  let head := g.groups true 8 cs
  if head.values.length = 8 then some (joined head.values [], head.rest)
  else if head.dotted then none
  else do
    let rest ← expect ':' (← expect ':' head.rest)
    let room := (if g.emptyGap then 8 else 7) - head.values.length
    let tail := g.groups true room rest
    return (joined head.values tail.values, tail.rest)

/-- The value of a reader that has to consume everything. -/
def whole {α : Type} : Option (α × List Char) → Option α
  | some (a, []) => some a
  | _ => none

end Grammar

def Ipv4.parse? (s : String) : Option Ipv4 :=
  Grammar.whole (Grammar.strict.ipv4 s.toList)

def Address.parse? (s : String) : Option Address :=
  match Grammar.strict.ipv4 s.toList with
  | some (a, rest) => Grammar.whole (some (.v4 a, rest))
  | none => (Grammar.whole (Grammar.strict.ipv6 s.toList)).map .v6

/-- A block of addresses: those that share the first `length` bits of `address`. -/
inductive Block
  | v4 (address : Ipv4) (length : Fin 33)
  | v6 (address : Ipv6) (length : Fin 129)
  deriving DecidableEq, Repr

namespace Block

def length : Block → Nat
  | .v4 _ length => length.val
  | .v6 _ length => length.val

def readV4 (cs : List Char) : Option (Block × List Char) := do
  let (address, cs) ← Grammar.lenient.ipv4 cs
  let (length, cs) ← Grammar.number 10 2 33 true (← Grammar.expect '/' cs)
  return (.v4 address length, cs)

def readV6 (cs : List Char) : Option (Block × List Char) := do
  let (address, cs) ← Grammar.lenient.ipv6 cs
  let (length, cs) ← Grammar.number 10 3 129 true (← Grammar.expect '/' cs)
  return (.v6 address length, cs)

def parse? (s : String) : Option Block :=
  Grammar.whole ((readV4 s.toList).or (readV6 s.toList))

end Block

end CloudBalancer.Network
