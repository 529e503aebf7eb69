import CloudBalancer.Json.Basic

/-!
Tokens of JSON text. The scanners for strings and numbers are strict: no control characters, no
leading zeros, digits on both sides of a point.
-/

namespace CloudBalancer.Json

inductive Token
  | openBrace
  | closeBrace
  | openBracket
  | closeBracket
  | comma
  | colon
  /-- A word or a number. -/
  | scalar (value : Json)
  /-- A string, unless an unpaired surrogate keeps it from being text. -/
  | string (text : Option String)
  deriving Repr

namespace Token

def isSpace (c : Char) : Bool :=
  c == ' ' || c == '\t' || c == '\n' || c == '\r'

def isDigit (c : Char) : Bool :=
  '0' ≤ c && c ≤ '9'

def hexDigit? (c : Char) : Option Nat :=
  if '0' ≤ c ∧ c ≤ '9' then some (c.toNat - '0'.toNat)
  else if 'a' ≤ c ∧ c ≤ 'f' then some (c.toNat - 'a'.toNat + 10)
  else if 'A' ≤ c ∧ c ≤ 'F' then some (c.toNat - 'A'.toNat + 10)
  else none

def unit? (a b c d : Char) : Option Nat := do
  return (((← hexDigit? a) * 16 + (← hexDigit? b)) * 16 + (← hexDigit? c)) * 16 + (← hexDigit? d)

def shortEscape? : Char → Option Char
  | '"' => some '"'
  | '\\' => some '\\'
  | '/' => some '/'
  | 'b' => some '\x08'
  | 'f' => some '\x0c'
  | 'n' => some '\n'
  | 'r' => some '\r'
  | 't' => some '\t'
  | _ => none

/-- A piece of a string: a character, or a UTF-16 unit written in hexadecimal. -/
inductive Piece
  | char (c : Char)
  | unit (n : Nat)

/-- The pieces up to the closing quote, newest first on `done`, and what follows it. -/
def scanString (done : List Piece) : List Char → Option (List Piece × List Char)
  | [] => none
  | '"' :: cs => some (done.reverse, cs)
  | '\\' :: 'u' :: a :: b :: c :: d :: cs =>
    match unit? a b c d with
    | none => none
    | some n => scanString (.unit n :: done) cs
  | '\\' :: c :: cs =>
    match shortEscape? c with
    | none => none
    | some e => scanString (.char e :: done) cs
  | c :: cs => if c.toNat < 0x20 || c == '\\' then none else scanString (.char c :: done) cs

/-- The text that pieces make, surrogates taken in pairs. -/
def textOf (done : List Char) : List Piece → Option String
  | [] => some (String.ofList done.reverse)
  | .char c :: rest => textOf (c :: done) rest
  | .unit high :: .unit low :: rest =>
    if 0xD800 ≤ high && high < 0xDC00 && 0xDC00 ≤ low && low < 0xE000 then
      textOf (Char.ofNat (0x10000 + (high - 0xD800) * 0x400 + (low - 0xDC00)) :: done) rest
    else if 0xD800 ≤ high && high < 0xE000 then none
    else textOf (Char.ofNat high :: done) (.unit low :: rest)
  | .unit n :: rest =>
    if 0xD800 ≤ n && n < 0xE000 then none else textOf (Char.ofNat n :: done) rest

def decimal (digits : List Char) : Nat :=
  digits.foldl (fun n c => n * 10 + (c.toNat - '0'.toNat)) 0

/-- Whether `digits · 10 ^ exponent` rounds to no finite double. -/
def exceedsDoubles (digits : List Char) (exponent : Int) : Bool :=
  let digits := digits.dropWhile (· == '0')
  let size := digits.length + exponent
  let zeros (n : Int) : List Char := List.replicate n.toNat '0'
  if digits.isEmpty || size < 300 then false
  else if 320 < size then true
  else
    1 <<< 1024 - 1 <<< 970 ≤ decimal (digits ++ zeros exponent) / decimal ('1' :: zeros (-exponent))

def numberOf (negative : Bool) (whole decimals : List Char) (exponent : Option Int) : Json :=
  let n := decimal whole
  let value : Int := if negative then -n else n
  let fits := if negative then 0 < n && n ≤ 0x8000000000000000 else n ≤ 0xFFFFFFFFFFFFFFFF
  if decimals.isEmpty && exponent.isNone && fits then .integer value
  else if exceedsDoubles (whole ++ decimals) (exponent.getD 0 - decimals.length) then .unreadable
  else .fraction

/-- The digits that start `cs`, of which there must be one. -/
def scanDigits (cs : List Char) : Option (List Char × List Char) :=
  let digits := cs.takeWhile isDigit
  if digits.isEmpty then none else some (digits, cs.dropWhile isDigit)

def scanDecimals : List Char → Option (List Char × List Char)
  | '.' :: cs => scanDigits cs
  | cs => some ([], cs)

def scanExponent : List Char → Option (Option Int × List Char)
  | c :: cs =>
    if c = 'e' ∨ c = 'E' then
      match cs with
      | '-' :: cs => (scanDigits cs).map fun (ds, rest) => (some (-(decimal ds : Int)), rest)
      | '+' :: cs => (scanDigits cs).map fun (ds, rest) => (some (decimal ds : Int), rest)
      | cs => (scanDigits cs).map fun (ds, rest) => (some (decimal ds : Int), rest)
    else some (none, c :: cs)
  | [] => some (none, [])

def scanUnsigned (negative : Bool) (cs : List Char) : Option (Json × List Char) := do
  let (whole, cs) ← scanDigits cs
  if whole.head? = some '0' ∧ whole ≠ ['0'] then none
  let (decimals, cs) ← scanDecimals cs
  let (exponent, cs) ← scanExponent cs
  return (numberOf negative whole decimals exponent, cs)

/-- The token that starts `cs`, which starts with no space. -/
def scan : List Char → Option (Token × List Char)
  | '\x7b' :: cs => some (.openBrace, cs)
  | '\x7d' :: cs => some (.closeBrace, cs)
  | '[' :: cs => some (.openBracket, cs)
  | ']' :: cs => some (.closeBracket, cs)
  | ',' :: cs => some (.comma, cs)
  | ':' :: cs => some (.colon, cs)
  | '"' :: cs => (scanString [] cs).map fun (pieces, rest) => (.string (textOf [] pieces), rest)
  | '-' :: cs => (scanUnsigned true cs).map fun (n, rest) => (.scalar n, rest)
  | 'n' :: 'u' :: 'l' :: 'l' :: cs => some (.scalar .null, cs)
  | 't' :: 'r' :: 'u' :: 'e' :: cs => some (.scalar (.bool true), cs)
  | 'f' :: 'a' :: 'l' :: 's' :: 'e' :: cs => some (.scalar (.bool false), cs)
  | cs => (scanUnsigned false cs).map fun (n, rest) => (.scalar n, rest)

/-- The tokens of `cs` after those on `done`. A token takes at least one character, so `room` for
as many tokens as there are characters is enough. -/
def scanAll (room : Nat) (done : List Token) (cs : List Char) : Option (List Token) :=
  match cs.dropWhile isSpace with
  | [] => some done.reverse
  | cs =>
    match room with
    | 0 => none
    | room + 1 =>
      match scan cs with
      | none => none
      | some (token, rest) => scanAll room (token :: done) rest

end Token

def tokens? (s : String) : Option (List Token) :=
  let cs := s.toList
  Token.scanAll cs.length [] cs

end CloudBalancer.Json
