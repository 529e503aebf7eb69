import CloudBalancer.Text

/-!
IPv4 and IPv6 addresses and their canonical text: IPv4 as four decimal octets; IPv6 as lower-case
groups with the first longest run of two or more zero groups elided, and an address that embeds
an IPv4 one (`::ffff:0:0/96`) ending in dotted octets.
-/

namespace CloudBalancer.Network

structure Ipv4 where
  value : Fin 0x100000000
  deriving DecidableEq, Repr

structure Ipv6 where
  groups : Vector (Fin 0x10000) 8
  deriving DecidableEq, Repr

inductive Address
  | v4 (address : Ipv4)
  | v6 (address : Ipv6)
  deriving DecidableEq, Repr

namespace Ipv4

/-- The octet `place` positions from the right. -/
def octet (a : Ipv4) (place : Nat) : Nat :=
  a.value.val >>> (8 * place) % 256

def ofOctets (a b c d : Fin 256) : Ipv4 :=
  ⟨⟨((a.val * 256 + b.val) * 256 + c.val) * 256 + d.val, by omega⟩⟩

/-- The address `offset` positions past `base`; the last address stands for all beyond it. -/
def advance (base : Ipv4) (offset : Nat) : Ipv4 :=
  ⟨⟨min (base.value.val + offset) 0xFFFFFFFF, by omega⟩⟩

def text (a : Ipv4) : String :=
  s!"{a.octet 3}.{a.octet 2}.{a.octet 1}.{a.octet 0}"

end Ipv4

namespace Ipv6

/-- Number of zero groups in a row from position `start`. -/
def zerosFrom (groups : List Nat) (start : Nat) : Nat :=
  ((groups.drop start).takeWhile (· == 0)).length

/-- Start and length of the first longest run of zero groups. -/
def longestZeros (groups : List Nat) : Nat × Nat :=
  (List.range groups.length).foldl
    (fun best start =>
      if best.2 < zerosFrom groups start then (start, zerosFrom groups start) else best)
    (0, 0)

def joinGroups (groups : List Nat) : String :=
  ":".intercalate (groups.map Text.Numeral.hex)

def text (a : Ipv6) : String :=
  let groups := a.groups.toList.map Fin.val
  match groups with
  | [0, 0, 0, 0, 0, 0xFFFF, high, low] =>
    s!"::ffff:{high / 256}.{high % 256}.{low / 256}.{low % 256}"
  | _ =>
    let (start, length) := longestZeros groups
    if 1 < length then
      joinGroups (groups.take start) ++ "::" ++ joinGroups (groups.drop (start + length))
    else joinGroups groups

end Ipv6

def Address.text : Address → String
  | .v4 a => a.text
  | .v6 a => a.text

end CloudBalancer.Network
