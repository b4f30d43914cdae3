/-
# Network addresses as text

The four octets of an IPv4 address in decimal with dots, and the sixteen of an
IPv6 address as RFC 5952 has it: groups in lower-case hexadecimal without
leading zeros, the first of the longest runs of two or more zero groups written
`::`.  Only an IPv4-mapped address ends in dotted decimal.
-/

import Lldp.Text.Hex

namespace Lldp
namespace Address

/-- Dotted decimal. -/
def ipv4 (a b c d : UInt8) : String :=
  s!"{a.toNat}.{b.toNat}.{c.toNat}.{d.toNat}"

/-- A stretch of groups: where it begins and how long it is. -/
structure Run where
  start : Nat
  length : Nat
deriving DecidableEq, Repr

/-- The first of the longest stretches of zero groups.  `position` is that of
the first group given, `current` the stretch that ends just before it. -/
def longestZeros (position : Nat) (current longest : Run) : List UInt16 → Run
  | [] => longest
  | g :: rest =>
    if g = 0 then
      let grown : Run :=
        if current.length = 0 then ⟨position, 1⟩ else ⟨current.start, current.length + 1⟩
      longestZeros (position + 1) grown (if grown.length > longest.length then grown else longest)
        rest
    else longestZeros (position + 1) ⟨0, 0⟩ longest rest

/-- Groups with a colon between them. -/
def joinGroups : List UInt16 → List Char
  | [] => []
  | [g] => Hex.group g
  | g :: rest => Hex.group g ++ ':' :: joinGroups rest

/-- Eight groups as text. -/
def ofGroups (groups : List UInt16) : String :=
  let run := longestZeros 0 ⟨0, 0⟩ ⟨0, 0⟩ groups
  if run.length > 1 then
    String.ofList (joinGroups (groups.take run.start) ++ [':', ':'] ++
      joinGroups (groups.drop (run.start + run.length)))
  else String.ofList (joinGroups groups)

/-- Octets in pairs. -/
def toGroups : Octets → List UInt16
  | hi :: lo :: rest => Octets.word hi lo :: toGroups rest
  | _ => []

/-- The sixteen octets of an IPv6 address as text. -/
def ipv6 (bytes : Octets) : String :=
  match bytes with
  | [0, 0, 0, 0, 0, 0, 0, 0, 0, 0, 0xff, 0xff, a, b, c, d] => "::ffff:" ++ ipv4 a b c d
  | _ => ofGroups (toGroups bytes)

end Address
end Lldp
