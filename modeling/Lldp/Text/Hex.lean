/-
# Hexadecimal text

Octets are shown as two lower-case digits each; a 16-bit group of an address is
shown with as few digits as it needs.  Digits are read in either case.
-/

import Lldp.Octets

namespace Lldp
namespace Hex

/-- The digit for a value below sixteen. -/
def digit (n : Nat) : Char :=
  if n < 10 then Char.ofNat (48 + n) else Char.ofNat (87 + n)

/-- The value of a digit, in either case. -/
def digit? (c : Char) : Option Nat :=
  if '0' ≤ c ∧ c ≤ '9' then some (c.toNat - 48)
  else if 'a' ≤ c ∧ c ≤ 'f' then some (c.toNat - 87)
  else if 'A' ≤ c ∧ c ≤ 'F' then some (c.toNat - 55)
  else none

/-- The two digits of an octet. -/
def octet (b : UInt8) : List Char :=
  [digit (b.toNat / 16), digit (b.toNat % 16)]

/-- Octets as text, two digits each and nothing between them. -/
def encode (bytes : Octets) : String :=
  String.ofList (bytes.flatMap octet)

/-- A 16-bit group without leading zeros; zero itself keeps one digit. -/
def group (w : UInt16) : List Char :=
  let n := w.toNat
  if n < 16 then [digit n]
  else if n < 256 then [digit (n / 16), digit (n % 16)]
  else if n < 4096 then [digit (n / 256), digit (n / 16 % 16), digit (n % 16)]
  else [digit (n / 4096), digit (n / 256 % 16), digit (n / 16 % 16), digit (n % 16)]

/-- The value of a run of digits, most significant first, or nothing when one
of the characters is no digit. -/
def value? (cs : List Char) : Option Nat :=
  cs.foldl (fun acc c => acc.bind fun n => (digit? c).map (n * 16 + ·)) (some 0)

end Hex
end Lldp
