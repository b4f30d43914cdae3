/-
# UTF-8, and reading it from a stranger

A neighbour's texts arrive as octets that nobody has checked.  `decode` never
fails: every maximal ill-formed subpart (the longest initial piece of a
sequence that could still have become well formed, or one octet if there is no
such piece) becomes one replacement character.  On the encoding of a text it
gives that text back.
-/

import Lldp.Octets

namespace Lldp
namespace Utf8

/-- The encoding of one character. -/
def encodeChar (c : Char) : Octets :=
  let n := c.toNat
  if n < 0x80 then [UInt8.ofNat n]
  else if n < 0x800 then
    [UInt8.ofNat (0xC0 + n / 0x40), UInt8.ofNat (0x80 + n % 0x40)]
  else if n < 0x10000 then
    [UInt8.ofNat (0xE0 + n / 0x1000), UInt8.ofNat (0x80 + n / 0x40 % 0x40),
      UInt8.ofNat (0x80 + n % 0x40)]
  else
    [UInt8.ofNat (0xF0 + n / 0x40000), UInt8.ofNat (0x80 + n / 0x1000 % 0x40),
      UInt8.ofNat (0x80 + n / 0x40 % 0x40), UInt8.ofNat (0x80 + n % 0x40)]

/-- The encoding of a text. -/
def encode (s : String) : Octets :=
  s.toList.flatMap encodeChar

/-- Stands for an ill-formed subpart: U+FFFD. -/
def replacement : Char := Char.ofNat 0xFFFD

/-- How many octets follow a lead octet, and the bounds of the first of them.
The bounds of that octet are what rules out overlong forms, surrogates and
values above U+10FFFF; any later octet lies between `0x80` and `0xBF`. -/
def lead (b : UInt8) : Option (Nat × UInt8 × UInt8) :=
  if b < 0x80 then some (0, 0, 0)
  else if b < 0xC2 then none
  else if b < 0xE0 then some (1, 0x80, 0xBF)
  else if b = 0xE0 then some (2, 0xA0, 0xBF)
  else if b = 0xED then some (2, 0x80, 0x9F)
  else if b < 0xF0 then some (2, 0x80, 0xBF)
  else if b = 0xF0 then some (3, 0x90, 0xBF)
  else if b < 0xF4 then some (3, 0x80, 0xBF)
  else if b = 0xF4 then some (3, 0x80, 0x8F)
  else none

/-- The part of a lead octet that belongs to the character. -/
def leadBits (more : Nat) (b : UInt8) : Nat :=
  match more with
  | 0 => b.toNat
  | 1 => b.toNat - 0xC0
  | 2 => b.toNat - 0xE0
  | _ => b.toNat - 0xF0

/-- Follows a sequence that still wants `more` octets, of which the next lies
between `lo` and `hi`.  Gives the octets taken and the character, or no
character when the sequence breaks off. -/
def follow (more : Nat) (lo hi : UInt8) (acc : Nat) (bytes : Octets) : Nat × Option Char :=
  match more, bytes with
  | 0, _ => (0, some (Char.ofNat acc))
  | _ + 1, [] => (0, none)
  | m + 1, b :: rest =>
    if lo ≤ b ∧ b ≤ hi then
      let next := follow m 0x80 0xBF (acc * 0x40 + (b.toNat - 0x80)) rest
      (next.1 + 1, next.2)
    else (0, none)

/-- The first character, or `none` for an ill-formed subpart, and how many of
the octets after the first belong to it. -/
def first (b : UInt8) (rest : Octets) : Nat × Option Char :=
  match lead b with
  | none => (0, none)
  | some (more, lo, hi) => follow more lo hi (leadBits more b) rest

/-- The characters of a text that may be ill formed. -/
def chars : Octets → List Char
  | [] => []
  | b :: rest =>
    let head := first b rest
    head.2.getD replacement :: chars (rest.drop head.1)
termination_by bytes => bytes.length
decreasing_by simp only [List.length_cons, List.length_drop]; omega

/-- A text that may be ill formed, with its faults replaced. -/
def decode (bytes : Octets) : String :=
  String.ofList (chars bytes)

end Utf8
end Lldp
