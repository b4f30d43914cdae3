/-
# MAC addresses

Six octets, and the text form people configure.  Writing is rigid: lower-case
digits in pairs with a colon between.  Reading is not: colons or, if the text
has none, hyphens; either case; a leading plus sign on a part and any number of
leading zeros, as long as the part stays below 256.
-/

import Lldp.Text.Hex

namespace Lldp

/-- A 48-bit address, first octet first. -/
structure Mac where
  b0 : UInt8
  b1 : UInt8
  b2 : UInt8
  b3 : UInt8
  b4 : UInt8
  b5 : UInt8
deriving DecidableEq, Repr

namespace Mac

/-- The address no interface has. -/
def zero : Mac := ⟨0, 0, 0, 0, 0, 0⟩

/-- The group address of the nearest bridge, where every frame of this
protocol goes and where none is forwarded from. -/
def nearestBridge : Mac := ⟨0x01, 0x80, 0xc2, 0x00, 0x00, 0x0e⟩

def toOctets (m : Mac) : Octets :=
  [m.b0, m.b1, m.b2, m.b3, m.b4, m.b5]

/-- An address is exactly six octets. -/
def ofOctets? : Octets → Option Mac
  | [a, b, c, d, e, f] => some ⟨a, b, c, d, e, f⟩
  | _ => none

theorem ofOctets?_toOctets (m : Mac) : ofOctets? m.toOctets = some m := rfl

/-- The group bit is the lowest bit of the first octet. -/
def isMulticast (m : Mac) : Bool :=
  m.b0.toNat % 2 = 1

/-- Pairs of digits with `separator` between them. -/
def chars (separator : Char) (m : Mac) : List Char :=
  Hex.octet m.b0 ++ separator :: Hex.octet m.b1 ++ separator :: Hex.octet m.b2 ++
    separator :: Hex.octet m.b3 ++ separator :: Hex.octet m.b4 ++ separator :: Hex.octet m.b5

/-- The canonical text. -/
def text (m : Mac) : String :=
  String.ofList (m.chars ':')

/-- What lies between the separators; a text without one is a single part. -/
def parts (separator : Char) : List Char → List (List Char)
  | [] => [[]]
  | c :: rest =>
    if c = separator then [] :: parts separator rest
    else
      match parts separator rest with
      | [] => [[c]]
      | p :: ps => (c :: p) :: ps

/-- One part of an address: an optional plus sign, then digits for a value
below 256. -/
def octet? (part : List Char) : Option UInt8 :=
  let digits := match part with
    | '+' :: rest => rest
    | _ => part
  if digits.isEmpty then none
  else
    match Hex.value? digits with
    | some n => if n < 256 then some (UInt8.ofNat n) else none
    | none => none

/-- Reads an address.  One colon anywhere makes the colon the separator. -/
def ofChars? (cs : List Char) : Option Mac :=
  match (parts (if ':' ∈ cs then ':' else '-') cs).mapM octet? with
  | some bytes => ofOctets? bytes
  | none => none

/-- Reads the text form. -/
def ofText? (s : String) : Option Mac :=
  ofChars? s.toList

end Mac
end Lldp
