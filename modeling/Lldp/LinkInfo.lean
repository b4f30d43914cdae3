/-
# Link info

What the optional TLVs of a frame say about the neighbour.  A repeated TLV
overrides the earlier one; a capabilities TLV of the wrong length is passed
over; whatever has no field here is kept as it came.  Nothing in an optional TLV
can make a frame unacceptable.
-/

import Lldp.Text.Utf8
import Lldp.Tlv

namespace Lldp

/-- What a station can do, and which of it is switched on, a bit each. -/
structure Capabilities where
  system : UInt16
  enabled : UInt16
deriving DecidableEq, Repr

namespace Capabilities

/-- Whether bit `i` of a word is set. -/
def bit (w : UInt16) (i : Nat) : Bool := w.toNat.testBit i

/-- The station forwards frames. -/
def isBridge (c : Capabilities) : Bool := bit c.system 2

/-- The station forwards packets. -/
def isRouter (c : Capabilities) : Bool := bit c.system 4

/-- Capabilities are exactly two words. -/
def ofOctets? : Octets → Option Capabilities
  | [a, b, c, d] => some ⟨Octets.word a b, Octets.word c d⟩
  | _ => none

end Capabilities

/-- The optional part of what a neighbour says of itself. -/
structure LinkInfo where
  portDescription : Option String := none
  systemName : Option String := none
  systemDescription : Option String := none
  capabilities : Option Capabilities := none
  /-- TLVs without a field of their own, in order. -/
  other : List Tlv := []
deriving DecidableEq, Repr

namespace LinkInfo

/-- Nothing said. -/
def empty : LinkInfo := {}

def isEmpty (info : LinkInfo) : Bool := info = empty

/-- Takes in one more TLV. -/
def note (info : LinkInfo) (t : Tlv) : LinkInfo :=
  if t.type = Tlv.portDescriptionType then
    { info with portDescription := some (Utf8.decode t.value) }
  else if t.type = Tlv.systemNameType then
    { info with systemName := some (Utf8.decode t.value) }
  else if t.type = Tlv.systemDescriptionType then
    { info with systemDescription := some (Utf8.decode t.value) }
  else if t.type = Tlv.systemCapabilitiesType then
    match Capabilities.ofOctets? t.value with
    | some c => { info with capabilities := some c }
    | none => info
  else { info with other := info.other ++ [t] }

/-- The optional TLVs taken in order. -/
def ofTlvs (ts : List Tlv) : LinkInfo :=
  ts.foldl note empty

end LinkInfo
end Lldp
