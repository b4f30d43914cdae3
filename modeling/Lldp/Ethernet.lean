/-
# Ethernet framing

A captured packet is taken apart into addresses, type and payload; a single
VLAN tag is looked through.  A packet to send is never tagged and always goes to
the nearest bridge.
-/

import Lldp.Error

namespace Lldp

/-- A packet taken apart. -/
structure Ethernet where
  destination : Mac
  source : Mac
  etherType : UInt16
  payload : Octets
deriving DecidableEq, Repr

namespace Ethernet

/-- The type of a packet that carries a frame of this protocol. -/
def lldpType : UInt16 := 0x88cc

/-- The type that announces a VLAN tag. -/
def vlanType : UInt16 := 0x8100

/-- Lets a capture pass packets of this protocol only. -/
def captureFilter : String :=
  "ether proto 0x" ++ String.ofList (Hex.group lldpType)

/-- Takes a packet apart. -/
def parse : Octets → Except Error Ethernet
  | d0 :: d1 :: d2 :: d3 :: d4 :: d5 :: s0 :: s1 :: s2 :: s3 :: s4 :: s5 :: t0 :: t1 :: body =>
    let destination : Mac := ⟨d0, d1, d2, d3, d4, d5⟩
    let source : Mac := ⟨s0, s1, s2, s3, s4, s5⟩
    let outer := Octets.word t0 t1
    if outer = vlanType then
      match body with
      | _ :: _ :: u0 :: u1 :: payload =>
        .ok { destination, source, etherType := Octets.word u0 u1, payload }
      | _ => .error (.missing .vlan)
    else .ok { destination, source, etherType := outer, payload := body }
  | _ => .error (.missing .ethernet)

/-- A packet from `source` that carries a frame. -/
def build (source : Mac) (frame : Octets) : Octets :=
  Mac.nearestBridge.toOctets ++ source.toOctets ++ Octets.ofWord lldpType ++ frame

end Ethernet
end Lldp
