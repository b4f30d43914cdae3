/-
# Receiving

A port remembers one neighbour: what the last acceptable packet said.  While it
remembers one, an alarm is set for the end of its hold time; the alarm lives in
a queue shared by all ports, and the receiver keeps its key.

A packet that is refused changes nothing.
-/

import Lldp.Ethernet
import Lldp.Expiry
import Lldp.Frame

namespace Lldp

/-- What an accepted packet said, and who sent it. -/
structure Neighbor where
  frame : Frame
  info : LinkInfo
  source : Mac
deriving DecidableEq, Repr

namespace Neighbor

/-- The octets of a payload that belong to the frame: all up to the first end
marker, since an Ethernet packet that is too short is padded after it. -/
def unit (payload : Octets) : Octets :=
  match Tlv.unitLength payload with
  | some n => payload.take n
  | none => payload

/-- What a packet says, if it is acceptable. -/
def ofPacket (packet : Octets) : Except Error Neighbor :=
  match Ethernet.parse packet with
  | .error e => .error e
  | .ok eth =>
    if eth.destination ≠ Mac.nearestBridge then .error (.destination eth.destination)
    else if eth.etherType ≠ Ethernet.lldpType then .error (.missing .lldp)
    else
      match Frame.decode (unit eth.payload) with
      | .error e => .error e
      | .ok frame =>
        match frame.verify with
        | .error e => .error e
        | .ok () => .ok { frame, info := frame.linkInfo, source := eth.source }

end Neighbor

/-- The receiving half of a port. -/
structure Receiver where
  neighbor : Option Neighbor := none
  /-- The key of the alarm set for the neighbour. -/
  alarm : Option Nat := none
deriving DecidableEq, Repr

namespace Receiver

/-- Takes a packet in, and gives its hold time. -/
def process (r : Receiver) (packet : Octets) : Except Error Duration × Receiver :=
  match Neighbor.ofPacket packet with
  | .error e => (.error e, r)
  | .ok n => (.ok n.frame.ttl, { r with neighbor := some n })

/-- Sets the alarm, or moves the one that is set. -/
def refresh (r : Receiver) (alarms : Expiry) (ifIndex : IfIndex) (deadline : Nat) :
    Receiver × Expiry :=
  match r.alarm with
  | some key => (r, alarms.move key deadline)
  | none =>
    let armed := alarms.arm ifIndex deadline
    ({ r with alarm := some armed.1 }, armed.2)

/-- Forgets the neighbour, and says whether there was one.  The alarm is taken
to have gone off. -/
def expire (r : Receiver) : Bool × Receiver :=
  (r.neighbor.isSome, {})

/-- Cancels the alarm and keeps the neighbour. -/
def cancel (r : Receiver) (alarms : Expiry) : Receiver × Expiry :=
  match r.alarm with
  | some key => ({ r with alarm := none }, alarms.remove key)
  | none => (r, alarms)

end Receiver
end Lldp
