/-
# Sessions

Everything a station keeps for one registered port, and the task that reads the
port's interface while it is captured.

Every capture has a generation, a number no other capture has.  The task that
reads a capture knows its generation and looks, before each read and after it,
whether the port still has that very capture.
-/

import Lldp.Loopback
import Lldp.Receiver
import Lldp.Settings
import Lldp.Transmitter

namespace Lldp

/-- A capture that is under way. -/
structure Capture where
  generation : Nat
  handle : Nat
deriving DecidableEq, Repr

/-- What is kept for one port. -/
structure Session where
  port : Port
  /-- The protocol may run on this port. -/
  enabled : Bool := true
  link : LinkState := .down
  capture : Option Capture := none
  receiver : Receiver := {}
  transmitter : Transmitter
  counters : Counters := {}
deriving DecidableEq, Repr

namespace Session

/-- A port nobody has reported on yet. -/
def ofPort (port : Port) (timing : Timing) : Session :=
  { port, transmitter := { timing } }

def isCapturing (s : Session) : Bool := s.capture.isSome

/-- The port is captured from now on, and its ticker runs. -/
def start (s : Session) (c : Capture) : Session :=
  { s with capture := some c, transmitter := s.transmitter.startTicker s.port.ifIndex }

/-- The port is not captured any more, and nothing it would send is kept. -/
def stop (s : Session) : Session :=
  { s with capture := none, transmitter := s.transmitter.stopTicker.invalidate }

/-- The port adopts other timing; while it is captured it gets a new ticker. -/
def retime (s : Session) (timing : Timing) : Session :=
  let transmitter := s.transmitter.setTiming timing
  { s with
    transmitter :=
      if s.isCapturing then transmitter.startTicker s.port.ifIndex else transmitter }

/-- A packet was sent; this is the transmitter afterwards. -/
def countSent (s : Session) (transmitter : Transmitter) : Session :=
  { s with transmitter, counters := { s.counters with sent := s.counters.sent + 1 } }

/-- A packet could not be sent; this is the transmitter afterwards. -/
def countSendFailure (s : Session) (transmitter : Transmitter) : Session :=
  { s with
    transmitter, counters := { s.counters with sendFailures := s.counters.sendFailures + 1 } }

end Session

/-- Where the task that reads a capture stands. -/
inductive CapturePhase where
  /-- About to look whether the station is closing down. -/
  | watching
  /-- About to look whether the port still has this capture. -/
  | checking
  /-- About to look whether its handle is open. -/
  | opening
  /-- About to queue for a turn to read. -/
  | queueing
  /-- In the queue, with others before it. -/
  | waiting
  /-- Having its turn. -/
  | reading
  /-- With a packet in hand, about to look again whether the port still has this
  capture. -/
  | holding (bytes : Octets)
  /-- About to pass a packet on. -/
  | passing (bytes : Octets)
  /-- Waiting for room to pass a packet on. -/
  | sending
deriving DecidableEq, Repr

/-- What a step costs that is made in this phase. -/
def CapturePhase.effort : CapturePhase → Nat
  | watching | checking | opening | holding _ => 0
  | queueing | waiting | reading | passing _ | sending => 1

/-- The task that reads a capture.  It is one of the station's tasks until it
ends. -/
structure CaptureTask where
  ifIndex : IfIndex
  generation : Nat
  handle : Nat
  /-- The station has said, since the task began, that it is closing down. -/
  exiting : Bool := false
  phase : CapturePhase := .watching
deriving DecidableEq, Repr

/-- A packet on its way to the port that it was captured for. -/
structure Inbound where
  ifIndex : IfIndex
  bytes : Octets
  /-- The capture that it was read from.  Nothing is decided by it. -/
  generation : Nat := 0
deriving DecidableEq, Repr

/-- A neighbour as a query shows it. -/
structure Peer where
  chassis : String
  port : String
  hold : Nat
  info : LinkInfo
deriving DecidableEq, Repr

/-- One row of a query. -/
structure NeighborEntry where
  port : String
  ifIndex : IfIndex
  enabled : Bool
  peer : Option Peer
deriving DecidableEq, Repr

/-- One page of a query. -/
structure NeighborPage where
  /-- Where the next page begins, or zero after the last. -/
  next : Nat := 0
  count : Nat := 0
  entries : List NeighborEntry := []
deriving DecidableEq, Repr

/-- The neighbour in the words it chose. -/
def Neighbor.peer (n : Neighbor) : Peer :=
  { chassis := n.frame.chassis.text
    port := n.frame.port.text
    hold := n.frame.ttlSecs
    info := n.info }

/-- The row of a port. -/
def Session.entry (s : Session) : NeighborEntry :=
  { port := s.port.name
    ifIndex := s.port.ifIndex
    enabled := s.enabled
    peer := s.receiver.neighbor.map Neighbor.peer }

end Lldp
