/-
# Transmitting

The transmitting half of a port builds the packet that advertises the station,
keeps it for as long as it stays true, and has a ticker that asks for it to be
sent.  The kept packet depends on the address and the name of the port and on
the timing; only the timing can change while the port is registered, and a
change of timing throws the packet away.
-/

import Lldp.Ethernet
import Lldp.Ticker

namespace Lldp

/-- The transmitting half of a port. -/
structure Transmitter where
  timing : Timing
  /-- The packet built last, while it may be sent again. -/
  cached : Option Octets := none
  /-- How many packets were built. -/
  builds : Nat := 0
  ticker : Option Ticker := none
deriving DecidableEq, Repr

namespace Transmitter

/-- What a port says of itself. -/
def frame (timing : Timing) (source : Mac) (name : String) : Frame :=
  { chassis := .ofMac source, port := .ofInterface name, ttl := .ofSecs timing.ttl, optional := [] }

/-- The packet that advertises a port, or the reason why there is none. -/
def packet (timing : Timing) (source : Mac) (name : String) : Except Error Octets :=
  (frame timing source name).encode.map (Ethernet.build source)

/-- Builds the packet and keeps it.  One that cannot be built is empty. -/
def build (t : Transmitter) (source : Mac) (name : String) : Octets × Transmitter :=
  match packet t.timing source name with
  | .ok bytes => (bytes, { t with cached := some bytes, builds := t.builds + 1 })
  | .error _ => ([], { t with cached := none })

/-- The kept packet, or else a fresh one. -/
def current (t : Transmitter) (source : Mac) (name : String) : Octets × Transmitter :=
  match t.cached with
  | some bytes => (bytes, t)
  | none => t.build source name

/-- Throws the kept packet away. -/
def invalidate (t : Transmitter) : Transmitter := { t with cached := none }

/-- Adopts other timing.  A running ticker keeps its period. -/
def setTiming (t : Transmitter) (timing : Timing) : Transmitter :=
  { t with timing, cached := none }

/-- Starts a ticker in place of a running one. -/
def startTicker (t : Transmitter) (ifIndex : IfIndex) : Transmitter :=
  { t with ticker := some { ifIndex, period := t.timing.period } }

def stopTicker (t : Transmitter) : Transmitter := { t with ticker := none }

/-- Whether a ticker will ask again. -/
def isTicking (t : Transmitter) : Bool := t.ticker.any Ticker.isRunning

end Transmitter
end Lldp
