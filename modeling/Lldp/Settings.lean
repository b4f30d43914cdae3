/-
# Settings

What a station needs to know before it starts, and what may be changed while it
runs.
-/

import Lldp.Port
import Lldp.Timing

namespace Lldp

/-- How interfaces are opened. -/
structure CaptureSettings where
  /-- Octets kept of a packet. -/
  snaplen : Int := 65535
  promiscuous : Bool := true
  /-- Patience of a read, in milliseconds. -/
  readTimeout : Nat := 1000
deriving DecidableEq, Repr

/-- Settings of a station. -/
structure Settings where
  /-- The protocol runs at all. -/
  enabled : Bool := true
  timing : Timing := .standard
  capture : CaptureSettings := {}
  /-- Room in each of the mailboxes. -/
  capacity : Nat := 1024
deriving DecidableEq, Repr

/-- A change of settings at run time. -/
inductive Change where
  /-- Switches the protocol on or off everywhere. -/
  | globalEnable (on : Bool)
  /-- Switches the protocol on or off on one port. -/
  | portEnable (ifIndex : IfIndex) (on : Bool)
  /-- Adopts another interval and multiplier. -/
  | timing (interval multiplier : Nat)
deriving DecidableEq, Repr

end Lldp
