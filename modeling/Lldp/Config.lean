/-
# Configuration

What an operator writes down about a station and its ports.  A configuration may
say anything its types allow; `validate` tells whether it makes sense, naming
the first thing that does not, and `settings` and `portList` turn it into what a
station works with.
-/

import Lldp.Settings

namespace Lldp

/-- The station as a whole. -/
structure GlobalConfig where
  enabled : Bool := true
  /-- Seconds between two frames. -/
  interval : Nat := 30
  /-- How many intervals a neighbour is to remember the station for. -/
  multiplier : Nat := 4
  /-- Room in each of the mailboxes. -/
  capacity : Nat := 1024
deriving DecidableEq, Repr

/-- One port.  Its address is still a text. -/
structure PortConfig where
  ifIndex : IfIndex
  number : Nat := 0
  name : String
  mac : String
  enabled : Bool := true
deriving DecidableEq, Repr

/-- A configuration. -/
structure Config where
  global : GlobalConfig := {}
  capture : CaptureSettings := {}
  ports : List PortConfig := []
deriving DecidableEq, Repr

namespace PortConfig

/-- The port as a station registers it. -/
def port (p : PortConfig) : Except Error Port :=
  match Mac.parse p.mac with
  | .error e => .error e
  | .ok mac => .ok { ifIndex := p.ifIndex, number := p.number, name := p.name, mac }

end PortConfig

namespace Config

/-- The timing that is asked for. -/
def timing (c : Config) : Except Error Timing :=
  Timing.ofNumbers c.global.interval c.global.multiplier

/-- Looks at ports one after another; `seen` holds the indexes of those
before. -/
def validatePorts (seen : List IfIndex) : List PortConfig → Except Error Unit
  | [] => .ok ()
  | p :: rest =>
    if p.name.isEmpty then .error (.unnamedPort p.ifIndex)
    else if p.ifIndex ∈ seen then .error (.duplicatePort p.ifIndex p.name)
    else
      match Mac.parse p.mac with
      | .error e => .error e
      | .ok _ => validatePorts (p.ifIndex :: seen) rest

/-- Whether a configuration makes sense, or the first thing that does not. -/
def validate (c : Config) : Except Error Unit :=
  match c.timing with
  | .error e => .error e
  | .ok _ =>
    if c.global.capacity = 0 then .error .zeroCapacity
    else if c.capture.snaplen ≤ 0 then .error .snaplen
    else validatePorts [] c.ports

/-- The settings of a station so configured. -/
def settings (c : Config) : Except Error Settings :=
  match c.timing with
  | .error e => .error e
  | .ok timing =>
    .ok { enabled := c.global.enabled, timing, capture := c.capture, capacity := c.global.capacity }

/-- The ports and whether the protocol is to run on them, as far as their
addresses can be read. -/
def portList (c : Config) : Except Error (List (Port × Bool)) :=
  go c.ports
where
  go : List PortConfig → Except Error (List (Port × Bool))
    | [] => .ok []
    | p :: rest =>
      match p.port with
      | .error e => .error e
      | .ok port =>
        match go rest with
        | .error e => .error e
        | .ok ports => .ok ((port, p.enabled) :: ports)

end Config
end Lldp
