/-
# The registry of ports

The registry owns the session of every port and decides when a port may be
captured: its link is up, it is enabled, and so is the protocol as a whole.
Starting a port opens its interface, sets a task to read it and a ticker to
advertise on it, and asks for the first frame at once; stopping it undoes all
that and leaves the neighbour to age out by itself.

Every operation gives its result and the registry after it.  The order of
`sessions` is the order in which an operation on all ports goes through them;
look-ups do not depend on it.
-/

import Lldp.Session

namespace Lldp

/-- The sessions, and what they share. -/
structure Registry where
  settings : Settings
  sessions : List Session := []
  /-- The captured ports, in the order in which they were last started. -/
  upPorts : List IfIndex := []
  alarms : Expiry := {}
  /-- The generation of the last capture. -/
  generation : Nat := 0
  /-- The tasks that read captures, those of former captures among them. -/
  tasks : List CaptureTask := []
  /-- Requests to transmit. -/
  triggers : Triggers
  backend : Loopback := {}
deriving Repr

namespace Registry

def ofSettings (settings : Settings) : Registry :=
  { settings, triggers := .ofCapacity settings.capacity }

/-- The session of a port. -/
def session? (r : Registry) (i : IfIndex) : Option Session :=
  r.sessions.find? (·.port.ifIndex = i)

/-- Changes the session of a port. -/
def modify (r : Registry) (i : IfIndex) (change : Session → Session) : Registry :=
  { r with sessions := r.sessions.map fun s => if s.port.ifIndex = i then change s else s }

/-- Whether a port still has the capture of a generation. -/
def isCurrent (r : Registry) (i : IfIndex) (generation : Nat) : Bool :=
  (r.session? i).any fun s => s.capture.any (·.generation = generation)

/-- Registers a port.  Its link counts as down until something else is said. -/
def add (r : Registry) (port : Port) : Except Error Unit × Registry :=
  match r.session? port.ifIndex with
  | some _ => (.error (.portExists port.name port.ifIndex), r)
  | none =>
    (.ok (), { r with sessions := r.sessions ++ [.ofPort port r.settings.timing] })

/-- Records the state of a port's link. -/
def setLink (r : Registry) (i : IfIndex) (state : LinkState) : Except Error Unit × Registry :=
  match r.session? i with
  | none => (.error (.portNotFound i), r)
  | some _ => (.ok (), r.modify i fun s => { s with link := state })

/-- Whether a port may be captured and is not. -/
def isDue (r : Registry) (s : Session) : Bool :=
  s.link = .up && r.settings.enabled && s.enabled && !s.isCapturing

/-- A port's interface has been opened: the port has a new capture, a task to
read it, a ticker, a place among the captured ports, and a request for its first
frame, if there is room for one. -/
def adopt (r : Registry) (i : IfIndex) (handle : Nat) : Registry :=
  let generation := r.generation + 1
  let r := r.modify i (·.start { generation, handle })
  { r with
    generation
    tasks := r.tasks ++ [{ ifIndex := i, generation, handle }]
    upPorts := if i ∈ r.upPorts then r.upPorts else r.upPorts ++ [i]
    triggers := (r.triggers.withdraw i).offer i }

/-- Starts a port that may be captured and is not; leaves any other as it is. -/
def start (r : Registry) (i : IfIndex) : Except Error Unit × Registry :=
  match r.session? i with
  | none => (.error (.portNotFound i), r)
  | some s =>
    if !r.isDue s then (.ok (), r)
    else
      match r.backend.openHandle s.port.name r.settings.capture.readTimeout
          Ethernet.captureFilter with
      | .error e => (.error e, r)
      | .ok (handle, backend) => (.ok (), { r with backend }.adopt i handle)

/-- Stops a port.  Stopping a port that is not captured changes nothing. -/
def stop (r : Registry) (i : IfIndex) : Except Error Unit × Registry :=
  match r.session? i with
  | none => (.error (.portNotFound i), r)
  | some s =>
    let r := { r with
      backend := match s.capture with
        | some c => r.backend.close c.handle
        | none => r.backend
      upPorts := r.upPorts.filter (· ≠ i)
      triggers := r.triggers.withdraw i }
    (.ok (), r.modify i Session.stop)

/-- Cancels the alarm of a port. -/
def cancelAlarm (r : Registry) (i : IfIndex) : Registry :=
  match r.session? i with
  | none => r
  | some s =>
    let done := s.receiver.cancel r.alarms
    { r with alarms := done.2 }.modify i fun s => { s with receiver := done.1 }

/-- Stops a port and forgets it. -/
def remove (r : Registry) (i : IfIndex) : Except Error Unit × Registry :=
  match r.stop i with
  | (.error e, r) => (.error e, r)
  | (.ok (), r) =>
    let r := r.cancelAlarm i
    (.ok (), { r with sessions := r.sessions.filter (·.port.ifIndex ≠ i) })

/-- Hands a captured packet to the port it came by.  A port that is not captured
does not look at it. -/
def handleInbound (r : Registry) (now : Nat) (packet : Inbound) : Registry :=
  match r.session? packet.ifIndex with
  | none => r
  | some s =>
    if !s.isCapturing then r
    else
      match s.receiver.process packet.bytes with
      | (.ok hold, receiver) =>
        let done := receiver.refresh r.alarms packet.ifIndex (now + hold.toMillis)
        { r with alarms := done.2 }.modify packet.ifIndex fun s =>
          { s with
            receiver := done.1
            counters := { s.counters with received := s.counters.received + 1 } }
      | (.error _, receiver) =>
        r.modify packet.ifIndex fun s =>
          { s with
            receiver
            counters := { s.counters with discarded := s.counters.discarded + 1 } }

/-- Transmits on a port.  A packet that cannot be built or written is counted,
and whatever packet was kept is thrown away. -/
def handleTransmit (r : Registry) (i : IfIndex) : Registry :=
  match r.session? i with
  | none => r
  | some s =>
    match s.capture with
    | none => r
    | some c =>
      let (bytes, transmitter) := s.transmitter.current s.port.mac s.port.name
      if bytes.isEmpty then r.modify i (·.countSendFailure transmitter)
      else
        match r.backend.write c.handle bytes with
        | .error _ => r.modify i (·.countSendFailure transmitter.invalidate)
        | .ok backend => { r with backend }.modify i (·.countSent transmitter)

/-- The alarm of a port has gone off. -/
def handleExpiry (r : Registry) (i : IfIndex) : Registry :=
  match r.session? i with
  | none => r
  | some s =>
    let (forgotten, receiver) := s.receiver.expire
    r.modify i fun s =>
      { s with
        receiver
        counters :=
          if forgotten then { s.counters with ageouts := s.counters.ageouts + 1 }
          else s.counters }

/-- Takes an alarm whose time has come, and handles it. -/
def expire (r : Registry) (now : Nat) (alarm : Alarm) : Registry :=
  { r with alarms := r.alarms.take now alarm }.handleExpiry alarm.ifIndex

/-- Takes the first alarm whose time has come, and handles it. -/
def expireNext? (r : Registry) (now : Nat) : Option (IfIndex × Registry) :=
  (r.alarms.due? now).map fun alarm => (alarm.ifIndex, r.expire now alarm)

/-- Handles at most `count` alarms whose time has come, and names their
ports. -/
def fireUpTo (now : Nat) : Nat → Registry → List IfIndex × Registry
  | 0, r => ([], r)
  | count + 1, r =>
    match r.expireNext? now with
    | none => ([], r)
    | some (i, r) =>
      let more := fireUpTo now count r
      (i :: more.1, more.2)

/-- Handles every alarm whose time has come, and names their ports. -/
def fire (r : Registry) (now : Nat) : List IfIndex × Registry :=
  fireUpTo now r.alarms.alarms.length r

/-- A page of the captured ports, in the order in which they were started.  A
page with nothing on it says that there is no next one. -/
def neighbors (r : Registry) (start count : Nat) : NeighborPage :=
  let total := r.upPorts.length
  if start ≥ total ∨ count = 0 then {}
  else
    let stop := min (start + count) total
    let entries := ((r.upPorts.drop start).take (stop - start)).filterMap fun i =>
      (r.session? i).map Session.entry
    { next := if stop ≥ total then 0 else stop, count := entries.length, entries }

/-- What was counted on a port. -/
def counters (r : Registry) (i : IfIndex) : Except Error Counters :=
  match r.session? i with
  | none => .error (.portNotFound i)
  | some s => .ok s.counters

/-- Starts or stops a port, whatever comes of it. -/
def follow (r : Registry) (i : IfIndex) (on : Bool) : Registry :=
  if on then (r.start i).2 else (r.stop i).2

/-- The ports, in the order in which they are gone through. -/
def indexes (r : Registry) : List IfIndex := r.sessions.map (·.port.ifIndex)

/-- Starts or stops several ports in order, whatever comes of each. -/
def followAll (r : Registry) (is : List IfIndex) (on : Bool) : Registry :=
  is.foldl (fun r i => r.follow i on) r

/-- Records whether the protocol runs at all. -/
def setEnabled (r : Registry) (on : Bool) : Registry :=
  { r with settings := { r.settings with enabled := on } }

/-- Records whether the protocol runs on a port. -/
def setPortEnabled (r : Registry) (i : IfIndex) (on : Bool) : Registry :=
  r.modify i fun s => { s with enabled := on }

/-- Adopts other timing on all ports; a captured port gets a new ticker. -/
def retime (r : Registry) (timing : Timing) : Registry :=
  { r with
    settings := { r.settings with timing }
    triggers := { r.triggers with
      waiting := r.triggers.waiting.filter fun w =>
        !(r.session? w.1).any Session.isCapturing }
    sessions := r.sessions.map (·.retime timing) }

/-- Makes a change of settings. -/
def apply (r : Registry) (change : Change) : Except Error Unit × Registry :=
  match change with
  | .globalEnable on => (.ok (), (r.setEnabled on).followAll r.indexes on)
  | .portEnable i on =>
    match r.session? i with
    | none => (.error (.portNotFound i), r)
    | some _ => (.ok (), (r.setPortEnabled i on).follow i on)
  | .timing interval multiplier =>
    match Timing.ofNumbers interval multiplier with
    | .error e => (.error e, r)
    | .ok timing => (.ok (), r.retime timing)

/-- Records the state of a port's link and does what follows from it. -/
def reportLink (r : Registry) (i : IfIndex) (state : LinkState) : Except Error Unit × Registry :=
  match r.setLink i state with
  | (.error e, r) => (.error e, r)
  | (.ok (), r) =>
    match state with
    | .up => r.start i
    | .down => r.stop i

/-- Stops every port and cancels every alarm. -/
def shutdown (r : Registry) : Registry :=
  r.indexes.foldl (fun r i => ((r.stop i).2).cancelAlarm i) r

/-- Leaves everything as it is but the tickers, which end. -/
def abandon (r : Registry) : Registry :=
  { r with
    triggers := { r.triggers with waiting := [] }
    sessions := r.sessions.map fun s => { s with transmitter := s.transmitter.stopTicker } }

/-- Tells the tasks that the station is closing down. -/
def announceExit (r : Registry) : Registry :=
  { r with tasks := r.tasks.map fun t => { t with exiting := true } }

end Registry
end Lldp
