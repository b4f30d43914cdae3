/-
# A table of receivers

Receivers for any number of ports on one clock and one queue of alarms.  Ports
come into being when they are first spoken of.  Alarms whose time has come stay
in the queue until they are fired.
-/

import Lldp.Receiver

namespace Lldp

/-- Receivers by port, in order of first mention. -/
structure ReceiverTable where
  ports : List (IfIndex × Receiver) := []
  alarms : Expiry := {}
  now : Nat := 0
deriving Repr

namespace ReceiverTable

/-- The receiver of a port; one never spoken of knows nothing. -/
def get (t : ReceiverTable) (i : IfIndex) : Receiver :=
  (t.ports.lookup i).getD {}

/-- Replaces the receiver of a port. -/
def put (t : ReceiverTable) (i : IfIndex) (r : Receiver) : ReceiverTable :=
  if t.ports.any (·.1 = i) then
    { t with ports := t.ports.map fun p => if p.1 = i then (i, r) else p }
  else { t with ports := t.ports ++ [(i, r)] }

/-- Makes sure that a port is known. -/
def mention (t : ReceiverTable) (i : IfIndex) : ReceiverTable :=
  t.put i (t.get i)

/-- Takes a packet in without touching an alarm. -/
def process (t : ReceiverTable) (i : IfIndex) (packet : Octets) :
    Except Error Duration × ReceiverTable :=
  let done := (t.get i).process packet
  (done.1, t.put i done.2)

/-- Sets the alarm of a port `hold` milliseconds from now. -/
def refresh (t : ReceiverTable) (i : IfIndex) (hold : Nat) : ReceiverTable :=
  let done := (t.get i).refresh t.alarms i (t.now + hold)
  { t.put i done.1 with alarms := done.2 }

/-- Takes a packet in, and if it is acceptable sets the alarm. -/
def receive (t : ReceiverTable) (i : IfIndex) (packet : Octets) :
    Except Error Duration × ReceiverTable :=
  let done := t.process i packet
  match done.1 with
  | .ok hold => (.ok hold, done.2.refresh i hold.toMillis)
  | .error e => (.error e, done.2)

/-- Forgets the neighbour of a port; an alarm set for it stays in the queue. -/
def expire (t : ReceiverTable) (i : IfIndex) : Bool × ReceiverTable :=
  let done := (t.get i).expire
  (done.1, t.put i done.2)

/-- Cancels the alarm of a port. -/
def cancel (t : ReceiverTable) (i : IfIndex) : ReceiverTable :=
  let done := (t.get i).cancel t.alarms
  { t.put i done.1 with alarms := done.2 }

/-- Fires at most `count` alarms whose time has come. -/
def fireUpTo : Nat → ReceiverTable → List (IfIndex × Bool) × ReceiverTable
  | 0, t => ([], t)
  | count + 1, t =>
    match t.alarms.pop? t.now with
    | none => ([], t)
    | some (alarm, rest) =>
      let done := { t with alarms := rest }.expire alarm.ifIndex
      let more := fireUpTo count done.2
      ((alarm.ifIndex, done.1) :: more.1, more.2)

/-- Fires every alarm whose time has come, and says for each whether there was a
neighbour to forget. -/
def fire (t : ReceiverTable) : List (IfIndex × Bool) × ReceiverTable :=
  fireUpTo t.alarms.alarms.length t

/-- Lets time pass. -/
def sleep (t : ReceiverTable) (ms : Nat) : ReceiverTable :=
  { t with now := t.now + ms }

end ReceiverTable
end Lldp
