/-
# Expiry alarms

One queue of alarms serves all ports.  An alarm has a key, by which its owner
can move or cancel it; an alarm that has been taken from the queue is gone, and
its key with it.  To move or cancel an alarm that is gone is a misuse, which the
queue remembers.  Times are milliseconds on the station's clock.

Beside the alarms stands the wheel that wakes whoever reads the queue.
-/

import Lldp.Expiry.Wheel
import Lldp.Port

namespace Lldp

/-- A deadline that concerns a port. -/
structure Alarm where
  key : Nat
  ifIndex : IfIndex
  deadline : Nat
deriving DecidableEq, Repr

/-- The alarms that are set.  Keys from `fresh` on have never been used. -/
structure Expiry where
  alarms : List Alarm := []
  fresh : Nat := 0
  wheel : Wheel := {}
  /-- An alarm was to be moved or cancelled by a key that none has. -/
  misused : Bool := false
deriving DecidableEq, Repr

namespace Expiry

/-- Whether an alarm has a key. -/
def holds (q : Expiry) (key : Nat) : Bool := q.alarms.any (·.key = key)

/-- Sets a new alarm and gives its key. -/
def arm (q : Expiry) (ifIndex : IfIndex) (deadline : Nat) : Nat × Expiry :=
  (q.fresh,
    { q with
      alarms := q.alarms ++ [⟨q.fresh, ifIndex, deadline⟩]
      fresh := q.fresh + 1
      wheel := q.wheel.arm q.fresh deadline })

/-- Gives an alarm another deadline. -/
def move (q : Expiry) (key deadline : Nat) : Expiry :=
  { q with
    alarms := q.alarms.map fun a => if a.key = key then { a with deadline } else a
    wheel := q.wheel.move key deadline
    misused := q.misused || !q.holds key }

/-- Takes an alarm from the queue. -/
def remove (q : Expiry) (key : Nat) : Expiry :=
  { q with
    alarms := q.alarms.filter fun a => a.key ≠ key
    wheel := q.wheel.remove key
    misused := q.misused || !q.holds key }

/-- The queue without an alarm that has gone off. -/
def take (q : Expiry) (now : Nat) (a : Alarm) : Expiry :=
  { q with
    alarms := q.alarms.filter fun b => b.key ≠ a.key
    wheel := if q.wheel.holds a.key then q.wheel.turn now else q.wheel }

/-- The first alarm whose time has come. -/
def due? (q : Expiry) (now : Nat) : Option Alarm :=
  q.alarms.find? fun a => a.deadline ≤ now

/-- The first alarm whose time has come, and the queue without it. -/
def pop? (q : Expiry) (now : Nat) : Option (Alarm × Expiry) :=
  (q.due? now).map fun a => (a, q.take now a)

/-- Whether the wheel is to be turned.  Nobody turns it while no alarm is set. -/
def isTurnDue (q : Expiry) (now : Nat) : Bool :=
  !q.alarms.isEmpty && q.wheel.wake.any (· ≤ now)

/-- Turns the wheel. -/
def turn (q : Expiry) (now : Nat) : Expiry := { q with wheel := q.wheel.turn now }

/-- The times at which there is something to do: the deadlines of all alarms,
and when the wheel is to be turned. -/
def times (q : Expiry) : List Nat :=
  q.alarms.map Alarm.deadline ++ (if q.alarms.isEmpty then [] else q.wheel.wake.toList)

end Expiry
end Lldp
