/-
# The periodic ticker

A ticker asks for a transmission once every period, by leaving its port's index
in a mailbox.  It first does so one period after it has begun.  While its link
is down it lets the time pass.  When the mailbox is full it waits, and then it
may be late; a ticker late by more than a little grace starts counting anew from
the moment it was served, so it never makes up for lost time in a burst.

The clock counts milliseconds, but is read from a source that cannot count
seconds beyond `lastSecond`; a ticker whose first due time lies beyond that ends
before it has begun.
-/

import Lldp.Mailbox
import Lldp.Port
import Lldp.Timing

namespace Lldp

/-- Where a ticker stands. -/
inductive TickerPhase where
  /-- It has yet to read the clock. -/
  | starting
  /-- It sleeps until `due`; `stamp` tells in which order sleepers lay down. -/
  | sleeping (due stamp : Nat)
  /-- It waits for room in the mailbox, and will next be due at `due`. -/
  | sending (due : Nat)
  /-- It will never ask again. -/
  | finished
deriving DecidableEq, Repr

/-- A ticker of one port. -/
structure Ticker where
  ifIndex : IfIndex
  /-- Milliseconds between two ticks. -/
  period : Nat
  phase : TickerPhase := .starting
deriving DecidableEq, Repr

/-- The mailbox that tickers leave indexes in. -/
abbrev Triggers := Mailbox IfIndex IfIndex

namespace Ticker

/-- How late a tick may be, in milliseconds, without moving the ones after it. -/
def grace : Nat := 5

/-- The last second that the clock's source can count to. -/
def lastSecond : Nat := Nat.pow 2 63 - 1

/-- What the clock's source shows at the least when the station's clock begins. -/
def firstSecond : Nat := 1

/-- Whether a due time is within what the clock's source can count. -/
def reachable (due : Nat) : Bool := firstSecond + due / 1000 ≤ lastSecond

/-- When the tick after the one due at `due` is due, if that one is served at
`now`. -/
def nextDue (due now period : Nat) : Nat :=
  if now > due + grace then now + period else due + period

def isRunning (t : Ticker) : Bool := t.phase ≠ .finished

/-- Whether the ticker has something to do. -/
def isReady (t : Ticker) (now : Nat) (box : Triggers) : Bool :=
  match t.phase with
  | .starting => true
  | .sleeping due _ => due ≤ now
  | .sending _ => box.canSettle t.ifIndex
  | .finished => false

/-- Where a ready ticker stands among others: those that woke earlier come
first. -/
def rank (t : Ticker) : Nat × Nat :=
  match t.phase with
  | .sleeping due stamp => (due, stamp)
  | _ => (0, 0)

/-- One step of a ready ticker.  It goes to sleep under the given stamp. -/
def step (t : Ticker) (now stamp : Nat) (link : LinkState) (box : Triggers) : Ticker × Triggers :=
  match t.phase with
  | .starting =>
    let due := now + t.period
    if reachable due then ({ t with phase := .sleeping due stamp }, box)
    else ({ t with phase := .finished }, box)
  | .sleeping due _ =>
    let next := nextDue due now t.period
    if link ≠ .up then ({ t with phase := .sleeping next stamp }, box)
    else
      match box.send t.ifIndex t.ifIndex with
      | .refused => ({ t with phase := .finished }, box)
      | .sent box => ({ t with phase := .sleeping next stamp }, box)
      | .blocked box => ({ t with phase := .sending next }, box)
  | .sending next =>
    if box.closed then ({ t with phase := .finished }, box.settle t.ifIndex)
    else ({ t with phase := .sleeping next stamp }, box.settle t.ifIndex)
  | .finished => (t, box)

/-- When the ticker wakes, if it sleeps. -/
def wake? (t : Ticker) : Option Nat :=
  match t.phase with
  | .sleeping due _ => some due
  | _ => none

end Ticker
end Lldp
