/-
# A beacon

One transmitter with a link, a mailbox for its ticker and a clock: as much of a
station as it takes to see packets being built and ticks arrive.
-/

import Lldp.Machine
import Lldp.Transmitter

namespace Lldp

/-- A transmitter on its own. -/
structure Beacon where
  transmitter : Transmitter
  link : LinkState := .up
  triggers : Triggers
  now : Nat := 0
  /-- How many times a ticker has gone to sleep. -/
  stamp : Nat := 0
deriving Repr

namespace Beacon

def ofTiming (timing : Timing) (capacity : Nat) : Beacon :=
  { transmitter := { timing }, triggers := .ofCapacity capacity }

/-- The step of the ticker. -/
def tick (b : Beacon) : Beacon :=
  match b.transmitter.ticker with
  | none => b
  | some t =>
    let done := t.step b.now b.stamp b.link b.triggers
    { b with
      transmitter := { b.transmitter with ticker := some done.1 }
      triggers := done.2
      stamp := b.stamp + 1 }

/-- The beacon as a machine with one task. -/
def machine : Machine Beacon Unit where
  able b := if b.transmitter.ticker.any (·.isReady b.now b.triggers) then [()] else []
  step _ b := b.tick
  effort _ _ := 0
  workload _ := 8
  timers b := b.transmitter.ticker.toList.filterMap Ticker.wake?
  setClock now b := { b with now }

def settle (b : Beacon) : Beacon := machine.settle b

/-- Lets time pass. -/
def sleep (b : Beacon) (ms : Nat) : Beacon :=
  machine.advance b.now (b.now + ms) b

/-- The ticker's place in the mailbox goes with it. -/
def stop (b : Beacon) : Beacon :=
  match b.transmitter.ticker with
  | none => b
  | some t =>
    { b with
      transmitter := b.transmitter.stopTicker, triggers := b.triggers.withdraw t.ifIndex }

/-- Starts a ticker in place of a running one. -/
def start (b : Beacon) (ifIndex : IfIndex) : Beacon :=
  let stopped := b.stop
  { stopped with transmitter := stopped.transmitter.startTicker ifIndex }

/-- The reader of the mailbox goes away. -/
def close (b : Beacon) : Beacon := { b with triggers := b.triggers.close }

/-- Takes at most `count` indexes from the mailbox, letting a waiting ticker
refill it after each. -/
def drainUpTo : Nat → Beacon → List IfIndex × Beacon
  | 0, b => ([], b)
  | count + 1, b =>
    match b.triggers.take? with
    | none => ([], b)
    | some (i, triggers) =>
      let more := drainUpTo count { b with triggers }.settle
      (i :: more.1, more.2)

/-- Takes all indexes from the mailbox. -/
def drain (b : Beacon) : List IfIndex × Beacon :=
  drainUpTo (b.triggers.items.length + b.triggers.waiting.length + 4) b

end Beacon
end Lldp
