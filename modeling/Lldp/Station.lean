/-
# The station

A registry together with the tasks it has set off and a clock.  Two kinds of
task run by themselves: one for every capture, which reads packets and passes
them on through the inbound mailbox, and one for every ticker, which leaves
requests to transmit in the trigger mailbox.  Someone else reads the two
mailboxes.

A step is the least that a task does without another task being able to come in
between.  `Station.step` gives it for any task in any state, so the steps can be
taken in any order at all; `Station.machine` takes them in one.
-/

import Lldp.Machine
import Lldp.Registry

namespace Lldp

/-- A registry, its tasks' mailbox for packets, and the time. -/
structure Station where
  registry : Registry
  inbound : Mailbox Nat Inbound
  /-- Milliseconds since the station began. -/
  now : Nat := 0
  /-- How many times a ticker has gone to sleep. -/
  stamp : Nat := 0
deriving Repr

/-- A task of a station: the one that reads the capture of a generation, or the
ticker of a port. -/
inductive StationTask where
  | capture (generation : Nat)
  | ticker (ifIndex : IfIndex)
deriving DecidableEq, Repr

namespace Station

def ofSettings (settings : Settings) : Station :=
  { registry := .ofSettings settings, inbound := .ofCapacity settings.capacity }

/-- Changes the registry. -/
def onRegistry (st : Station) (change : Registry → Registry) : Station :=
  { st with registry := change st.registry }

/-- Changes the registry and gives a result. -/
def withRegistry {α : Type} (st : Station) (change : Registry → α × Registry) : α × Station :=
  let done := change st.registry
  (done.1, { st with registry := done.2 })

/-- Changes the links. -/
def onBackend (st : Station) (change : Loopback → Loopback) : Station :=
  st.onRegistry fun r => { r with backend := change r.backend }

/-! ### The task of a capture -/

/-- The task that reads the capture of a generation. -/
def captureTask? (st : Station) (generation : Nat) : Option CaptureTask :=
  st.registry.tasks.find? (·.generation = generation)

/-- Moves the task of a capture to another phase. -/
def setPhase (st : Station) (generation : Nat) (phase : CapturePhase) : Station :=
  st.onRegistry fun r => { r with
    tasks := r.tasks.map fun t => if t.generation = generation then { t with phase } else t }

/-- Ends the task of a capture. -/
def endCapture (st : Station) (generation : Nat) : Station :=
  st.onRegistry fun r => { r with tasks := r.tasks.filter (·.generation ≠ generation) }

/-- The link that a handle was opened on. -/
def linkOf? (st : Station) (handle : Nat) : Option Nat :=
  (st.registry.backend.handles[handle]?).map Handle.link

/-- Whether it is the turn of a task to read its link. -/
def hasTurn (st : Station) (t : CaptureTask) : Bool :=
  (st.linkOf? t.handle).any fun link => st.registry.backend.turn? link = some t.generation

/-- Whether the task of a capture can make a step. -/
def captureReady (st : Station) (t : CaptureTask) : Bool :=
  match t.phase with
  | .watching | .checking | .opening | .queueing | .holding _ | .passing _ => true
  | .waiting => st.hasTurn t
  | .reading =>
    st.hasTurn t &&
      (st.linkOf? t.handle).any fun link => st.registry.backend.canServe link st.now
  | .sending => st.inbound.canSettle t.generation

/-- Goes on reading, and looks what came of it. -/
def captureRead (st : Station) (t : CaptureTask) : Station :=
  match st.linkOf? t.handle with
  | none => st
  | some link =>
    match st.registry.backend.serve link st.now with
    | (ended, backend) =>
      let st := st.onBackend fun _ => backend
      match ended with
      | some (_, .frame bytes) => st.setPhase t.generation (.holding bytes)
      | some (_, .nothing) => st.setPhase t.generation .watching
      | some (_, .gone) => st.endCapture t.generation
      | none => st

/-- Queues for a turn to read. -/
def captureQueue (st : Station) (t : CaptureTask) : Station :=
  let queued := st.onBackend fun lo => lo.queueReader t.handle t.generation
  queued.setPhase t.generation (if queued.hasTurn t then .reading else .waiting)

/-- Passes a packet on. -/
def capturePass (st : Station) (t : CaptureTask) (bytes : Octets) : Station :=
  match st.inbound.send t.generation
      { ifIndex := t.ifIndex, bytes, generation := t.generation } with
  | .refused => st.endCapture t.generation
  | .sent inbound => { st with inbound }.setPhase t.generation .watching
  | .blocked inbound => { st with inbound }.setPhase t.generation .sending

/-- The step of the task of a capture. -/
def captureStep (st : Station) (t : CaptureTask) : Station :=
  match t.phase with
  | .watching =>
    if t.exiting then st.endCapture t.generation else st.setPhase t.generation .checking
  | .checking =>
    if st.registry.isCurrent t.ifIndex t.generation then st.setPhase t.generation .opening
    else st.endCapture t.generation
  | .opening =>
    match st.registry.backend.access t.handle with
    | .error _ => st.endCapture t.generation
    | .ok _ => st.setPhase t.generation .queueing
  | .queueing => st.captureQueue t
  | .waiting => st.setPhase t.generation .reading
  | .reading => st.captureRead t
  | .holding bytes =>
    if st.registry.isCurrent t.ifIndex t.generation then st.setPhase t.generation (.passing bytes)
    else st.endCapture t.generation
  | .passing bytes => st.capturePass t bytes
  | .sending =>
    let settled := { st with inbound := st.inbound.settle t.generation }
    if st.inbound.closed then settled.endCapture t.generation
    else settled.setPhase t.generation .watching

/-! ### Tickers -/

/-- The ticker of a port. -/
def ticker? (st : Station) (i : IfIndex) : Option Ticker :=
  (st.registry.session? i).bind (·.transmitter.ticker)

/-- All tickers. -/
def tickers (st : Station) : List Ticker :=
  st.registry.sessions.filterMap (·.transmitter.ticker)

/-- The step of the ticker of a port. -/
def tickerStep (st : Station) (i : IfIndex) : Station :=
  match st.registry.session? i with
  | none => st
  | some s =>
    match s.transmitter.ticker with
    | none => st
    | some t =>
      let done := t.step st.now st.stamp s.link st.registry.triggers
      let st := { st with stamp := st.stamp + 1 }
      st.onRegistry fun r => { r with triggers := done.2 }.modify i fun s =>
        { s with transmitter := { s.transmitter with ticker := some done.1 } }

/-! ### All tasks -/

/-- The step of a task.  A task that cannot make one stays where it is. -/
def step (task : StationTask) (st : Station) : Station :=
  match task with
  | .capture generation =>
    match st.captureTask? generation with
    | none => st
    | some t => if st.captureReady t then st.captureStep t else st
  | .ticker i =>
    if (st.ticker? i).any (·.isReady st.now st.registry.triggers) then st.tickerStep i else st

/-- The tickers that can make a step, those that woke earlier first. -/
def readyTickers (st : Station) : List Ticker :=
  (st.tickers.filter (·.isReady st.now st.registry.triggers)).mergeSort fun a b =>
    a.rank.1 < b.rank.1 || (a.rank.1 = b.rank.1 && a.rank.2 ≤ b.rank.2)

/-- The tasks that can make a step. -/
def able (st : Station) : List StationTask :=
  (st.registry.tasks.filter st.captureReady).map (.capture ·.generation) ++
    st.readyTickers.map (.ticker ·.ifIndex)

/-- What the step of a task costs.  The task of a capture tires of getting its
turn, of reading and of passing packets on; a ticker makes so few steps at a
time that they do not count. -/
def effort (task : StationTask) (st : Station) : Nat :=
  match task with
  | .capture generation => (st.captureTask? generation).elim 0 fun t => t.phase.effort
  | .ticker _ => 0

/-- The times at which a read gives up or a ticker wakes. -/
def timers (st : Station) : List Nat :=
  st.registry.backend.deadlines ++ st.tickers.filterMap Ticker.wake?

/-- More than the steps that the tasks can make before time passes: a packet is
read, passed on and settled in a handful, and so is a turn without one. -/
def workload (st : Station) : Nat :=
  16 * ((st.registry.backend.links.flatMap (·.unread)).length + st.inbound.waiting.length +
    st.registry.tasks.length + st.registry.sessions.length + 1)

def machine : Machine Station StationTask where
  able := able
  step := step
  effort := effort
  workload := workload
  timers := timers
  setClock now st := { st with now }

def settle (st : Station) : Station := machine.settle st

/-- Lets time pass. -/
def sleep (st : Station) (ms : Nat) : Station :=
  machine.advance st.now (st.now + ms) st

/-! ### Emptying the mailboxes by hand -/

/-- What lay in the mailboxes: packets and requests to transmit, in order. -/
structure Haul where
  packets : List Inbound := []
  triggers : List IfIndex := []
deriving DecidableEq, Repr

/-- Takes at most `count` items from the two mailboxes, packets first, and lets
the tasks refill them after each.  Items are handled if `deliver` says so. -/
def pumpUpTo (deliver : Bool) : Nat → Station → Haul × Station
  | 0, st => ({}, st)
  | count + 1, st =>
    match st.inbound.take? with
    | some (packet, inbound) =>
      let st := { st with inbound }
      let st := if deliver then st.onRegistry (·.handleInbound st.now packet) else st
      let (haul, st) := pumpUpTo deliver count st.settle
      ({ haul with packets := packet :: haul.packets }, st)
    | none =>
      match st.registry.triggers.take? with
      | some (i, triggers) =>
        let st := st.onRegistry fun r =>
          let r := { r with triggers }
          if deliver then r.handleTransmit i else r
        let (haul, st) := pumpUpTo deliver count st.settle
        ({ haul with triggers := i :: haul.triggers }, st)
      | none => ({}, st)

/-- Empties the two mailboxes. -/
def pump (deliver : Bool) (st : Station) : Haul × Station :=
  let packets := st.inbound.items.length + st.inbound.waiting.length +
    (st.registry.backend.links.flatMap (·.unread)).length + st.registry.tasks.length
  let triggers := st.registry.triggers.items.length + st.registry.triggers.waiting.length +
    2 * st.registry.sessions.length
  pumpUpTo deliver (packets + triggers + 1) st

end Station
end Lldp
