/-
# The running service

A station with its dispatcher: one task that alone touches the registry.  It
serves, in this order of priority, the exit signal, the requests of clients,
captured packets, requests to transmit, and alarms; each step serves one of
them.  Clients leave requests in a mailbox and wait for the answer; the
link-state controller is a client of its own accord.

When the exit signal is seen, every port is stopped and the dispatcher ends.  It
breaks down when an alarm is set beyond the wheel that wakes it, and then no port
is stopped.  Either way, whoever waits for an answer learns that there will be
none, and whoever asks later that there is nobody to ask.
-/

import Lldp.LinkController
import Lldp.Request
import Lldp.Station

namespace Lldp

/-- Where a client stands with its request. -/
inductive ClientPhase where
  /-- It has asked for nothing, or taken its answer. -/
  | idle
  /-- It waits for room to ask. -/
  | sending
  /-- It has asked. -/
  | awaiting
  /-- It has been answered. -/
  | answered (answer : Answer)

/-- The task that feeds a controller with notifications. -/
structure LinkWatch where
  controller : LinkController := {}
  notices : Mailbox Nat Notification := .ofCapacity 64
  /-- No notification will follow those in the mailbox. -/
  sealed : Bool := false
  /-- The state whose request is under way. -/
  pending : Option (IfIndex × LinkState) := none
  exiting : Bool := false
  alive : Bool := true
deriving Repr

/-- A station, its dispatcher, and the clients. -/
structure Service where
  station : Station
  running : Bool := true
  exiting : Bool := false
  /-- Requests, with the numbers of the clients that make them. -/
  commands : Mailbox Nat (Nat × Request)
  clients : List ClientPhase := [.idle, .idle]
  watch : LinkWatch := {}

/-- A task of the service. -/
inductive ServiceTask where
  | dispatcher
  | client (number : Nat)
  | watch
  | station (task : StationTask)
deriving DecidableEq, Repr

namespace Service

/-- The client through which the service is operated. -/
def operator : Nat := 0

/-- The client that the link-state controller is. -/
def watcher : Nat := 1

def ofSettings (settings : Settings) : Service :=
  { station := .ofSettings settings, commands := .ofCapacity settings.capacity }

/-- A service, if its mailboxes can be made.  One without any room is not asked
for. -/
def ofSettings? (settings : Settings) : Option Service := do
  let capacity := max settings.capacity 1
  let commands ← Mailbox.ofCapacity? capacity
  let inbound ← Mailbox.ofCapacity? capacity
  let triggers ← Mailbox.ofCapacity? capacity
  return { station := { registry := { settings, triggers }, inbound }, commands }

/-- Changes the station. -/
def onStation (s : Service) (change : Station → Station) : Service :=
  { s with station := change s.station }

/-- Changes the registry. -/
def onRegistry (s : Service) (change : Registry → Registry) : Service :=
  s.onStation (·.onRegistry change)

/-- Where a client stands. -/
def client (s : Service) (number : Nat) : ClientPhase := s.clients[number]?.getD .idle

/-- Moves a client. -/
def setClient (s : Service) (number : Nat) (phase : ClientPhase) : Service :=
  { s with clients := s.clients.set number phase }

/-! ### Clients -/

/-- A client makes a request. -/
def submit (s : Service) (number : Nat) (request : Request) : Service :=
  match s.commands.send number (number, request) with
  | .refused => s.setClient number (.answered (.error .commandsClosed))
  | .sent commands => { s with commands }.setClient number .awaiting
  | .blocked commands => { s with commands }.setClient number .sending

/-- Whether a client that waits for room can go on. -/
def clientReady (s : Service) (number : Nat) : Bool :=
  match s.client number with
  | .sending => s.commands.canSettle number
  | _ => false

/-- A client that waited for room goes on. -/
def clientStep (s : Service) (number : Nat) : Service :=
  let settled := { s with commands := s.commands.settle number }
  if s.commands.closed then settled.setClient number (.answered (.error .commandsClosed))
  else settled.setClient number .awaiting

/-! ### The dispatcher -/

/-- The dispatcher is gone.  Clients that wait for an answer get none. -/
def vacate (s : Service) : Service :=
  { s with
    station := { s.station with
      inbound := s.station.inbound.close
      registry := { s.station.registry with triggers := s.station.registry.triggers.close } }
    running := false
    commands := s.commands.close
    clients := s.clients.map fun
      | .awaiting => .answered (.error .replyDropped)
      | phase => phase }

/-- The dispatcher ends in good order. -/
def finish (s : Service) : Service := (s.onRegistry Registry.shutdown).vacate

/-- The dispatcher breaks down. -/
def breakDown (s : Service) : Service := (s.onRegistry Registry.abandon).vacate

/-- Hands a captured packet to the port it came by.  If that breaks the wheel of
the alarms, the dispatcher breaks down. -/
def deliver (s : Service) (packet : Inbound) : Service :=
  let s := s.onRegistry (·.handleInbound s.station.now packet)
  if s.station.registry.alarms.wheel.broken then s.breakDown else s

/-- Does what a client asked, and answers it. -/
def executeNext (s : Service) (number : Nat) (request : Request) : Service :=
  let (reply, station) := s.station.withRegistry (Registry.execute request)
  { s with station }.setClient number (.answered (.ok reply))

/-- Whether there is anything to serve. -/
def dispatcherReady (s : Service) : Bool :=
  s.running &&
    (s.exiting || !s.commands.items.isEmpty || !s.station.inbound.items.isEmpty ||
      !s.station.registry.triggers.items.isEmpty ||
      (s.station.registry.alarms.pop? s.station.now).isSome ||
      s.station.registry.alarms.isTurnDue s.station.now)

/-- Serves what comes first. -/
def dispatch (s : Service) : Service :=
  if s.exiting then s.finish
  else
    match s.commands.take? with
    | some ((number, request), commands) => { s with commands }.executeNext number request
    | none =>
      match s.station.inbound.take? with
      | some (packet, inbound) =>
        (s.onStation fun st => { st with inbound }).deliver packet
      | none =>
        match s.station.registry.triggers.take? with
        | some (i, triggers) => s.onRegistry fun r => { r with triggers }.handleTransmit i
        | none =>
          match s.station.registry.expireNext? s.station.now with
          | some (_, registry) => s.onRegistry fun _ => registry
          | none => s.onRegistry fun r => { r with alarms := r.alarms.turn s.station.now }

/-! ### The link-state controller -/

/-- Whether the controller's task can go on. -/
def watchReady (s : Service) : Bool :=
  s.watch.alive &&
    match s.watch.pending with
    | none => s.watch.exiting || !s.watch.notices.items.isEmpty || s.watch.sealed
    | some _ =>
      match s.client watcher with
      | .answered _ => true
      | _ => false

/-- The controller's task ends. -/
def endWatch (s : Service) : Service :=
  { s with watch := { s.watch with alive := false, notices := s.watch.notices.close } }

/-- The controller's task goes on: it looks for the exit signal, then at the next
notification, whose request it makes and sees through. -/
def watchStep (s : Service) : Service :=
  match s.watch.pending with
  | some (i, state) =>
    match s.client watcher with
    | .answered answer =>
      { s with watch := { s.watch with
          controller := s.watch.controller.conclude i state answer.result
          pending := none } }.setClient watcher .idle
    | _ => s
  | none =>
    if s.watch.exiting then s.endWatch
    else
      match s.watch.notices.take? with
      | none => if s.watch.sealed then s.endWatch else s
      | some (notice, notices) =>
        let s := { s with watch := { s.watch with notices } }
        match LinkController.interpret notice with
        | .error _ => s
        | .ok (i, state) =>
          { s with watch := { s.watch with pending := some (i, state) } }.submit watcher
            (.reportLink i state)

/-! ### All tasks -/

/-- The step of a task.  A task that cannot make one stays where it is. -/
def step (task : ServiceTask) (s : Service) : Service :=
  match task with
  | .dispatcher => if s.dispatcherReady then s.dispatch else s
  | .client number => if s.clientReady number then s.clientStep number else s
  | .watch => if s.watchReady then s.watchStep else s
  | .station task => s.onStation (Station.step task)

/-- The tasks that can make a step. -/
def able (s : Service) : List ServiceTask :=
  (if s.dispatcherReady then [.dispatcher] else []) ++
    (if s.watchReady then [.watch] else []) ++
    ((List.range s.clients.length).filter s.clientReady).map .client ++
    s.station.able.map .station

/-- What the step of a task costs.  The dispatcher tires of every item it
serves; the others wait for an answer after each. -/
def effort (task : ServiceTask) (s : Service) : Nat :=
  match task with
  | .dispatcher => 1
  | .client _ | .watch => 0
  | .station task => Station.effort task s.station

/-- The times at which something becomes able; those of alarms count while there
is a dispatcher to look at them. -/
def timers (s : Service) : List Nat :=
  s.station.timers ++ (if s.running then s.station.registry.alarms.times else [])

/-- More than the steps that the tasks can make before time passes. -/
def workload (s : Service) : Nat :=
  let registry := s.station.registry
  let asked := s.commands.items.length + s.commands.waiting.length + s.clients.length +
    s.watch.notices.items.length
  s.station.workload +
    4 * (s.station.inbound.items.length + registry.triggers.items.length +
      registry.triggers.waiting.length + registry.alarms.alarms.length) +
    32 * (asked + 1) * (registry.sessions.length + 1)

def machine : Machine Service ServiceTask where
  able := able
  step := step
  effort := effort
  workload := workload
  timers := timers
  setClock now s := s.onStation fun st => { st with now }

def settle (s : Service) : Service := machine.settle s

/-- Lets time pass. -/
def sleep (s : Service) (ms : Nat) : Service :=
  machine.advance s.station.now (s.station.now + ms) s

/-! ### Operating the service -/

/-- Makes a request, lets everything run, and takes the answer. -/
def call (s : Service) (request : Request) : Answer × Service :=
  let s := (s.submit operator request).settle
  match s.client operator with
  | .answered answer => (answer, s.setClient operator .idle)
  | _ => (.error .replyDropped, s)

/-- Tells all tasks that the service is closing down. -/
def announceExit (s : Service) : Service :=
  { s with exiting := true, watch := { s.watch with exiting := true } }.onRegistry
    Registry.announceExit

/-- Leaves a notification for the controller's task.  Says whether there is such
a task, or nothing once no more notifications may be left. -/
def post (s : Service) (notice : Notification) : Option Bool × Service :=
  if s.watch.sealed then (none, s)
  else if s.watch.notices.closed then (some false, s)
  else (some true, { s with watch := { s.watch with notices := s.watch.notices.offer notice } })

/-- No more notifications will be left. -/
def sealNotices (s : Service) : Service :=
  { s with watch := { s.watch with sealed := true } }

end Service
end Lldp
