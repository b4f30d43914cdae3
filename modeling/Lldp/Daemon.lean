/-
# Starting up

A configuration file that is not there stands for the usual configuration; one
that cannot be read or does not make sense keeps the station from starting.
Otherwise the station's service is set going, and a script registers the
configured ports one after another: a port that is to be silent is disabled at
once, and any other is reported up, since nobody watches its link.

The script is one more client of the service.  It waits for each answer before
it makes the next request, and like any other task it takes one step at a time.
-/

import Lldp.Config.Toml
import Lldp.Service

namespace Lldp

/-- What is found under the name of a configuration file. -/
inductive ConfigSource where
  /-- Nothing. -/
  | missing
  /-- Something that cannot be read as text. -/
  | unreadable (reason : String)
  /-- A text. -/
  | text (content : String)

namespace ConfigSource

/-- What octets are as a configuration file: a text if they are well formed. -/
def ofOctets (bytes : Octets) : ConfigSource :=
  match String.fromUTF8? (ByteArray.mk bytes.toArray) with
  | some s => .text s
  | none => .unreadable "stream did not contain valid UTF-8"

/-- Loads a configuration, or the usual one if there is none. -/
def load : ConfigSource → Except Error Config
  | missing => .ok {}
  | unreadable reason => .error (.unreadable reason)
  | text content => Config.ofToml content

end ConfigSource

/-- What becomes known of a configuration once it is accepted. -/
structure Summary where
  ports : Nat
  interval : Nat
  ttl : Nat
  enabled : Bool
deriving DecidableEq, Repr

/-- The summary on one line. -/
def Summary.line (s : Summary) : String :=
  s!"ports={s.ports} tx_interval_secs={s.interval} ttl_secs={s.ttl} enabled={s.enabled}"

/-- Why a station does not start. -/
inductive StartError where
  | loading (e : Error)
  | validating (e : Error)
  | configuring (e : Error)
deriving DecidableEq, Repr

/-- The text of a failure to start with the configuration under a name. -/
def StartError.message (path : String) : StartError → String
  | loading e => s!"loading {path}: {e.message}"
  | validating e => s!"validating configuration: {e.message}"
  | configuring e => e.message

/-- What a station needs to start. -/
structure Plan where
  settings : Settings
  ports : List (Port × Bool)
deriving DecidableEq, Repr

namespace Plan

/-- The plan that a configuration file makes. -/
def ofSource (source : ConfigSource) : Except StartError Plan :=
  match source.load with
  | .error e => .error (.loading e)
  | .ok config =>
    match config.validate with
    | .error e => .error (.validating e)
    | .ok () =>
      match config.settings, config.portList with
      | .ok settings, .ok ports => .ok { settings, ports }
      | .error e, _ => .error (.configuring e)
      | _, .error e => .error (.configuring e)

def summary (p : Plan) : Summary :=
  { ports := p.ports.length
    interval := p.settings.timing.interval
    ttl := p.settings.timing.ttl
    enabled := p.settings.enabled }

end Plan

/-- Where the start-up script stands. -/
inductive ScriptPhase where
  /-- About to register the next port. -/
  | registering
  /-- A port is being registered. -/
  | adding (port : Port) (enabled : Bool)
  /-- A port is being disabled. -/
  | disabling
  /-- Waiting for room to report a port up. -/
  | reporting
  /-- All ports are registered. -/
  | done
  /-- A request was refused. -/
  | failed (e : Error)

/-- A service and the script that starts it. -/
structure Daemon where
  service : Service
  /-- The ports that are still to be registered, and whether they are to be
  heard of. -/
  pending : List (Port × Bool)
  phase : ScriptPhase := .registering

/-- A task of a starting daemon. -/
inductive DaemonTask where
  | script
  | service (task : ServiceTask)
deriving DecidableEq, Repr

namespace Daemon

/-- The client that the script is. -/
def scriptClient : Nat := Service.operator

def ofPlan (p : Plan) : Daemon :=
  let service := Service.ofSettings p.settings
  { service := { service with
      watch := { service.watch with notices := .ofCapacity p.settings.capacity } }
    pending := p.ports }

/-- A daemon, if its mailboxes can be made: those of its service, and the one for
notifications. -/
def ofPlan? (p : Plan) : Option Daemon := do
  let service ← Service.ofSettings? p.settings
  let notices ← Mailbox.ofCapacity? p.settings.capacity
  return { service := { service with watch := { service.watch with notices } }, pending := p.ports }

/-- Makes a request in the script's name. -/
def ask (d : Daemon) (request : Request) : Daemon :=
  { d with service := d.service.submit scriptClient request }

/-- The answer to the script's request, taken. -/
def taken (d : Daemon) : Daemon :=
  { d with service := d.service.setClient scriptClient .idle }

/-- The outcome of the script's request, if it has been answered. -/
def outcome? (d : Daemon) : Option (Except Error Unit) :=
  match d.service.client scriptClient with
  | .answered answer => some answer.result
  | _ => none

/-- Whether the script can go on. -/
def scriptReady (d : Daemon) : Bool :=
  match d.phase with
  | .registering => true
  | .adding .. | .disabling => d.outcome?.isSome
  | .reporting => d.service.watch.notices.canSettle scriptClient
  | .done | .failed _ => false

/-- Reports a port up. -/
def report (d : Daemon) (port : Port) : Daemon :=
  let notice : Notification := { ifIndex := port.ifIndex, state := LinkState.up.text }
  let watch := d.service.watch
  match watch.notices.send scriptClient notice with
  | .refused => { d with phase := .failed .commandsClosed }
  | .sent notices =>
    { d with service := { d.service with watch := { watch with notices } }, phase := .registering }
  | .blocked notices =>
    { d with service := { d.service with watch := { watch with notices } }, phase := .reporting }

/-- The script goes on. -/
def scriptStep (d : Daemon) : Daemon :=
  match d.phase with
  | .registering =>
    match d.pending with
    | [] => { d with phase := .done }
    | (port, enabled) :: rest =>
      { d with pending := rest, phase := .adding port enabled }.ask (.add port)
  | .adding port enabled =>
    match d.outcome? with
    | none => d
    | some (.error e) => { d.taken with phase := .failed e }
    | some (.ok ()) =>
      if enabled then d.taken.report port
      else { d.taken with phase := .disabling }.ask (.apply (.portEnable port.ifIndex false))
  | .disabling =>
    match d.outcome? with
    | none => d
    | some (.error e) => { d.taken with phase := .failed e }
    | some (.ok ()) => { d.taken with phase := .registering }
  | .reporting =>
    let watch := d.service.watch
    let settled := { watch with notices := watch.notices.settle scriptClient }
    { d with
      service := { d.service with watch := settled }
      phase := if watch.notices.closed then .failed .commandsClosed else .registering }
  | .done | .failed _ => d

/-- The step of a task.  A task that cannot make one stays where it is. -/
def step (task : DaemonTask) (d : Daemon) : Daemon :=
  match task with
  | .script => if d.scriptReady then d.scriptStep else d
  | .service task => { d with service := Service.step task d.service }

/-- The tasks that can make a step. -/
def able (d : Daemon) : List DaemonTask :=
  (if d.scriptReady then [.script] else []) ++ d.service.able.map .service

def machine : Machine Daemon DaemonTask where
  able := able
  step := step
  effort task d :=
    match task with
    | .script => 0
    | .service task => Service.effort task d.service
  workload d := (d.service.workload + 64) * (2 * d.pending.length + 2)
  timers d := d.service.timers
  setClock now d := { d with service := d.service.onStation fun st => { st with now } }

/-- The error over which the script has given up, if it has. -/
def failure? (d : Daemon) : Option Error :=
  match d.phase with
  | .failed e => some e
  | _ => none

/-- Runs the script to its end, if there is a daemon to run it. -/
def boot? (p : Plan) : Option Daemon := (ofPlan? p).map machine.settle

/-- Tells all tasks to end, and lets them. -/
def closeDown (d : Daemon) : Daemon :=
  machine.settle { d with service := d.service.announceExit.sealNotices }

/-- Whether the service and its controller have ended. -/
def hasEnded (d : Daemon) : Bool := !d.service.running && !d.service.watch.alive

end Daemon

/-- How a run that is asked to end as soon as it has started goes. -/
inductive Startup where
  /-- It ended in good order. -/
  | served (summary : Summary)
  /-- It broke down after its configuration had been accepted. -/
  | brokeDown (summary : Summary)
  /-- It did not start. -/
  | refused (e : StartError)
deriving DecidableEq, Repr

/-- Runs the script of a plan, and then closes the service down.  It breaks down if there is no
daemon, if the script gives up, or if a task does not come to its end. -/
def Startup.ofPlan (plan : Plan) : Startup :=
  match Daemon.boot? plan with
  | none => .brokeDown plan.summary
  | some daemon =>
    if daemon.failure?.isNone && daemon.closeDown.hasEnded then .served plan.summary
    else .brokeDown plan.summary

/-- Starts with what is found under the name of a configuration file. -/
def Startup.ofSource (source : ConfigSource) : Startup :=
  match Plan.ofSource source with
  | .error e => .refused e
  | .ok plan => .ofPlan plan

end Lldp
