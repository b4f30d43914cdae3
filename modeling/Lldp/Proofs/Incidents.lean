/-
# Runs of a station

An operation is what the owner of a registry can do by hand, at a time: meet a request,
record a link's state, start and stop ports, hand over packets and requests to transmit,
let alarms go off, do something with a link, or wait.  An incident is the least that
happens to a station at once: a task makes its next step, an operation is made, something
is taken out of a mailbox, everything is stopped, the exit signal is given.  A run is any
sequence of incidents, so what is proved of every run holds however tasks are scheduled
and however operations and frames fall in between.

What others do with links is limited to what they can do: frames arrive, and opens and
writes are made to fail by the name of the interface (`LinkUse`).

What comes out of a run is put together from its incidents: the tasks that are set off
(`launches`) and the packets that tasks put in the mailbox (`forwards`).
-/

import Lldp.Proofs.Registry.Alterations
import Lldp.Proofs.Station
import Lldp.Proofs.Trace

namespace Lldp

/-- What others do with links. -/
inductive LinkUse where
  /-- Frames arrive on a link. -/
  | inject (name : String) (frames : List Octets)
  /-- An interface cannot be opened from now on, or can be. -/
  | failOpen (name : String) (fail : Bool)
  /-- Writes on a link fail from now on, or do not. -/
  | failWrite (name : String) (fail : Bool)
deriving DecidableEq, Repr

/-- The links after others have done something with them. -/
def Loopback.use (lo : Loopback) : LinkUse → Loopback
  | .inject name frames => lo.inject name frames
  | .failOpen name fail => lo.setFailOpen name fail
  | .failWrite name fail => lo.setFailWrite name fail

/-- Others open and close no handle. -/
theorem Loopback.handles_use {lo : Loopback} {use : LinkUse} :
    (lo.use use).handles = lo.handles := by
  cases use with
  | inject name frames => exact handles_onLink
  | failOpen name fail => rfl
  | failWrite name fail => exact handles_onLink

/-- What the owner of a registry can do by hand. -/
inductive Operation where
  /-- A request is met. -/
  | request (request : Request)
  /-- The state of a link is recorded and nothing done about it. -/
  | setLink (ifIndex : IfIndex) (state : LinkState)
  | start (ifIndex : IfIndex)
  | stop (ifIndex : IfIndex)
  /-- A packet is handed over. -/
  | inbound (packet : Inbound)
  /-- A request to transmit is handed over. -/
  | transmit (ifIndex : IfIndex)
  /-- The first alarm of a port whose time has come goes off. -/
  | fire (ifIndex : IfIndex)
  /-- Others do something with a link. -/
  | links (use : LinkUse)
  /-- Time passes. -/
  | pass (ms : Nat)
deriving DecidableEq, Repr

/-- The first alarm of a port whose time has come. -/
def Expiry.dueOf? (q : Expiry) (now : Nat) (i : IfIndex) : Option Alarm :=
  q.alarms.find? fun a => a.ifIndex = i ∧ a.deadline ≤ now

/-- The time after an operation. -/
def Operation.clock (now : Nat) : Operation → Nat
  | .pass ms => now + ms
  | _ => now

/-- The reply to an operation, if it has one, and the registry after it. -/
def Registry.operate (r : Registry) (now : Nat) : Operation → Option Reply × Registry
  | .request request => let done := r.execute request; (some done.1, done.2)
  | .setLink i state => let done := r.setLink i state; (some (.done done.1), done.2)
  | .start i => let done := r.start i; (some (.done done.1), done.2)
  | .stop i => let done := r.stop i; (some (.done done.1), done.2)
  | .inbound packet => (none, r.handleInbound now packet)
  | .transmit i => (none, r.handleTransmit i)
  | .fire i => (none, (r.alarms.dueOf? now i).elim r (r.expire now))
  | .links use => (none, { r with backend := r.backend.use use })
  | .pass _ => (none, r)

/-- What can happen to a station at once. -/
inductive Incident where
  /-- A task makes its next step, if it is able to. -/
  | task (task : StationTask)
  | operation (operation : Operation)
  /-- A port is told that its alarm has gone off, whether or not one has. -/
  | expiry (ifIndex : IfIndex)
  /-- Every port is stopped and every alarm cancelled. -/
  | shutdown
  /-- The first packet is taken out of the mailbox, and handed over if so said. -/
  | packet (deliver : Bool)
  /-- The first request to transmit is taken out of the mailbox, and met if so said. -/
  | trigger (deliver : Bool)
  /-- The wheel of the alarms is turned. -/
  | turn
  /-- The tasks are told that the station is closing down. -/
  | exit
  /-- Nobody reads the mailboxes any more. -/
  | close
deriving DecidableEq, Repr

/-- Whether an incident is all in the day's work: tasks make their steps, requests are met,
alarms go off, what is taken out of a mailbox is handed over, links and the time go on.
Nobody else has a hand in the registry, and nothing is closing down. -/
def Incident.isRoutine : Incident → Bool
  | .task _ | .turn => true
  | .operation (.request _) | .operation (.fire _) | .operation (.links _)
  | .operation (.pass _) => true
  | .packet deliver | .trigger deliver => deliver
  | _ => false

namespace Station

variable {st : Station} {x : Incident} {incidents early late : List Incident}
  {P : Station → Prop}

/-- A station after an incident. -/
def after (st : Station) : Incident → Station
  | .task task => st.step task
  | .operation o =>
    { st with registry := (st.registry.operate st.now o).2, now := o.clock st.now }
  | .expiry i => st.onRegistry (·.handleExpiry i)
  | .shutdown => st.onRegistry Registry.shutdown
  | .packet deliver =>
    match st.inbound.take? with
    | none => st
    | some (packet, inbound) =>
      let st := { st with inbound }
      if deliver then st.onRegistry (·.handleInbound st.now packet) else st
  | .trigger deliver =>
    match st.registry.triggers.take? with
    | none => st
    | some (i, triggers) =>
      st.onRegistry fun r =>
        let r := { r with triggers }
        if deliver then r.handleTransmit i else r
  | .turn => st.onRegistry fun r => { r with alarms := r.alarms.turn st.now }
  | .exit => st.onRegistry Registry.announceExit
  | .close =>
    { st with
      inbound := st.inbound.close
      registry := { st.registry with triggers := st.registry.triggers.close } }

/-- The step of a task is that of the station. -/
theorem after_task (st : Station) (task : StationTask) :
    st.after (.task task) = st.step task := rfl

/-- A station after several incidents, the first of which comes first. -/
def run (st : Station) (incidents : List Incident) : Station := incidents.foldl after st

/-- A run may be cut in two. -/
theorem run_append (st : Station) (early late : List Incident) :
    st.run (early ++ late) = (st.run early).run late :=
  List.foldl_append

/-- The last incident of a run comes last. -/
theorem run_concat (st : Station) (incidents : List Incident) (x : Incident) :
    st.run (incidents ++ [x]) = (st.run incidents).after x :=
  run_append st incidents [x]

/-- **What every incident keeps, every run keeps.** -/
theorem run_invariant (hstep : ∀ st x, P st → P (st.after x)) (h : P st) :
    P (st.run incidents) :=
  Trace.invariant hstep h

/-- Something holds before a run, after it and in between. -/
def Always (P : Station → Prop) (st : Station) (incidents : List Incident) : Prop :=
  Trace.Always after P st incidents

/-! ### What comes out of a run -/

/-- The tasks of captures that an incident sets off. -/
def launched (st : Station) (x : Incident) : List CaptureTask :=
  (st.after x).registry.tasks.drop st.registry.tasks.length

/-- The packets that an incident puts in the mailbox. -/
def forwarded (st : Station) (x : Incident) : List Inbound :=
  (st.after x).inbound.items.drop st.inbound.items.length

/-- The tasks of captures that a run sets off, in the order in which they begin. -/
def launches (st : Station) (incidents : List Incident) : List CaptureTask :=
  Trace.outputs after launched st incidents

/-- The packets that a run puts in the mailbox, in their order. -/
def forwards (st : Station) (incidents : List Incident) : List Inbound :=
  Trace.outputs after forwarded st incidents

/-- The tasks that the last incident sets off come last. -/
theorem launches_concat (st : Station) (incidents : List Incident) (x : Incident) :
    st.launches (incidents ++ [x]) = st.launches incidents ++ (st.run incidents).launched x :=
  Trace.outputs_concat st incidents x

end Station

/-! ### What an incident does to the registry -/

namespace Registry

variable {r : Registry} {now : Nat}

/-- **Every operation** is an alteration, or others do something with a link. -/
theorem operate_cases (r : Registry) (now : Nat) (o : Operation) :
    (∃ log, r.Alters log (r.operate now o).2) ∨
      ∃ use, o = .links use ∧ (r.operate now o).2 = { r with backend := r.backend.use use } := by
  cases o with
  | request q => exact Or.inl (Alters.execute r q)
  | setLink i state => exact Or.inl ⟨[], .setLink⟩
  | start i => exact Or.inl (Alters.start r i)
  | stop i => exact Or.inl ⟨[], .stop⟩
  | inbound packet => exact Or.inl ⟨[], .handleInbound⟩
  | transmit i => exact Or.inl ⟨[], .handleTransmit⟩
  | fire i =>
    refine Or.inl ⟨[], ?_⟩
    unfold operate
    dsimp only
    cases r.alarms.dueOf? now i with
    | some alarm => exact .expire
    | none => exact .refl r
  | links use => exact Or.inr ⟨use, rfl, rfl⟩
  | pass ms => exact Or.inl ⟨[], .refl r⟩

end Registry

namespace Station

variable {st : Station} {x : Incident}

/-- **What an incident does to the registry.**  A task makes its step; or the registry is
altered; or others do something with a link; or the tasks are told of the exit signal. -/
theorem after_cases (st : Station) (x : Incident) :
    (∃ task, x = .task task ∧ st.after x = st.step task) ∨
      (∃ log, st.registry.Alters log (st.after x).registry) ∨
      (∃ use, x = .operation (.links use) ∧
        (st.after x).registry = { st.registry with backend := st.registry.backend.use use }) ∨
      x = .exit ∧ (st.after x).registry = st.registry.announceExit := by
  cases x with
  | task task => exact Or.inl ⟨task, rfl, rfl⟩
  | operation o =>
    rcases st.registry.operate_cases st.now o with haltered | ⟨use, rfl, huse⟩
    · exact Or.inr (Or.inl haltered)
    · exact Or.inr (Or.inr (Or.inl ⟨use, rfl, huse⟩))
  | expiry i => exact Or.inr (Or.inl ⟨[], .handleExpiry⟩)
  | shutdown => exact Or.inr (Or.inl ⟨[], .shutdown⟩)
  | packet deliver =>
    refine Or.inr (Or.inl ⟨[], ?_⟩)
    unfold after
    cases st.inbound.take? with
    | none => exact .refl _
    | some item =>
      cases deliver with
      | true => exact .handleInbound
      | false => exact .refl _
  | trigger deliver =>
    refine Or.inr (Or.inl ⟨[], ?_⟩)
    unfold after
    cases st.registry.triggers.take? with
    | none => exact .refl _
    | some item =>
      have htaken : st.registry.Alters [] { st.registry with triggers := item.2 } :=
        .keep (.of_sessions rfl rfl rfl rfl rfl rfl)
      cases deliver with
      | true => exact htaken.after .handleTransmit
      | false => exact htaken
  | turn => exact Or.inr (Or.inl ⟨[], .keep (.of_sessions rfl rfl rfl rfl rfl rfl)⟩)
  | exit => exact Or.inr (Or.inr (Or.inr ⟨rfl, rfl⟩))
  | close => exact Or.inr (Or.inl ⟨[], .keep (.of_sessions rfl rfl rfl rfl rfl rfl)⟩)

end Station
end Lldp
