/-
# The course of events

`Event` is everything that can happen to a registry while it is in use: requests
of clients, packets, requests to transmit, alarms that go off, the passing of
time, and single operations made by hand.  They may come in any order, and with
any contents; a request to transmit may be as old as it likes, and alarms go off
in any order among those that are due.

What others than the owner of a registry do to it is one event too,
`Event.surround`: the links, the tasks, the requests to transmit, the tickers
and the wheel become whatever the event says.  So whatever is proved of every
course of events holds however packets are injected, opens and writes made to
fail, and tasks scheduled in between.

`Moment.run` lets events happen one after another; an invariant is a property
that every event keeps (`Moment.run_invariant`).  `Moment.Throughout` says
something of every event of a course at the moment at which it happens, and so
what it is for an event to be the last of its kind.
-/

import Lldp.Proofs.Registry.Effects
import Lldp.Request

namespace Lldp

/-- What a registry shares with others than its owner. -/
structure Surroundings where
  backend : Loopback
  tasks : List CaptureTask
  triggers : Triggers
  wheel : Wheel
  /-- What becomes of the ticker of a port. -/
  ticker : IfIndex → Option Ticker → Option Ticker

/-- What can happen to a registry. -/
inductive Event where
  /-- A request of a client is met. -/
  | request (request : Request)
  /-- The state of a link is recorded and nothing done about it. -/
  | setLink (ifIndex : IfIndex) (state : LinkState)
  | start (ifIndex : IfIndex)
  | stop (ifIndex : IfIndex)
  /-- A packet is handed over. -/
  | inbound (packet : Inbound)
  /-- A request to transmit is handed over. -/
  | transmit (ifIndex : IfIndex)
  /-- The alarm of a key is taken from the queue and handled, if it is due. -/
  | expire (key : Nat)
  | surround (surroundings : Surroundings)
  /-- Time passes. -/
  | pass (ms : Nat)

/-- Whether a dispatcher lets an event happen: it records a link's state, starts
a port and stops it only as clients request. -/
def Event.isServed : Event → Bool
  | .setLink _ _ | .start _ | .stop _ => false
  | _ => true

/-- The alarm of a key, if its time has come. -/
def Expiry.dueUnder? (q : Expiry) (now key : Nat) : Option Alarm :=
  q.alarms.find? fun a => a.key = key ∧ a.deadline ≤ now

/-- A session whose ticker has moved on. -/
def Session.retick (x : Surroundings) (s : Session) : Session :=
  { s with transmitter :=
    { s.transmitter with ticker := x.ticker s.port.ifIndex s.transmitter.ticker } }

namespace Registry

/-- A registry in other surroundings. -/
def surround (r : Registry) (x : Surroundings) : Registry :=
  { r with
    backend := x.backend
    tasks := x.tasks
    triggers := x.triggers
    alarms := { r.alarms with wheel := x.wheel }
    sessions := r.sessions.map (Session.retick x) }

/-- A registry after an event. -/
def react (r : Registry) (now : Nat) : Event → Registry
  | .request request => (r.execute request).2
  | .setLink i state => (r.setLink i state).2
  | .start i => (r.start i).2
  | .stop i => (r.stop i).2
  | .inbound packet => r.handleInbound now packet
  | .transmit i => r.handleTransmit i
  | .expire key =>
    match r.alarms.dueUnder? now key with
    | some alarm => r.expire now alarm
    | none => r
  | .surround x => r.surround x
  | .pass _ => r

/-- Where tickers stay as they are, so do sessions. -/
theorem surround_of_tickers (r : Registry) (backend : Loopback) (tasks : List CaptureTask)
    (triggers : Triggers) (wheel : Wheel) :
    r.surround ⟨backend, tasks, triggers, wheel, fun _ t => t⟩ =
      { r with backend, tasks, triggers, alarms := { r.alarms with wheel } } := by
  have hsame : Session.retick ⟨backend, tasks, triggers, wheel, fun _ t => t⟩ = id := rfl
  rw [surround, hsame, List.map_id]

/-- Surroundings may change twice in one go. -/
theorem surround_surround (r : Registry) (x y : Surroundings) :
    (r.surround x).surround y =
      r.surround { y with ticker := fun i t => y.ticker i (x.ticker i t) } := by
  simp only [surround, List.map_map]
  rfl

/-- Others change nothing of a port but its ticker. -/
theorem session?_surround {r : Registry} {x : Surroundings} {i : IfIndex} :
    (r.surround x).session? i = (r.session? i).map (Session.retick x) :=
  @find?_map_session i (Session.retick x) (fun _ => rfl) r.sessions

/-- Others register no port and forget none. -/
theorem indexes_surround {r : Registry} {x : Surroundings} :
    (r.surround x).indexes = r.indexes := by
  simp only [indexes, surround, List.map_map]
  rfl

/-- The first alarm that is due may go off as an event. -/
theorem expireNext?_eq_react {r r' : Registry} {now : Nat} {i : IfIndex}
    (h : r.expireNext? now = some (i, r')) : ∃ key, r' = r.react now (.expire key) := by
  obtain ⟨a, ha, heq⟩ := Option.map_eq_some_iff.1 h
  obtain ⟨hdue, before, rest, hsplit, hbefore⟩ := List.find?_eq_some_iff_append.1 ha
  have hfirst : r.alarms.dueUnder? now a.key = some a := by
    refine List.find?_eq_some_iff_append.2 ⟨by simpa using hdue, before, rest, hsplit, ?_⟩
    intro b hb
    have := hbefore b hb
    simp_all
  refine ⟨a.key, ?_⟩
  simp only [react, hfirst]
  exact (Prod.mk.inj heq).2.symm

end Registry

/-- A registry at a time, in milliseconds. -/
structure Moment where
  registry : Registry
  now : Nat := 0

namespace Moment

/-- The beginning: no port is registered. -/
def ofSettings (settings : Settings) : Moment :=
  { registry := .ofSettings settings }

/-- The moment after an event. -/
def after (m : Moment) (e : Event) : Moment :=
  { registry := m.registry.react m.now e
    now := match e with
      | .pass ms => m.now + ms
      | _ => m.now }

/-- The moment after several events, the first of which comes first. -/
def run (m : Moment) (events : List Event) : Moment := events.foldl after m

/-- Where nothing happens, the moment stays. -/
@[simp] theorem run_nil (m : Moment) : m.run [] = m := rfl

/-- The first event happens first. -/
@[simp] theorem run_cons (m : Moment) (e : Event) (events : List Event) :
    m.run (e :: events) = (m.after e).run events := rfl

/-- A course of events may be cut in two. -/
theorem run_append (m : Moment) (first rest : List Event) :
    m.run (first ++ rest) = (m.run first).run rest :=
  List.foldl_append

/-- Time does not go back. -/
theorem now_le_after (m : Moment) (e : Event) : m.now ≤ (m.after e).now := by
  cases e <;> simp [after]

/-- **What every event keeps, every run keeps.** -/
theorem run_invariant {P : Registry → Prop} (events : List Event)
    (step : ∀ e ∈ events, ∀ r now, P r → P (r.react now e)) (m : Moment) (h : P m.registry) :
    P (m.run events).registry := by
  induction events generalizing m with
  | nil => exact h
  | cons e events ih =>
    rw [run_cons]
    exact ih (fun e' he' => step e' (List.mem_cons_of_mem _ he')) (m.after e)
      (step e List.mem_cons_self m.registry m.now h)

/-- Something holds of every event at the moment at which it happens. -/
def Throughout (m : Moment) (P : Moment → Event → Prop) (events : List Event) : Prop :=
  ∀ before e rest, events = before ++ e :: rest → P (m.run before) e

namespace Throughout

variable {m : Moment} {P : Moment → Event → Prop} {e : Event} {events : List Event}

/-- Of no event, anything holds. -/
theorem nil (m : Moment) : m.Throughout P [] := by
  intro before e rest h
  simp at h

/-- It holds of the first event. -/
theorem head (h : m.Throughout P (e :: events)) : P m e := h [] e events rfl

/-- It holds of all events that follow. -/
theorem tail (h : m.Throughout P (e :: events)) : (m.after e).Throughout P events := by
  intro before e' rest heq
  exact h (e :: before) e' rest (congrArg (e :: ·) heq)

/-- One more event of the kind may follow. -/
theorem concat (h : m.Throughout P events) (he : P (m.run events) e) :
    m.Throughout P (events ++ [e]) := by
  intro before e' rest heq
  rcases List.eq_nil_or_concat rest with rfl | ⟨rest, e'', rfl⟩
  · obtain ⟨rfl, h'⟩ := List.append_inj' heq rfl
    obtain rfl := List.singleton_inj.1 h'
    exact he
  · have hshort : events = before ++ e' :: rest := by
      rw [List.concat_eq_append, ← List.cons_append, ← List.append_assoc] at heq
      exact (List.append_inj' heq rfl).1
    exact h before e' rest hshort

end Throughout

variable {m m' m'' : Moment}

/-- A dispatcher may let events happen that lead from one moment to another. -/
def Reaches (m m' : Moment) : Prop :=
  ∃ events : List Event, (∀ e ∈ events, e.isServed = true) ∧ m' = m.run events

namespace Reaches

/-- A moment is reached from itself. -/
theorem refl (m : Moment) : m.Reaches m := ⟨[], by simp, rfl⟩

/-- What is reached from a moment that is reached is reached. -/
theorem trans (h : m.Reaches m') (h' : m'.Reaches m'') : m.Reaches m'' := by
  obtain ⟨first, hfirst, rfl⟩ := h
  obtain ⟨rest, hrest, rfl⟩ := h'
  refine ⟨first ++ rest, fun e he => ?_, (run_append m first rest).symm⟩
  rcases List.mem_append.1 he with he | he
  · exact hfirst e he
  · exact hrest e he

/-- One event that a dispatcher serves leads to the next moment. -/
theorem event (m : Moment) {e : Event} (he : e.isServed = true) : m.Reaches (m.after e) :=
  ⟨[e], by simpa using he, rfl⟩

/-- Surroundings change. -/
theorem surround (m : Moment) (x : Surroundings) :
    m.Reaches ⟨m.registry.surround x, m.now⟩ :=
  event m (e := .surround x) rfl

/-- Time passes. -/
theorem pass (m : Moment) {now : Nat} (h : m.now ≤ now) : m.Reaches ⟨m.registry, now⟩ := by
  have hpass := event m (e := .pass (now - m.now)) rfl
  rw [Moment.after, Nat.add_sub_cancel' h] at hpass
  exact hpass

end Reaches

end Moment
end Lldp
