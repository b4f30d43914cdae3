/-
# One port by itself

Ports share a queue of alarms, a counter of generations, a list of captured ports and the
links, and some operations go through all of them in turn.  `PortView` is what is left of
a registry when it is looked at from one port: its session without the numbers that it was
given out of what is shared, the deadline of its alarm, the settings, and which interfaces
fail by name.  That is enough to tell what becomes of the port: `PortView.operate` says
how an operation changes it, with no other port in sight.

That the two go together rests on what holds the shared parts of a registry together
(`Registry.Sound`): a key is one port's alone, a captured port has an open handle, and
names lead to links.  Every operation is an event, and keeps all of this.
-/

import Lldp.Proofs.Registry.Alarms
import Lldp.Proofs.Wiring

namespace Lldp

/-- The port that an operation names. -/
def Operation.port? : Operation → Option IfIndex
  | .request (.add port) => some port.ifIndex
  | .request (.remove i) | .request (.reportLink i _) | .request (.counters i) => some i
  | .request (.apply (.portEnable i _)) => some i
  | .request (.neighbors _ _) => none
  | .request (.apply (.globalEnable _)) | .request (.apply (.timing _ _)) => none
  | .setLink i _ | .start i | .stop i | .transmit i | .fire i => some i
  | .inbound packet => some packet.ifIndex
  | .links _ | .pass _ => none

/-- Whether an operation is about a port or about none in particular. -/
def Operation.concerns (i : IfIndex) (o : Operation) : Bool := o.port?.all (· = i)

/-- Setting an alarm tells nothing of the neighbour. -/
theorem Receiver.neighbor_refresh (v : Receiver) (q : Expiry) (i : IfIndex) (deadline : Nat) :
    (v.refresh q i deadline).1.neighbor = v.neighbor := by
  unfold Receiver.refresh
  split <;> rfl

namespace Session

/-- A session without the numbers of its capture and its alarm, which say how much others
have been captured and have heard. -/
def unnumbered (s : Session) : Session :=
  { s with
    capture := s.capture.map fun _ => ⟨0, 0⟩
    receiver := { s.receiver with alarm := none } }

/-- Timing is adopted whatever numbers a session was given. -/
theorem unnumbered_retime (s : Session) {timing : Timing} :
    (s.retime timing).unnumbered = s.unnumbered.retime timing := by
  obtain ⟨port, enabled, link, capture, receiver, transmitter, counters⟩ := s
  cases capture <;> rfl

/-- A port that transmits, where writes fail or do not. -/
def transmit (s : Session) (fails : Bool) : Session :=
  let made := s.transmitter.current s.port.mac s.port.name
  if made.1.isEmpty then s.countSendFailure made.2
  else if fails then s.countSendFailure made.2.invalidate
  else s.countSent made.2

/-- A port whose neighbour has not been heard of for too long. -/
def forget (s : Session) : Session :=
  { s with
    receiver := {}
    counters :=
      if s.receiver.neighbor.isSome then { s.counters with ageouts := s.counters.ageouts + 1 }
      else s.counters }

end Session

/-- All that decides what becomes of a port. -/
structure PortView where
  /-- The session of the port without its numbers, if it is registered. -/
  session : Option Session
  /-- When the alarm of the port goes off. -/
  deadline : Option Nat
  settings : Settings
  /-- Which interfaces cannot be opened. -/
  failsOpen : String → Bool
  /-- Which interfaces cannot be written on. -/
  failsWrite : String → Bool

namespace PortView

variable (v : PortView)

/-- Changes the session of the port. -/
def modify (change : Session → Session) : PortView := { v with session := v.session.map change }

/-- Whether the port may be captured and is not. -/
def isDue (s : Session) : Bool :=
  s.link = .up && v.settings.enabled && s.enabled && !s.isCapturing

def start : PortView :=
  v.modify fun s => if v.isDue s && !v.failsOpen s.port.name then s.start ⟨0, 0⟩ else s

def stop : PortView := v.modify Session.stop

def follow (on : Bool) : PortView := if on then v.start else v.stop

def setLink (state : LinkState) : PortView := v.modify fun s => { s with link := state }

def setPortEnabled (on : Bool) : PortView := v.modify fun s => { s with enabled := on }

def setEnabled (on : Bool) : PortView :=
  { v with settings := { v.settings with enabled := on } }

def retime (timing : Timing) : PortView :=
  { v with
    settings := { v.settings with timing }
    session := v.session.map (·.retime timing) }

/-- The port is registered, if it is not. -/
def add (port : Port) : PortView :=
  { v with session := some (v.session.getD (.ofPort port v.settings.timing)) }

def remove : PortView := { v with session := none, deadline := none }

/-- A packet is handed over. -/
def receive (now : Nat) (bytes : Octets) : PortView :=
  if v.session.any Session.isCapturing then
    match Neighbor.ofPacket bytes with
    | .ok n =>
      { v.modify fun s =>
          { s with
            receiver := { neighbor := some n }
            counters := { s.counters with received := s.counters.received + 1 } } with
        deadline := some (now + n.frame.ttl.toMillis) }
    | .error _ =>
      v.modify fun s =>
        { s with counters := { s.counters with discarded := s.counters.discarded + 1 } }
  else v

def transmit : PortView :=
  v.modify fun s => if s.isCapturing then s.transmit (v.failsWrite s.port.name) else s

/-- The alarm goes off, if its time has come. -/
def fire (now : Nat) : PortView :=
  if v.deadline.any (· ≤ now) then { v.modify Session.forget with deadline := none } else v

/-- Others do something with a link. -/
def use (use : LinkUse) : PortView :=
  { v with failsOpen := use.onOpens v.failsOpen, failsWrite := use.onWrites v.failsWrite }

/-- The port after an operation that concerns it. -/
def operate (now : Nat) : Operation → PortView
  | .request (.add port) => v.add port
  | .request (.remove _) => v.remove
  | .request (.reportLink _ state) => (v.setLink state).follow (state = .up)
  | .request (.neighbors _ _) | .request (.counters _) => v
  | .request (.apply (.globalEnable on)) => (v.setEnabled on).follow on
  | .request (.apply (.portEnable _ on)) => (v.setPortEnabled on).follow on
  | .request (.apply (.timing interval multiplier)) =>
    match Timing.ofNumbers interval multiplier with
    | .ok timing => v.retime timing
    | .error _ => v
  | .setLink _ state => v.setLink state
  | .start _ => v.start
  | .stop _ => v.stop
  | .inbound packet => v.receive now packet.bytes
  | .transmit _ => v.transmit
  | .fire _ => v.fire now
  | .links use => v.use use
  | .pass _ => v

/-- What comes of an operation that needs the port to be registered. -/
def known (i : IfIndex) : Except Error Unit :=
  if v.session.isSome then .ok () else .error (.portNotFound i)

/-- What comes of starting the port. -/
def opening (i : IfIndex) : Except Error Unit :=
  match v.session with
  | none => .error (.portNotFound i)
  | some s =>
    if v.isDue s && v.failsOpen s.port.name then .error (.openFailed s.port.name) else .ok ()

/-- The reply to an operation that names the port, if it has one. -/
def reply : Operation → Option Reply
  | .request (.add port) =>
    some (.done (if v.session.isSome then .error (.portExists port.name port.ifIndex) else .ok ()))
  | .request (.remove i) | .request (.apply (.portEnable i _)) => some (.done (v.known i))
  | .request (.reportLink i state) =>
    some (.done (if state = .up then (v.setLink state).opening i else v.known i))
  | .request (.counters i) =>
    some (.counted (v.session.elim (.error (.portNotFound i)) (.ok ·.counters)))
  | .setLink i _ | .stop i => some (.done (v.known i))
  | .start i => some (.done (v.opening i))
  | _ => none

/-- Of a port that is not registered, nothing is changed. -/
theorem modify_of_none {v : PortView} {change : Session → Session} (h : v.session = none) :
    v.modify change = v := by
  rw [modify, h, Option.map_none, ← h]

/-- Nor is it started or stopped. -/
theorem follow_of_none {v : PortView} {on : Bool} (h : v.session = none) : v.follow on = v := by
  unfold follow start stop
  split_ifs
  · exact modify_of_none h
  · exact modify_of_none h

end PortView

/-! ### Alarms of a port -/

/-- When the alarm of a port goes off. -/
def Expiry.deadline? (q : Expiry) (i : IfIndex) : Option Nat :=
  (q.alarms.find? (·.ifIndex = i)).map Alarm.deadline

namespace Registry

variable {r r' : Registry} {i j : IfIndex} {s : Session} {now : Nat} {o : Operation} {on : Bool}
  {a b : Alarm}

namespace AlarmsAgree

/-- **A port has one alarm.** -/
theorem eq_of_ifIndex (h : r.AlarmsAgree) (ha : a ∈ r.alarms.alarms) (hb : b ∈ r.alarms.alarms)
    (hi : a.ifIndex = b.ifIndex) : a = b := by
  obtain ⟨v, hv, hk⟩ := h.owned a ha
  exact h.eq_of_key ha hb ((h.key_iff hv hk hb).2 hi.symm).symm

/-- A port has one alarm at the most, so its deadline is that of any alarm set for it. -/
theorem deadline?_eq_some_iff (h : r.AlarmsAgree) {deadline : Nat} :
    r.alarms.deadline? i = some deadline ↔
      ∃ a ∈ r.alarms.alarms, a.ifIndex = i ∧ a.deadline = deadline := by
  rw [Expiry.deadline?, Option.map_eq_some_iff]
  constructor
  · rintro ⟨a, ha, rfl⟩
    exact ⟨a, List.mem_of_find?_eq_some ha, by simpa using List.find?_some ha, rfl⟩
  · rintro ⟨a, ha, hi, rfl⟩
    cases hfind : r.alarms.alarms.find? (·.ifIndex = i) with
    | some b =>
      have hb : b.ifIndex = i := by simpa using List.find?_some hfind
      refine ⟨b, rfl, ?_⟩
      rw [h.eq_of_ifIndex (List.mem_of_find?_eq_some hfind) ha (hb.trans hi.symm)]
    | none =>
      have hnot := List.find?_eq_none.1 hfind a ha
      simp [hi] at hnot

/-- Without an alarm there is no deadline. -/
theorem deadline?_eq_none (h : ∀ a ∈ r.alarms.alarms, a.ifIndex ≠ i) :
    r.alarms.deadline? i = none := by
  rw [Expiry.deadline?, Option.map_eq_none_iff, List.find?_eq_none]
  intro a ha
  simpa using h a ha

/-- The same alarms of a port go off at the same time. -/
theorem deadline?_congr (h : r.AlarmsAgree) (h' : r'.AlarmsAgree)
    (hsame : ∀ a, a.ifIndex = i → (a ∈ r'.alarms.alarms ↔ a ∈ r.alarms.alarms)) :
    r'.alarms.deadline? i = r.alarms.deadline? i := by
  refine Option.ext fun deadline => ?_
  rw [h.deadline?_eq_some_iff, h'.deadline?_eq_some_iff]
  constructor
  · rintro ⟨a, ha, hi, hd⟩
    exact ⟨a, (hsame a hi).1 ha, hi, hd⟩
  · rintro ⟨a, ha, hi, hd⟩
    exact ⟨a, (hsame a hi).2 ha, hi, hd⟩

/-- An alarm of a port that is due is due under its key. -/
theorem dueUnder?_of_dueOf? (h : r.AlarmsAgree) (ha : r.alarms.dueOf? now i = some a) :
    r.alarms.dueUnder? now a.key = some a := by
  have hmem := List.mem_of_find?_eq_some ha
  have hdue : a.ifIndex = i ∧ a.deadline ≤ now := by simpa using List.find?_some ha
  cases hfind : r.alarms.dueUnder? now a.key with
  | some b =>
    obtain ⟨hb, hkey, -⟩ := Expiry.of_dueUnder? hfind
    rw [h.eq_of_key hb hmem hkey]
  | none =>
    have hnot := List.find?_eq_none.1 hfind a hmem
    simp [hdue.2] at hnot

/-- **Every operation is an event.** -/
theorem operate_eq_react (h : r.AlarmsAgree) (now : Nat) (o : Operation) :
    ∃ e, (r.operate now o).2 = r.react now e ∧
      ∀ i, o.port?.all (· ≠ i) = true → ¬r.Touches now i e := by
  cases o with
  | request q =>
    refine ⟨.request q, rfl, fun i hi ht => ?_⟩
    cases ht with
    | add hport hs => simp [Operation.port?, hport] at hi
    | remove hs => simp [Operation.port?] at hi
  | setLink j state => exact ⟨.setLink j state, rfl, fun i _ ht => by cases ht⟩
  | start j => exact ⟨.start j, rfl, fun i _ ht => by cases ht⟩
  | stop j => exact ⟨.stop j, rfl, fun i _ ht => by cases ht⟩
  | inbound packet =>
    refine ⟨.inbound packet, rfl, fun i hi ht => ?_⟩
    cases ht with
    | accept hport ha => simp [Operation.port?, hport] at hi
  | transmit j => exact ⟨.transmit j, rfl, fun i _ ht => by cases ht⟩
  | fire j =>
    cases ha : r.alarms.dueOf? now j with
    | none =>
      refine ⟨.pass 0, ?_, fun i _ ht => by cases ht⟩
      rw [operate, ha]
      rfl
    | some a =>
      have hdue := h.dueUnder?_of_dueOf? ha
      have hj : a.ifIndex = j ∧ a.deadline ≤ now := by simpa using List.find?_some ha
      refine ⟨.expire a.key, ?_, fun i hi ht => ?_⟩
      · simp only [operate, ha, Option.elim_some, Registry.react, hdue]
      · cases ht with
        | expire hport hb =>
          obtain rfl := Option.some.inj (hdue.symm.trans hb)
          simp [Operation.port?, ← hport, hj.1] at hi
  | links use =>
    refine ⟨.surround ⟨r.backend.use use, r.tasks, r.triggers, r.alarms.wheel, fun _ t => t⟩, ?_,
      fun i _ ht => by cases ht⟩
    exact (surround_of_tickers r _ _ _ _).symm
  | pass ms => exact ⟨.pass ms, rfl, fun i _ ht => by cases ht⟩

end AlarmsAgree

/-! ### What holds ports apart -/

/-- What holds the shared parts of a registry together. -/
structure Sound (r : Registry) : Prop where
  alarms : r.AlarmsAgree
  ordered : ∃ starts, r.InOrder starts
  wired : r.Wired

namespace Sound

/-- A registry that has just been made is sound. -/
theorem ofSettings (settings : Settings) : (Registry.ofSettings settings).Sound :=
  ⟨.ofSettings settings, ⟨[], .ofSettings settings⟩, .ofSettings settings⟩

/-- **Every operation leaves a registry sound.** -/
theorem operate (h : r.Sound) (now : Nat) (o : Operation) : (r.operate now o).2.Sound := by
  have halarms : (r.operate now o).2.AlarmsAgree := by
    obtain ⟨e, he, -⟩ := h.alarms.operate_eq_react now o
    rw [he]
    exact h.alarms.react e
  obtain ⟨starts, horder⟩ := h.ordered
  rcases r.operate_cases now o with ⟨log, a⟩ | ⟨use, -, heq⟩
  · exact ⟨halarms, ⟨_, horder.alters a⟩, h.wired.alters a⟩
  · refine ⟨halarms, ⟨starts, ?_⟩, ?_⟩
    · rw [heq]
      exact horder.of_sessions rfl rfl rfl Loopback.handles_use
    · rw [heq]
      exact h.wired.of_captures (h.wired.backend.use use)
        (fun k hd hhd => ⟨hd, by rw [← hhd]; exact congrArg (·[k]?) Loopback.handles_use, rfl⟩)
        fun j s c hj hc => ⟨s, hj, rfl, hc⟩

end Sound

/-! ### The view of a port -/

/-- A registry as one port has it. -/
def view (r : Registry) (i : IfIndex) : PortView :=
  { session := (r.session? i).map Session.unnumbered
    deadline := r.alarms.deadline? i
    settings := r.settings
    failsOpen := r.backend.failsOpen
    failsWrite := r.backend.failsWrite }

end Registry
end Lldp
