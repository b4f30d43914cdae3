/-
# Operations that leave neighbours alone

Most of what happens to a registry concerns captures, links, timing and what is
transmitted, and leaves every receiver and every alarm as it is.  `KeepsReceivers`
says so once for each such operation, and for those composed of others
(`KeepsReceivers.trans`, `keepsReceivers_apply`), so that what is proved of
receivers and alarms need only look at the operations that are left: a port is
added, a port is removed, a packet is accepted, an alarm goes off.  Of these only
a packet makes a port remember a neighbour that it did not (`LearnsNothing`,
`neighbor?_handleInbound`).
-/

import Lldp.Proofs.Registry.Course

namespace Lldp
namespace Registry

variable {r r' r'' : Registry} {i j : IfIndex} {s : Session} {now : Nat}

/-- The receiver of a port. -/
def receiver? (r : Registry) (i : IfIndex) : Option Receiver :=
  (r.session? i).map (·.receiver)

/-- A registered port has a receiver, that of its session. -/
theorem receiver?_of_session? (h : r.session? i = some s) : r.receiver? i = some s.receiver := by
  rw [receiver?, h, Option.map_some]

/-- Where one port's receiver is replaced, every other is as it was. -/
theorem receiver?_cases {x : Option Receiver} {v : Receiver}
    (hr : ∀ j, r'.receiver? j = if j = i then x else r.receiver? j)
    (hv : r'.receiver? j = some v) :
    (j = i ∧ x = some v) ∨ (j ≠ i ∧ r.receiver? j = some v) := by
  rw [hr] at hv
  split_ifs at hv with hj
  · exact Or.inl ⟨hj, hv⟩
  · exact Or.inr ⟨hj, hv⟩

/-- The ports, their receivers and the alarms are as they were. -/
structure KeepsReceivers (r r' : Registry) : Prop where
  receiver : ∀ i, r'.receiver? i = r.receiver? i
  indexes : r'.indexes = r.indexes
  alarms : r'.alarms.alarms = r.alarms.alarms
  fresh : r'.alarms.fresh = r.alarms.fresh
  misused : r'.alarms.misused = r.alarms.misused

namespace KeepsReceivers

/-- Nothing was touched where nothing happened. -/
theorem refl (r : Registry) : KeepsReceivers r r :=
  ⟨fun _ => rfl, rfl, rfl, rfl, rfl⟩

/-- **What two operations leave alone**, one after the other does. -/
theorem trans (h : KeepsReceivers r r') (h' : KeepsReceivers r' r'') : KeepsReceivers r r'' :=
  ⟨fun i => (h'.receiver i).trans (h.receiver i), h'.indexes.trans h.indexes,
    h'.alarms.trans h.alarms, h'.fresh.trans h.fresh, h'.misused.trans h.misused⟩

/-- Alarms that are the very same need no looking into. -/
theorem of_alarms (h : r'.alarms = r.alarms) (hi : r'.indexes = r.indexes)
    (hr : ∀ i, r'.receiver? i = r.receiver? i) : KeepsReceivers r r' :=
  ⟨hr, hi, by rw [h], by rw [h], by rw [h]⟩

end KeepsReceivers

/-- **A change of a session that leaves its receiver** leaves all receivers and alarms, as it
sets none. -/
theorem keepsReceivers_modify {change : Session → Session} (h : ∀ s, (change s).port = s.port)
    (hr : ∀ s, (change s).receiver = s.receiver) : KeepsReceivers r (r.modify i change) := by
  refine .of_alarms rfl (indexes_modify h) fun j => ?_
  rw [receiver?, receiver?, session?_modify h]
  split_ifs
  · cases r.session? j with
    | none => rfl
    | some s => exact congrArg some (hr s)
  · rfl

/-- A port that is started has yet to hear its neighbour. -/
theorem keepsReceivers_start : KeepsReceivers r (r.start i).2 := by
  refine .of_alarms start_alarms start_indexes fun j => ?_
  rw [receiver?, receiver?, session?_start]
  split_ifs
  · rw [Option.map_map]
    rfl
  · rfl

/-- A port that is stopped keeps its neighbour and its alarm. -/
theorem keepsReceivers_stop : KeepsReceivers r (r.stop i).2 := by
  refine .of_alarms stop_alarms stop_indexes fun j => ?_
  rw [receiver?, receiver?, session?_stop]
  split_ifs
  · rw [Option.map_map]
    rfl
  · rfl

/-- What is recorded of a link says nothing of a neighbour. -/
theorem keepsReceivers_setLink {state : LinkState} :
    KeepsReceivers r (r.setLink i state).2 := by
  rw [setLink_snd]
  exact keepsReceivers_modify (fun _ => rfl) fun _ => rfl

/-- To follow is to start or to stop. -/
theorem keepsReceivers_follow {on : Bool} : KeepsReceivers r (r.follow i on) := by
  unfold follow
  split_ifs
  · exact keepsReceivers_start
  · exact keepsReceivers_stop

/-- However many ports follow, none learns or forgets anything by it. -/
theorem keepsReceivers_followAll {on : Bool} (is : List IfIndex) :
    KeepsReceivers r (r.followAll is on) := by
  induction is generalizing r with
  | nil => exact .refl r
  | cons i is ih => exact keepsReceivers_follow.trans ih

/-- **A report on a link** starts or stops its port, and no more. -/
theorem keepsReceivers_reportLink {state : LinkState} :
    KeepsReceivers r (r.reportLink i state).2 := by
  rw [reportLink_snd]
  exact keepsReceivers_setLink.trans keepsReceivers_follow

/-- Timing is about what is sent, and about how long others are to remember it. -/
theorem keepsReceivers_retime {timing : Timing} : KeepsReceivers r (r.retime timing) := by
  refine .of_alarms rfl indexes_retime fun j => ?_
  rw [receiver?, receiver?, session?_retime, Option.map_map]
  rfl

/-- **No change of settings touches a neighbour or an alarm.** -/
theorem keepsReceivers_apply {change : Change} : KeepsReceivers r (r.apply change).2 := by
  cases change with
  | globalEnable on =>
    have h : KeepsReceivers r (r.setEnabled on) := .of_alarms rfl rfl fun _ => rfl
    exact h.trans (keepsReceivers_followAll _)
  | portEnable i on =>
    rw [apply_portEnable]
    have h : KeepsReceivers r (r.setPortEnabled i on) :=
      keepsReceivers_modify (fun _ => rfl) fun _ => rfl
    exact h.trans keepsReceivers_follow
  | timing interval multiplier =>
    rcases apply_timing_cases r interval multiplier with ⟨-, h⟩ | ⟨timing, -, -, h⟩
    · rw [h]
      exact .refl r
    · rw [h]
      exact keepsReceivers_retime

/-- Whatever becomes of a frame that is sent, only the transmitter and the counters show it. -/
theorem keepsReceivers_transmit : KeepsReceivers r (r.handleTransmit i) := by
  rcases handleTransmit_cases r i with ⟨-, h⟩ | ⟨s, c, -, -, ⟨-, h⟩ | ⟨-, -, h⟩ | ⟨-, lo', -, h⟩⟩
  · rw [h]
    exact .refl r
  · rw [h]
    exact keepsReceivers_modify (fun _ => rfl) fun _ => rfl
  · rw [h]
    exact keepsReceivers_modify (fun _ => rfl) fun _ => rfl
  · have hwrite : KeepsReceivers r { r with backend := lo' } := .of_alarms rfl rfl fun _ => rfl
    rw [h]
    refine hwrite.trans ?_
    exact keepsReceivers_modify (fun _ => rfl) fun _ => rfl

/-- **A packet that is not accepted touches no neighbour and no alarm.** -/
theorem keepsReceivers_refuse {packet : Inbound} (h : r.accept? packet = none) :
    KeepsReceivers r (r.handleInbound now packet) := by
  obtain ⟨count, hs⟩ := handleInbound_of_refuse h
  refine .of_alarms (handleInbound_alarms_of_refuse h) indexes_handleInbound fun j => ?_
  rw [receiver?, receiver?, hs]
  split_ifs
  · rw [Option.map_map]
    rfl
  · rfl

/-- The receivers after an accepted packet. -/
theorem receiver?_accept {packet : Inbound} {n : Neighbor}
    (hs : r.session? packet.ifIndex = some s) (h : r.accept? packet = some n) :
    (r.handleInbound now packet).receiver? j =
      if j = packet.ifIndex then
        some ({ s.receiver with neighbor := some n }.refresh r.alarms packet.ifIndex
          (now + n.frame.ttl.toMillis)).1
      else r.receiver? j := by
  rw [handleInbound_of_accept hs h, receiver?]
  simp only [session?_modify, implies_true]
  split_ifs with hj
  · subst hj
    change ((r.session? packet.ifIndex).map _).map _ = _
    rw [hs]
    rfl
  · rfl

/-- The alarms after an accepted packet: that of the port is set or moved. -/
theorem alarms_accept {packet : Inbound} {n : Neighbor}
    (hs : r.session? packet.ifIndex = some s) (h : r.accept? packet = some n) :
    (r.handleInbound now packet).alarms =
      ({ s.receiver with neighbor := some n }.refresh r.alarms packet.ifIndex
        (now + n.frame.ttl.toMillis)).2 := by
  rw [handleInbound_of_accept hs h]
  rfl

/-- **What surrounds a registry** may change as it likes: tasks, tickers, links and the wheel are
no part of what ports remember. -/
theorem keepsReceivers_surround {x : Surroundings} : KeepsReceivers r (r.surround x) := by
  refine ⟨fun j => ?_, indexes_surround, rfl, rfl, rfl⟩
  rw [receiver?, receiver?, session?_surround, Option.map_map]
  rfl

/-- What an event may do to the receiver and the alarm of a port: register the
port, forget it, tell it of a neighbour, or have its alarm go off. -/
inductive Touches (r : Registry) (now : Nat) (i : IfIndex) : Event → Prop where
  | add {port : Port} (hi : port.ifIndex = i) (h : r.session? i = none) :
      Touches r now i (.request (.add port))
  | remove {s : Session} (h : r.session? i = some s) : Touches r now i (.request (.remove i))
  | accept {packet : Inbound} {n : Neighbor} (hi : packet.ifIndex = i)
      (h : r.accept? packet = some n) : Touches r now i (.inbound packet)
  | expire {key : Nat} {a : Alarm} (hi : a.ifIndex = i)
      (h : r.alarms.dueUnder? now key = some a) : Touches r now i (.expire key)

/-- **An event that touches no port leaves receivers and alarms alone.** -/
theorem keepsReceivers_react {e : Event} (h : ∀ i, ¬r.Touches now i e) :
    KeepsReceivers r (r.react now e) := by
  cases e with
  | request q =>
    cases q with
    | add port =>
      cases hs : r.session? port.ifIndex with
      | none => exact absurd (.add rfl hs) (h _)
      | some s =>
        change KeepsReceivers r (r.add port).2
        rw [add_of_session? hs]
        exact .refl r
    | remove i =>
      cases hs : r.session? i with
      | none =>
        change KeepsReceivers r (r.remove i).2
        rw [remove_of_none hs]
        exact .refl r
      | some s => exact absurd (.remove hs) (h i)
    | reportLink i state => exact keepsReceivers_reportLink
    | neighbors start count => exact .refl r
    | counters i => exact .refl r
    | apply change => exact keepsReceivers_apply
  | setLink i state => exact keepsReceivers_setLink
  | start i => exact keepsReceivers_start
  | stop i => exact keepsReceivers_stop
  | inbound packet =>
    cases ha : r.accept? packet with
    | none => exact keepsReceivers_refuse ha
    | some n => exact absurd (.accept rfl ha) (h _)
  | transmit i => exact keepsReceivers_transmit
  | expire key =>
    cases ha : r.alarms.dueUnder? now key with
    | none =>
      simp only [react, ha]
      exact .refl r
    | some a => exact absurd (.expire rfl ha) (h _)
  | surround x => exact keepsReceivers_surround
  | pass ms => exact .refl r

/-! ### What ports learn -/

/-- The neighbour that a port remembers. -/
def neighbor? (r : Registry) (i : IfIndex) : Option Neighbor :=
  (r.receiver? i).bind (·.neighbor)

/-- No port remembers a neighbour that it did not remember before. -/
def LearnsNothing (r r' : Registry) : Prop :=
  ∀ i n, r'.neighbor? i = some n → r.neighbor? i = some n

namespace LearnsNothing

/-- Nothing was learned where nothing happened. -/
theorem refl (r : Registry) : LearnsNothing r r := fun _ _ h => h

/-- Nothing is learned by two operations if it is not by one of them. -/
theorem trans (h : LearnsNothing r r') (h' : LearnsNothing r' r'') : LearnsNothing r r'' :=
  fun i n hn => h i n (h' i n hn)

/-- A receiver that is left alone remembers what it did. -/
theorem of_keepsReceivers (h : KeepsReceivers r r') : LearnsNothing r r' := by
  intro i n hn
  rwa [neighbor?, h.receiver] at hn

/-- The same sessions know the same. -/
theorem of_sessions (h : r'.sessions = r.sessions) : LearnsNothing r r' := by
  intro i n hn
  rwa [neighbor?, receiver?, session?, h] at hn

/-- Where one port's receiver is replaced, this is the one to look at. -/
theorem of_ite {x : Option Receiver}
    (hr : ∀ j, r'.receiver? j = if j = i then x else r.receiver? j)
    (hx : ∀ v n, x = some v → v.neighbor = some n → r.neighbor? i = some n) :
    LearnsNothing r r' := by
  intro j n hn
  obtain ⟨v, hv, hvn⟩ := Option.bind_eq_some_iff.1 hn
  rcases receiver?_cases hr hv with ⟨rfl, hx'⟩ | ⟨-, hold⟩
  · exact hx v n hx' hvn
  · exact Option.bind_eq_some_iff.2 ⟨v, hold, hvn⟩

/-- **A new port** remembers nobody, and one that was there is not registered anew. -/
theorem add {port : Port} : LearnsNothing r (r.add port).2 := by
  cases hs : r.session? port.ifIndex with
  | some s =>
    rw [add_of_session? hs]
    exact .refl r
  | none =>
    have hr : ∀ j, (r.add port).2.receiver? j =
        if j = port.ifIndex then some {} else r.receiver? j := by
      intro j
      rw [receiver?, session?_add hs]
      split_ifs <;> rfl
    refine .of_ite hr fun v n hv hn => ?_
    obtain rfl := Option.some.inj hv
    cases hn

/-- A port that is forgotten takes its neighbour along. -/
theorem remove : LearnsNothing r (r.remove i).2 := by
  have hr : ∀ j, (r.remove i).2.receiver? j = if j = i then none else r.receiver? j := by
    intro j
    rw [receiver?, session?_remove]
    split_ifs <;> rfl
  exact .of_ite hr fun v n hv => by cases hv

/-- A port whose alarm is cancelled remembers whom it did. -/
theorem cancelAlarm : LearnsNothing r (r.cancelAlarm i) := by
  have hr : ∀ j, (r.cancelAlarm i).receiver? j =
      if j = i then (r.receiver? i).map fun v => { v with alarm := none } else r.receiver? j := by
    intro j
    rw [receiver?, session?_cancelAlarm]
    split_ifs with hj
    · rw [hj, receiver?, Option.map_map, Option.map_map]
      rfl
    · rfl
  refine .of_ite hr fun v n hv hn => ?_
  obtain ⟨u, hu, rfl⟩ := Option.map_eq_some_iff.1 hv
  exact Option.bind_eq_some_iff.2 ⟨u, hu, hn⟩

/-- A port whose alarm has gone off remembers nobody. -/
theorem handleExpiry : LearnsNothing r (r.handleExpiry i) := by
  have hr : ∀ j, (r.handleExpiry i).receiver? j =
      if j = i then (r.receiver? i).map fun _ => {} else r.receiver? j := by
    intro j
    rw [receiver?, session?_handleExpiry]
    split_ifs with hj
    · rw [hj, receiver?, Option.map_map, Option.map_map]
      rfl
    · rfl
  refine .of_ite hr fun v n hv hn => ?_
  obtain ⟨u, -, rfl⟩ := Option.map_eq_some_iff.1 hv
  cases hn

/-- To take an alarm out of the queue teaches nobody anything, nor does what follows. -/
theorem expire {alarm : Alarm} : LearnsNothing r (r.expire now alarm) := by
  have htake : LearnsNothing r { r with alarms := r.alarms.take now alarm } := of_sessions rfl
  exact htake.trans handleExpiry

/-- **Ports learn from packets only.** -/
theorem react {e : Event} (h : ∀ packet, e ≠ .inbound packet) :
    LearnsNothing r (r.react now e) := by
  by_cases ht : ∃ i, r.Touches now i e
  · obtain ⟨i, ht⟩ := ht
    cases ht with
    | add hi hs => exact add
    | remove hs => exact remove
    | accept hi ha => exact absurd rfl (h _)
    | expire hi hdue =>
      simp only [Registry.react, hdue]
      exact expire
  · exact .of_keepsReceivers (keepsReceivers_react fun i hi => ht ⟨i, hi⟩)

/-- Where the dispatcher breaks down, only tickers end. -/
theorem abandon : LearnsNothing r r.abandon := by
  have hsurround : LearnsNothing r (r.surround ⟨r.backend, r.tasks,
      { r.triggers with waiting := [] }, r.alarms.wheel, fun _ _ => none⟩) :=
    of_keepsReceivers keepsReceivers_surround
  exact hsurround

/-- Where everything is stopped and cancelled, ports keep their neighbours and get no others. -/
theorem shutdown : LearnsNothing r r.shutdown :=
  rel_shutdown refl (fun _ _ _ => trans) (fun _ _ => of_keepsReceivers keepsReceivers_stop)
    (fun _ _ => cancelAlarm) r

end LearnsNothing

/-- **What a port learns from a packet** is what the packet says. -/
theorem neighbor?_handleInbound {packet : Inbound} {n : Neighbor}
    (h : (r.handleInbound now packet).neighbor? i = some n) :
    r.neighbor? i = some n ∨ packet.ifIndex = i ∧ r.accept? packet = some n := by
  cases ha : r.accept? packet with
  | none => exact Or.inl (LearnsNothing.of_keepsReceivers (keepsReceivers_refuse ha) i n h)
  | some m =>
    obtain ⟨s, hs, -⟩ := accept?_eq_some_iff.1 ha
    obtain ⟨v, hv, hn⟩ := Option.bind_eq_some_iff.1 h
    rcases receiver?_cases (fun j => receiver?_accept hs ha) hv with ⟨rfl, hnew⟩ | ⟨-, hold⟩
    · obtain rfl := Option.some.inj hnew
      refine Or.inr ⟨rfl, ?_⟩
      rw [← hn]
      unfold Receiver.refresh
      split <;> rfl
    · exact Or.inl (Option.bind_eq_some_iff.2 ⟨v, hold, hn⟩)

end Registry
end Lldp
