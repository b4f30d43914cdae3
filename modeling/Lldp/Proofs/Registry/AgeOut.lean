/-
# Neighbours age out

A neighbour is known for exactly as long as it asked to be: from the moment its
packet was accepted until as many seconds later as the packet's time to live
says, unless another packet is accepted first.

`Moment.lastHearing` reads off a course of events what was heard last at a port
since the port was registered; it looks at packets and registrations only and
knows nothing of alarms (`Moment.lastHearing_eq_some_iff` says what that is without
going through the course).  `Tracks` compares it with what the registry knows: the
neighbour is what was heard last, and its alarm is set for the end of its hold
time; a neighbour that is not known any more had come to the end of it.  Only
the four events of `Registry.Touches` concern a port at all
(`AlarmsAgree.untouched`), so these are the cases of `Tracks.after`.

How late alarms go off does not matter here: the law speaks of the moments at
which no alarm of the port is due, whatever happened before them.
-/

import Lldp.Proofs.Registry.Alarms
import Mathlib.Data.List.Induction

namespace Lldp

/-- A packet that was accepted: what it said, and when. -/
structure Hearing where
  neighbor : Neighbor
  time : Nat
deriving DecidableEq

/-- The end of the hold time, in milliseconds like all times. -/
def Hearing.ends (x : Hearing) : Nat := x.time + 1000 * x.neighbor.frame.ttl.secs

namespace Moment

/-- What was heard last at a port since it was registered, after an event. -/
def hearing (m : Moment) (i : IfIndex) (last : Option Hearing) : Event → Option Hearing
  | .inbound packet =>
    if packet.ifIndex = i then
      match m.registry.accept? packet with
      | some n => some ⟨n, m.now⟩
      | none => last
    else last
  | .request (.add port) =>
    if port.ifIndex = i ∧ m.registry.session? i = none then none else last
  | _ => last

/-- What was heard last at a port since it was registered, after several
events. -/
def lastHearing (m : Moment) (i : IfIndex) (last : Option Hearing) : List Event → Option Hearing
  | [] => last
  | e :: events => (m.after e).lastHearing i (m.hearing i last e) events

variable {m : Moment} {i : IfIndex} {last : Option Hearing} {x : Hearing} {e : Event}

/-- An event neither registers the port nor hands it an acceptable packet. -/
def IsUnheard (i : IfIndex) (m : Moment) (e : Event) : Prop :=
  ∀ last, m.hearing i last e = last

/-- **Only a packet that is accepted is heard**, and only a registration makes
what was heard before forgotten. -/
theorem hearing_cases (m : Moment) (i : IfIndex) (e : Event) :
    IsUnheard i m e ∨
      (∃ packet n, e = .inbound packet ∧ packet.ifIndex = i ∧
        m.registry.accept? packet = some n ∧ ∀ last, m.hearing i last e = some ⟨n, m.now⟩) ∨
      (∃ port, e = .request (.add port) ∧ port.ifIndex = i ∧ m.registry.session? i = none ∧
        ∀ last, m.hearing i last e = none) := by
  cases e with
  | inbound packet =>
    by_cases hi : packet.ifIndex = i
    · cases ha : m.registry.accept? packet with
      | none => exact Or.inl fun last => by simp [hearing, ha]
      | some n =>
        exact Or.inr (Or.inl ⟨packet, n, rfl, hi, ha, fun last => by simp [hearing, hi, ha]⟩)
    · exact Or.inl fun last => if_neg hi
  | request q =>
    cases q with
    | add port =>
      by_cases hadd : port.ifIndex = i ∧ m.registry.session? i = none
      · exact Or.inr (Or.inr ⟨port, rfl, hadd.1, hadd.2, fun last => if_pos hadd⟩)
      · exact Or.inl fun last => if_neg hadd
    | _ => exact Or.inl fun _ => rfl
  | _ => exact Or.inl fun _ => rfl

/-- What does not touch a port is not heard there. -/
theorem hearing_of_untouched (h : ¬m.registry.Touches m.now i e) : m.hearing i last e = last := by
  rcases hearing_cases m i e with hnot | ⟨packet, n, rfl, hi, ha, -⟩ | ⟨port, rfl, hi, hs, -⟩
  · exact hnot last
  · exact absurd (.accept hi ha) h
  · exact absurd (.add hi hs) h

theorem lastHearing_append (first rest : List Event) :
    m.lastHearing i last (first ++ rest) =
      (m.run first).lastHearing i (m.lastHearing i last first) rest := by
  induction first generalizing m last with
  | nil => rfl
  | cons e first ih => exact ih

theorem lastHearing_of_unheard {events : List Event} (h : m.Throughout (IsUnheard i) events) :
    m.lastHearing i last events = last := by
  induction events generalizing m with
  | nil => rfl
  | cons e events ih =>
    rw [lastHearing, h.head last]
    exact ih h.tail

/-- **What was heard last was accepted, and nothing after it was.**  It comes from
one packet, and among the events that follow there is neither another packet
accepted at this port nor another registration of it. -/
theorem lastHearing_eq_some_iff {events : List Event} :
    m.lastHearing i none events = some x ↔
      ∃ before packet rest, events = before ++ .inbound packet :: rest ∧
        packet.ifIndex = i ∧ (m.run before).registry.accept? packet = some x.neighbor ∧
        (m.run before).now = x.time ∧
        (m.run (before ++ [.inbound packet])).Throughout (IsUnheard i) rest := by
  constructor
  · intro h
    induction events using List.reverseRecOn with
    | nil => cases h
    | append_singleton events e ih =>
      rw [lastHearing_append] at h
      rcases hearing_cases (m.run events) i e with
        hsame | ⟨packet, n, rfl, hi, ha, hnew⟩ | ⟨port, -, -, -, hnone⟩
      · obtain ⟨before, packet, rest, rfl, hi, ha, ht, hrest⟩ := ih ((hsame _).symm.trans h)
        refine ⟨before, packet, rest ++ [e], by simp, hi, ha, ht, hrest.concat ?_⟩
        rw [← run_append]
        simpa using hsame
      · obtain rfl := Option.some.inj ((hnew _).symm.trans h)
        exact ⟨events, packet, [], rfl, hi, ha, rfl, .nil _⟩
      · cases (hnone _).symm.trans h
  · rintro ⟨before, packet, rest, rfl, hi, ha, ht, hrest⟩
    have hx : (m.run before).hearing i (m.lastHearing i none before) (.inbound packet) =
        some x := by
      simp [hearing, hi, ha, ht]
    rw [run_append] at hrest
    rw [lastHearing_append, lastHearing, hx]
    exact lastHearing_of_unheard hrest

/-! ### What is known is what was heard -/

/-- What a registered port knows and when its alarm will go off is what was
heard last, or what was heard last has ended. -/
structure Tracks (m : Moment) (i : IfIndex) (last : Option Hearing) : Prop where
  known : ∀ v n, m.registry.receiver? i = some v → v.neighbor = some n →
    ∃ x, last = some x ∧ x.neighbor = n ∧
      ∀ a ∈ m.registry.alarms.alarms, a.ifIndex = i → a.deadline = x.ends
  forgotten : ∀ v x, m.registry.receiver? i = some v → v.neighbor = none → last = some x →
    x.ends ≤ m.now

namespace Tracks

theorem ofSettings (settings : Settings) : Tracks (.ofSettings settings) i none where
  known := by simp [Moment.ofSettings, Registry.ofSettings, Registry.receiver?, Registry.session?]
  forgotten := by simp

/-- What leaves a port alone leaves it with what it heard; time may pass. -/
theorem keep {m' : Moment} (h : m.Tracks i last)
    (hv : m'.registry.receiver? i = m.registry.receiver? i)
    (ha : ∀ a, a.ifIndex = i →
      (a ∈ m'.registry.alarms.alarms ↔ a ∈ m.registry.alarms.alarms))
    (hnow : m.now ≤ m'.now) : m'.Tracks i last where
  known v n hv' hn := by
    obtain ⟨x, hx, hxn, hdead⟩ := h.known v n (hv ▸ hv') hn
    exact ⟨x, hx, hxn, fun a ha' hi => hdead a ((ha a hi).1 ha') hi⟩
  forgotten v x hv' hn hx := Nat.le_trans (h.forgotten v x (hv ▸ hv') hn hx) hnow

/-- **A packet that is accepted** is what the port knows from then on. -/
theorem accept (hagree : m.registry.AlarmsAgree) {packet : Inbound} {n : Neighbor}
    (hi : packet.ifIndex = i) (ha : m.registry.accept? packet = some n) :
    (m.after (.inbound packet)).Tracks i (some ⟨n, m.now⟩) := by
  obtain ⟨-, ⟨v, hv, hvn⟩, -, hdead, -⟩ := @Registry.AlarmsAgree.accept _ m.now _ hagree _ ha
  obtain ⟨s, -, -, hp⟩ := Registry.accept?_eq_some_iff.1 ha
  subst hi
  constructor
  · intro w n' hw hn'
    obtain rfl := Option.some.inj (hv.symm.trans hw)
    obtain rfl := Option.some.inj (hvn.symm.trans hn')
    refine ⟨_, rfl, rfl, fun a haft hai => ?_⟩
    rw [hdead a haft hai, Neighbor.toMillis_of_ofPacket hp]
    rfl
  · intro w x hw hnone
    obtain rfl := Option.some.inj (hv.symm.trans hw)
    simp [hvn] at hnone

/-- **An alarm that goes off** does so at the end of the hold time. -/
theorem expire (h : m.Tracks i last) (hagree : m.registry.AlarmsAgree) {a : Alarm}
    (hi : a.ifIndex = i) (ha : a ∈ m.registry.alarms.alarms) (hdue : a.deadline ≤ m.now) :
    ∀ v, (m.registry.expire m.now a).receiver? i = some v →
      v.neighbor = none ∧ ∀ x, last = some x → x.ends ≤ m.now := by
  subst hi
  intro v hv
  obtain ⟨w, hw, -⟩ := hagree.owned a ha
  have hv' : v = {} := by
    rw [Registry.receiver?, Registry.expire, Registry.session?_handleExpiry, if_pos rfl] at hv
    obtain ⟨s, hs, rfl⟩ := Option.map_eq_some_iff.1 hv
    obtain ⟨t, -, rfl⟩ := Option.map_eq_some_iff.1 hs
    rfl
  obtain ⟨n, hn⟩ := hagree.exists_neighbor hw ha rfl
  obtain ⟨x, hx, -, hdead⟩ := h.known w n hw hn
  refine ⟨by rw [hv'], fun y hy => ?_⟩
  obtain rfl := Option.some.inj (hx.symm.trans hy)
  rw [← hdead a ha rfl]
  exact hdue

/-- **Every event keeps track of what was heard last.** -/
theorem after (h : m.Tracks i last) (hagree : m.registry.AlarmsAgree) (e : Event) :
    (m.after e).Tracks i (m.hearing i last e) := by
  by_cases ht : m.registry.Touches m.now i e
  · cases ht with
    | @add port hi hs =>
      have hnone : m.hearing i last (.request (.add port)) = none := if_pos ⟨hi, hs⟩
      rw [hnone]
      refine ⟨fun v n hv hn => ?_, fun v x _ _ hx => ?_⟩
      · have hsome : (m.registry.add port).2.receiver? i = some v := hv
        rw [Registry.receiver?, Registry.session?_add (hi ▸ hs), if_pos hi.symm] at hsome
        obtain rfl := Option.some.inj hsome
        cases hn
      · cases hx
    | remove hs =>
      have hgone : ∀ v, (m.after (.request (.remove i))).registry.receiver? i ≠ some v := by
        intro v hv
        have hsome : (m.registry.remove i).2.receiver? i = some v := hv
        rw [Registry.receiver?, Registry.session?_remove, if_pos rfl] at hsome
        cases hsome
      exact ⟨fun v _ hv => absurd hv (hgone v), fun v _ hv => absurd hv (hgone v)⟩
    | @accept packet n hi ha =>
      have hnew : m.hearing i last (.inbound packet) = some ⟨n, m.now⟩ := by
        simp [hearing, hi, ha]
      rw [hnew]
      exact Tracks.accept hagree hi ha
    | @expire key a hi hdue =>
      obtain ⟨ha, -, htime⟩ := Expiry.of_dueUnder? hdue
      have hreact : (m.after (.expire key)).registry = m.registry.expire m.now a := by
        simp only [Moment.after, Registry.react, hdue]
      have hout := h.expire hagree hi ha htime
      rw [← hreact] at hout
      refine ⟨fun v n hv hn => ?_, fun v x hv _ hx => (hout v hv).2 x hx⟩
      rw [(hout v hv).1] at hn
      cases hn
  · obtain ⟨hv, ha⟩ := hagree.untouched ht
    rw [hearing_of_untouched ht]
    exact h.keep hv ha (now_le_after m e)

/-- **Every course of events keeps track of what was heard last.** -/
theorem run (h : m.Tracks i last) (hagree : m.registry.AlarmsAgree) (events : List Event) :
    (m.run events).Tracks i (m.lastHearing i last events) := by
  induction events generalizing m last with
  | nil => exact h
  | cons e events ih =>
    rw [run_cons, lastHearing]
    exact ih (h.after hagree e) (hagree.react e)

end Tracks

/-- **A neighbour is known exactly until its hold time ends.**  After any course
of events, a registered port none of whose alarms is due knows a neighbour if and
only if a packet that said so was accepted for it since it was registered, no
other was accepted after that one, and its hold time has not ended.  The port's
alarm is always set for the end of that time.  What neither registers nor forgets
the port, hands it an acceptable packet or makes its alarm go off changes neither
what it knows nor when its alarm will go off. -/
theorem knows_iff_heard (settings : Settings) (events : List Event) (i : IfIndex) (s : Session) :
    let m := (Moment.ofSettings settings).run events
    let last := (Moment.ofSettings settings).lastHearing i none events
    m.registry.session? i = some s →
      ((∀ a ∈ m.registry.alarms.alarms, a.ifIndex = i → m.now < a.deadline) →
        ∀ n, s.receiver.neighbor = some n ↔ ∃ x, last = some x ∧ x.neighbor = n ∧
          m.now < x.time + 1000 * n.frame.ttl.secs) ∧
      (∀ a ∈ m.registry.alarms.alarms, a.ifIndex = i →
        ∃ x, last = some x ∧ a.deadline = x.time + 1000 * x.neighbor.frame.ttl.secs) ∧
      ∀ e, ¬m.registry.Touches m.now i e →
        (m.registry.react m.now e).receiver? i = some s.receiver ∧
          ∀ a, a.ifIndex = i →
            (a ∈ (m.registry.react m.now e).alarms.alarms ↔ a ∈ m.registry.alarms.alarms) := by
  intro m last hs
  have hv := Registry.receiver?_of_session? hs
  have hagree : m.registry.AlarmsAgree := alarmsAgree_run settings events
  have htracks : m.Tracks i last := (Tracks.ofSettings settings).run (.ofSettings settings) events
  refine ⟨fun hdue n => ⟨fun hn => ?_, ?_⟩, fun a ha hi => ?_, fun e ht => ?_⟩
  · obtain ⟨x, hx, rfl, hdead⟩ := htracks.known _ n hv hn
    obtain ⟨a, ha, hi⟩ := hagree.exists_alarm hv hn
    have hlt : m.now < a.deadline := hdue a ha hi
    rw [hdead a ha hi] at hlt
    exact ⟨x, hx, rfl, hlt⟩
  · rintro ⟨x, hx, rfl, hlt⟩
    cases hn : s.receiver.neighbor with
    | none =>
      have hended : x.ends ≤ m.now := htracks.forgotten _ x hv hn hx
      exact absurd hlt (Nat.not_lt.2 hended)
    | some n =>
      obtain ⟨y, hy, rfl, -⟩ := htracks.known _ n hv hn
      rw [Option.some.inj (hx.symm.trans hy)]
  · obtain ⟨n, hn⟩ := hagree.exists_neighbor hv ha hi
    obtain ⟨x, hx, -, hdead⟩ := htracks.known _ n hv hn
    exact ⟨x, hx, hdead a ha hi⟩
  · obtain ⟨hsame, hmem⟩ := hagree.untouched ht
    exact ⟨hsame.trans hv, hmem⟩

/-- A neighbour that asked for 120 seconds is known in the last millisecond of
them. -/
theorem knows_until_end :
    let port : Port := { ifIndex := 1, number := 1, name := "eth0", mac := ⟨2, 0, 0, 0, 0, 1⟩ }
    let packet : Octets :=
      [0x01, 0x80, 0xc2, 0x00, 0x00, 0x0e, 0x02, 0x00, 0x00, 0x00, 0x00, 0x02, 0x88, 0xcc,
        0x02, 0x07, 0x04, 0x02, 0x00, 0x00, 0x00, 0x00, 0x02,
        0x04, 0x05, 0x05, 0x65, 0x74, 0x68, 0x39, 0x06, 0x02, 0x00, 0x78, 0x00, 0x00]
    let events : List Event :=
      [.request (.add port), .request (.reportLink 1 .up),
        .inbound { ifIndex := 1, bytes := packet }, .pass 119999]
    let m := (Moment.ofSettings {}).run events
    ∃ s, m.registry.session? 1 = some s ∧
      (∀ a ∈ m.registry.alarms.alarms, a.ifIndex = 1 → m.now < a.deadline) ∧
      ∃ n, s.receiver.neighbor = some n ∧ n.frame.ttl.secs = 120 := by
  intro port packet events m
  have hreg : (m.registry.session? 1).isSome = true := by decide +kernel
  have hdue : ∀ a ∈ m.registry.alarms.alarms, a.ifIndex = 1 → m.now < a.deadline := by
    decide +kernel
  have hlast : ((Moment.ofSettings {}).lastHearing 1 none events).any
      (fun x => x.neighbor.frame.ttl.secs = 120 ∧ x.time = 0) = true := by decide +kernel
  have hnow : m.now = 119999 := by decide +kernel
  obtain ⟨s, hs⟩ := Option.isSome_iff_exists.1 hreg
  obtain ⟨x, hx, hsaid⟩ := (Option.any_eq_true _ _).1 hlast
  obtain ⟨httl, htime⟩ := of_decide_eq_true hsaid
  refine ⟨s, hs, hdue, x.neighbor, ?_, httl⟩
  refine ((knows_iff_heard {} events 1 s hs).1 hdue x.neighbor).2 ⟨x, hx, rfl, ?_⟩
  show m.now < _
  omega

end Moment
end Lldp
