/-
# Remembering along a run

Whatever happens to a station, the alarms that are set for a port are the port's own, as
long as nobody tells the port that its alarm has gone off when none has
(`ownsAlarms_run`).  A port that stays registered, and that no packet is handed over for,
then goes on remembering its neighbour until its deadline (`remembers_after`); and one that
is captured and handed what another port sends remembers this port for as long as it asks
to be remembered (`remembers_inbound`).
-/

import Lldp.Proofs.Exchange
import Lldp.Proofs.Registry.Remembering

namespace Lldp

/-- The deadline of an alarm that is set now for what a port has sent. -/
theorem Transmitter.toMillis_announcement {timing : Timing} {source : Mac} {name : String}
    {bytes : Octets} (h : packet timing source name = .ok bytes) :
    Neighbor.ofPacket bytes = .ok (announcement timing source name) ∧
      (announcement timing source name).frame.ttl.toMillis = 1000 * timing.ttl := by
  obtain ⟨unit, hannounced⟩ := isAnnouncedBy_of_packet h (.inl rfl) []
  rw [List.append_nil] at hannounced
  have hpacket := Neighbor.ofPacket_eq_ok_iff.2 ⟨unit, hannounced⟩
  exact ⟨hpacket, Neighbor.toMillis_of_ofPacket hpacket⟩

namespace Registry

variable {r : Registry} {k : IfIndex}

theorem isRegistered_of_isCapturing (h : r.isCapturing k = true) : r.isRegistered k = true := by
  obtain ⟨s, hs, -⟩ := (Option.any_eq_true ..).1 h
  rw [isRegistered, hs]
  rfl

/-- No alarm of a port is due before its deadline. -/
theorem Remembers.dueOf?_eq_none {n : Neighbor} {ageouts deadline now : Nat}
    (h : r.Remembers k n ageouts deadline) (hnow : now < deadline) :
    r.alarms.dueOf? now k = none := by
  cases ha : r.alarms.dueOf? now k with
  | none => rfl
  | some a =>
    obtain ⟨hmem, hi, hdue⟩ := of_dueOf? ha
    have hlate := h.alarms a hmem hi
    omega

end Registry

namespace Station

variable {st : Station} {k : IfIndex} {x : Incident} {incidents : List Incident}
  {n : Neighbor} {ageouts deadline : Nat}

/-- The packet that an incident hands over, if any. -/
def handsOver (st : Station) : Incident → Option Inbound
  | .operation (.inbound packet) => some packet
  | .packet true => st.inbound.items.head?
  | _ => none

/-- Nobody reads from a mailbox what is not first in it. -/
theorem head?_of_take? {item : Inbound} {inbound : Mailbox Nat Inbound}
    (h : st.inbound.take? = some (item, inbound)) : st.inbound.items.head? = some item := by
  unfold Mailbox.take? at h
  split at h
  · cases h
  · rename_i heq
    rw [heq, List.head?_cons]
    exact congrArg some (Prod.mk.inj (Option.some.inj h)).1

/-- **Every incident leaves a port's alarms its own**, but that it is told of one that has
not gone off. -/
theorem ownsAlarms_after (h : st.registry.OwnsAlarms k) (hx : x ≠ .expiry k) :
    (st.after x).registry.OwnsAlarms k := by
  cases x with
  | task task =>
    obtain ⟨-, surroundings, hdrift⟩ := drifts_step st task
    rw [after_task, hdrift]
    exact Registry.Leaves.surround.owns h
  | operation o => exact h.operate st.now o
  | expiry j => exact (Registry.Leaves.handleExpiry fun hjk => hx (by rw [hjk])).owns h
  | shutdown => exact Registry.Leaves.shutdown.owns h
  | packet deliver =>
    unfold after
    cases st.inbound.take? with
    | none => exact h
    | some item =>
      cases deliver with
      | true => exact h.handleInbound
      | false => exact h
  | trigger deliver =>
    unfold after
    cases st.registry.triggers.take? with
    | none => exact h
    | some item =>
      have htaken : { st.registry with triggers := item.2 }.OwnsAlarms k :=
        h.of_same (fun _ => rfl) rfl rfl
      cases deliver with
      | true => exact Registry.Leaves.handleTransmit.owns htaken
      | false => exact htaken
  | turn => exact h.of_same (fun _ => rfl) rfl rfl
  | exit => exact h.of_same (fun _ => rfl) rfl rfl
  | close => exact h.of_same (fun _ => rfl) rfl rfl

/-- **Along every run a port's alarms are its own**, unless it is told of one that has not
gone off. -/
theorem ownsAlarms_run (settings : Settings) (hexpiry : Incident.expiry k ∉ incidents) :
    ((ofSettings settings).run incidents).registry.OwnsAlarms k := by
  induction incidents using List.reverseRecOn with
  | nil => exact .ofSettings settings k
  | append_singleton incidents x ih =>
    rw [List.mem_append, List.mem_singleton, not_or] at hexpiry
    rw [run_concat]
    exact ownsAlarms_after (ih hexpiry.1) (Ne.symm hexpiry.2)

/-- A port that stays registered is left alone by every incident that hands it no packet and
does not tell it of an alarm, as long as none of its alarms is due. -/
theorem leaves_after (hk : st.registry.isRegistered k = true)
    (hk' : (st.after x).registry.isRegistered k = true) (hx : x ≠ .expiry k)
    (hpacket : ∀ packet, st.handsOver x = some packet → packet.ifIndex ≠ k)
    (hdue : st.registry.alarms.dueOf? st.now k = none) :
    st.registry.Leaves (st.after x).registry k := by
  cases x with
  | task task =>
    obtain ⟨-, surroundings, hdrift⟩ := drifts_step st task
    rw [after_task, hdrift]
    exact .surround
  | operation o =>
    refine .operate o hk hk' (fun packet ho => hpacket packet ?_) hdue
    rw [ho]
    rfl
  | expiry j => exact .handleExpiry fun hjk => hx (by rw [hjk])
  | shutdown => exact .shutdown
  | packet deliver =>
    unfold after
    cases htake : st.inbound.take? with
    | none => exact .refl _ k
    | some item =>
      cases deliver with
      | true => exact .handleInbound (hpacket item.1 (head?_of_take? htake))
      | false => exact .refl _ k
  | trigger deliver =>
    unfold after
    cases st.registry.triggers.take? with
    | none => exact .refl _ k
    | some item =>
      have htaken : st.registry.Leaves { st.registry with triggers := item.2 } k :=
        .of_same (fun _ => rfl) rfl rfl
      cases deliver with
      | true => exact htaken.trans .handleTransmit
      | false => exact htaken
  | turn => exact .of_same (fun _ => rfl) rfl rfl
  | exit => exact .of_same (fun _ => rfl) rfl rfl
  | close => exact .of_same (fun _ => rfl) rfl rfl

/-- **A port goes on remembering its neighbour** until its deadline. -/
theorem remembers_after (h : st.registry.Remembers k n ageouts deadline)
    (hk : st.registry.isCapturing k = true) (hk' : (st.after x).registry.isCapturing k = true)
    (hx : x ≠ .expiry k) (hpacket : ∀ packet, st.handsOver x = some packet → packet.ifIndex ≠ k)
    (hnow : st.now < deadline) : (st.after x).registry.Remembers k n ageouts deadline :=
  (leaves_after (Registry.isRegistered_of_isCapturing hk)
    (Registry.isRegistered_of_isCapturing hk') hx hpacket (h.dueOf?_eq_none hnow)).remembers h

/-- **A captured port that is handed what another port has sent** remembers that port for as
long as it asks to be remembered, and counts no neighbour as forgotten. -/
theorem remembers_inbound {timing : Timing} {source : Mac} {name : String} {bytes : Octets}
    (h : st.registry.OwnsAlarms k) (hk : st.registry.isCapturing k = true)
    (hp : Transmitter.packet timing source name = .ok bytes)
    (hknown : (st.registry.known? k).map Prod.snd = some ageouts) :
    (st.after (.operation (.inbound { ifIndex := k, bytes }))).registry.Remembers k
      (Transmitter.announcement timing source name) ageouts (st.now + 1000 * timing.ttl) := by
  obtain ⟨hpacket, httl⟩ := Transmitter.toMillis_announcement hp
  obtain ⟨s, hs, hc⟩ := (Option.any_eq_true ..).1 hk
  have haccept : st.registry.accept? { ifIndex := k, bytes } =
      some (Transmitter.announcement timing source name) :=
    Registry.accept?_eq_some_iff.2 ⟨s, hs, hc, hpacket⟩
  have hmemory : st.registry.memory? k = some s.memory := by rw [Registry.memory?, hs]; rfl
  rw [Registry.known?, hmemory] at hknown
  obtain rfl := Option.some.inj hknown
  rw [← httl]
  exact Registry.Remembers.handleInbound h hmemory haccept

end Station

end Lldp
