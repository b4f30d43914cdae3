/-
# What is none of a port's switches

Packets, requests to transmit, alarms, timing and whatever others do leave the switches of
a port and its capture as they are, and open no interface.  `Registry.Spares` says so once:
what is known of the switches before such a change is known after it (`Spares.any`).
-/

import Lldp.Proofs.Registry.Captures

namespace Lldp

/-- A session changed neither in its switches nor in its capture. -/
structure Session.Spares (s s' : Session) : Prop where
  port : s'.port = s.port
  enabled : s'.enabled = s.enabled
  link : s'.link = s.link
  capture : s'.capture = s.capture

namespace Registry

variable {r r' r'' : Registry} {i j : IfIndex} {now : Nat}

/-- Neither the switches of a port nor its capture are touched, and nothing is opened. -/
structure Spares (r r' : Registry) (i : IfIndex) : Prop where
  enabled : r'.settings.enabled = r.settings.enabled
  generation : r'.generation = r.generation
  session : ∃ change : Session → Session, (∀ s : Session, s.Spares (change s)) ∧
    r'.session? i = (r.session? i).map change

namespace Spares

/-- A change of sessions leaves the switches alone if it does so for each of them. -/
theorem of_map {change : Session → Session} (hset : r'.settings.enabled = r.settings.enabled)
    (hg : r'.generation = r.generation) (hs : r'.session? i = (r.session? i).map change)
    (h : ∀ s : Session, s.Spares (change s)) : Spares r r' i :=
  ⟨hset, hg, change, h, hs⟩

/-- Where the session is the same, so are the switches. -/
theorem of_session? (hset : r'.settings.enabled = r.settings.enabled)
    (hg : r'.generation = r.generation) (hs : r'.session? i = r.session? i) : Spares r r' i :=
  @of_map r r' i id hset hg (by rw [hs, Option.map_id_fun, id]) fun _ => ⟨rfl, rfl, rfl, rfl⟩

/-- The change may be to another port's session. -/
theorem of_ite {change : Session → Session} (hset : r'.settings.enabled = r.settings.enabled)
    (hg : r'.generation = r.generation)
    (hs : r'.session? i = if i = j then (r.session? i).map change else r.session? i)
    (h : ∀ s : Session, s.Spares (change s)) : Spares r r' i := by
  split_ifs at hs
  · exact of_map hset hg hs h
  · exact of_session? hset hg hs

/-- Where nothing happens, no switch is touched. -/
theorem refl (r : Registry) (i : IfIndex) : Spares r r i := of_session? rfl rfl rfl

/-- Two changes that leave the switches alone do so together. -/
theorem trans (h : Spares r r' i) (h' : Spares r' r'' i) : Spares r r'' i := by
  obtain ⟨hset, hg, change, hchange, hs⟩ := h
  obtain ⟨hset', hg', change', hchange', hs'⟩ := h'
  refine of_map (hset'.trans hset) (hg'.trans hg) (by rw [hs', hs, Option.map_map]) fun s => ?_
  obtain ⟨hport, henabled, hlink, hcapture⟩ := hchange s
  obtain ⟨hport', henabled', hlink', hcapture'⟩ := hchange' (change s)
  exact ⟨hport'.trans hport, henabled'.trans henabled, hlink'.trans hlink,
    hcapture'.trans hcapture⟩

/-- **A test of switches and captures** comes out as before. -/
theorem any (h : Spares r r' i) {test : Session → Bool}
    (htest : ∀ s s' : Session, s.Spares s' → test s' = test s) :
    (r'.session? i).any test = (r.session? i).any test := by
  obtain ⟨-, -, change, hchange, hs⟩ := h
  rw [hs, Option.any_map]
  exact congrArg (r.session? i).any (funext fun s => htest s _ (hchange s))

/-- A port whose switches are left alone is registered just if it was. -/
theorem isRegistered (h : Spares r r' i) : r'.isRegistered i = r.isRegistered i := by
  obtain ⟨-, -, change, -, hs⟩ := h
  rw [Registry.isRegistered, hs, Option.isSome_map]
  rfl

/-- To change one session leaves all switches alone if it does so for that one. -/
theorem modify {change : Session → Session} (h : ∀ s : Session, s.Spares (change s)) :
    Spares r (r.modify j change) i :=
  of_ite rfl rfl (session?_modify fun s => (h s).port) h

/-- Other timing is no switch. -/
theorem retime {timing : Timing} : Spares r (r.retime timing) i :=
  of_map rfl rfl session?_retime fun _ => ⟨rfl, rfl, rfl, rfl⟩

/-- What others do to links and mailboxes is none of a port's switches. -/
theorem surround {x : Surroundings} : Spares r (r.surround x) i :=
  of_map rfl rfl session?_surround fun _ => ⟨rfl, rfl, rfl, rfl⟩

/-- No packet that comes in switches a port. -/
theorem inbound {packet : Inbound} : Spares r (r.handleInbound now packet) i := by
  obtain ⟨change, hchange, hs⟩ := session?_handleInbound r now packet
  refine of_ite ?_ (handleInbound_frame r now packet).1 (hs i) fun s => ?_
  · rw [handleInbound_settings]
  · obtain ⟨_, _, _, heq⟩ := hchange s
    rw [heq]
    exact ⟨rfl, rfl, rfl, rfl⟩

/-- A transmission counts something and may build a packet, and that is all. -/
theorem transmit : Spares r (r.handleTransmit j) i := by
  rcases handleTransmit_cases r j with
    ⟨-, h⟩ | ⟨s, c, -, -, ⟨-, h⟩ | ⟨-, -, h⟩ | ⟨-, lo', -, h⟩⟩
  · rw [h]
    exact refl r i
  · rw [h]
    exact modify fun _ => ⟨rfl, rfl, rfl, rfl⟩
  · rw [h]
    exact modify fun _ => ⟨rfl, rfl, rfl, rfl⟩
  · have hwrite : Spares r { r with backend := lo' } i := of_session? rfl rfl rfl
    rw [h]
    exact hwrite.trans (modify fun _ => ⟨rfl, rfl, rfl, rfl⟩)

/-- Forgetting a neighbour leaves the port as it is switched. -/
theorem handleExpiry : Spares r (r.handleExpiry j) i := by
  refine of_ite (by rw [handleExpiry_frame.1]) ?_ session?_handleExpiry
    fun _ => ⟨rfl, rfl, rfl, rfl⟩
  unfold Registry.handleExpiry
  split <;> rfl

/-- **An alarm that goes off** switches nothing. -/
theorem expire {a : Alarm} : Spares r (r.expire now a) i := by
  have htake : Spares r { r with alarms := r.alarms.take now a } i := of_session? rfl rfl rfl
  exact htake.trans handleExpiry

end Spares

end Registry
end Lldp
