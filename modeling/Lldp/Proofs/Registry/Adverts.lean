/-
# What ports advertise

`Registry.advert?` is all of a port that its next packet depends on, with what
was built and sent of those before it.  Most operations leave it alone; stopping
a port throws the kept packet away, adopting other timing does so on every port,
and only a request to transmit builds a packet or sends one.

An operation is described once, by the advert of every port afterwards
(`advert?_start`, `advert?_stop`, …); `Sheds` is what is left of this where an
operation goes through several ports.
-/

import Lldp.Proofs.Registry.Course
import Lldp.Proofs.Transmitter

namespace Lldp

/-- What the next packet of a port depends on, and what was built and sent
before. -/
structure Advert where
  port : Port
  timing : Timing
  cached : Option Octets
  builds : Nat
  sent : Nat

namespace Advert

/-- The kept packet is thrown away. -/
def clear (a : Advert) : Advert := { a with cached := none }

/-- Other timing is adopted. -/
def retime (a : Advert) (timing : Timing) : Advert := { a with timing, cached := none }

/-- A port that was just registered. -/
def ofPort (port : Port) (timing : Timing) : Advert :=
  { port, timing, cached := none, builds := 0, sent := 0 }

end Advert

/-- What a session says of its port. -/
def Session.advert (s : Session) : Advert :=
  { port := s.port
    timing := s.transmitter.timing
    cached := s.transmitter.cached
    builds := s.transmitter.builds
    sent := s.counters.sent }

namespace Registry

variable {r r' r'' : Registry} {i j : IfIndex} {s : Session} {now : Nat} {on : Bool}

/-- What a port advertises. -/
def advert? (r : Registry) (i : IfIndex) : Option Advert := (r.session? i).map Session.advert

/-- What a registered port advertises is read off its session. -/
theorem advert?_of_session? (h : r.session? i = some s) : r.advert? i = some s.advert := by
  rw [advert?, h, Option.map_some]

/-- A change of one session is seen in its advert. -/
theorem advert?_of_ite {change : Session → Session} {f : Advert → Advert} {p : Prop} [Decidable p]
    (hs : r'.session? i = if p then (r.session? i).map change else r.session? i)
    (h : ∀ s, (change s).advert = f s.advert) :
    r'.advert? i = if p then (r.advert? i).map f else r.advert? i := by
  rw [advert?, advert?, hs]
  split_ifs
  · cases r.session? i with
    | none => rfl
    | some s => exact congrArg some (h s)
  · rfl

/-- A change that the advert does not show. -/
theorem advert?_of_same {change : Session → Session} {p : Prop} [Decidable p]
    (hs : r'.session? i = if p then (r.session? i).map change else r.session? i)
    (h : ∀ s, (change s).advert = s.advert) : r'.advert? i = r.advert? i := by
  rw [@advert?_of_ite r r' i change id p _ hs h, Option.map_id_fun, id, ite_self]

/-! ### Operations that leave adverts alone -/

/-- A port that is started keeps the packet that it had at the ready. -/
@[simp] theorem advert?_start : (r.start j).2.advert? i = r.advert? i :=
  advert?_of_same session?_start fun _ => rfl

/-- The state of the link is none of what a packet says. -/
@[simp] theorem advert?_setLink {state : LinkState} :
    (r.setLink j state).2.advert? i = r.advert? i :=
  advert?_of_same session?_setLink fun _ => rfl

/-- Nor is whether the port is to be heard of. -/
@[simp] theorem advert?_setPortEnabled : (r.setPortEnabled j on).advert? i = r.advert? i :=
  advert?_of_same session?_setPortEnabled fun _ => rfl

/-- Nor is whether the protocol runs at all. -/
@[simp] theorem advert?_setEnabled : (r.setEnabled on).advert? i = r.advert? i := rfl

/-- What is heard from a neighbour does not change what a port says of itself. -/
@[simp] theorem advert?_handleInbound {packet : Inbound} :
    (r.handleInbound now packet).advert? i = r.advert? i := by
  obtain ⟨change, hchange, hs⟩ := session?_handleInbound r now packet
  refine advert?_of_same (hs i) fun s => ?_
  obtain ⟨_, _, _, heq⟩ := hchange s
  rw [heq]
  rfl

/-- To forget a neighbour does not either. -/
@[simp] theorem advert?_expire {a : Alarm} : (r.expire now a).advert? i = r.advert? i := by
  refine advert?_of_same (r := { r with alarms := r.alarms.take now a }) session?_handleExpiry ?_
  intro s
  simp only [Session.advert]
  split_ifs <;> rfl

/-- Links, mailboxes and tickers are no part of an advert. -/
@[simp] theorem advert?_surround {x : Surroundings} :
    (r.surround x).advert? i = r.advert? i := by
  rw [advert?, session?_surround, Option.map_map]
  rfl

/-! ### Operations that do not -/

/-- **Stopping a port** throws its kept packet away, and no other port's. -/
theorem advert?_stop :
    (r.stop j).2.advert? i = if i = j then (r.advert? i).map Advert.clear else r.advert? i :=
  advert?_of_ite session?_stop fun _ => rfl

/-- A port that is forgotten advertises nothing, and others advertise what they did. -/
theorem advert?_remove : (r.remove j).2.advert? i = if i = j then none else r.advert? i := by
  rw [advert?, session?_remove]
  split_ifs <;> rfl

/-- **Other timing** is adopted by every port, and outdates what was built. -/
theorem advert?_retime {timing : Timing} :
    (r.retime timing).advert? i = (r.advert? i).map (·.retime timing) := by
  rw [advert?, advert?, session?_retime, Option.map_map, Option.map_map]
  congr 1
  funext s
  simp only [Function.comp_apply, Session.advert, Session.retime, Advert.retime]
  split_ifs <;> rfl

/-- A new port has built nothing yet, and advertises with the timing in force. -/
theorem advert?_add {port : Port} (h : r.session? port.ifIndex = none) :
    (r.add port).2.advert? i =
      if i = port.ifIndex then some (.ofPort port r.settings.timing) else r.advert? i := by
  rw [advert?, session?_add h]
  split_ifs <;> rfl

/-- A port that follows a switch loses at most its kept packet. -/
theorem advert?_follow :
    (r.follow j on).advert? i =
      if i = j ∧ on = false then (r.advert? i).map Advert.clear else r.advert? i := by
  unfold follow
  cases on with
  | true => simp
  | false => simp [advert?_stop]

/-- Ports that are told to start keep their packets. -/
theorem advert?_followAll_on (is : List IfIndex) :
    (r.followAll is true).advert? i = r.advert? i := by
  induction is generalizing r with
  | nil => rfl
  | cons j is ih =>
    have hstep : r.followAll (j :: is) true = (r.follow j true).followAll is true := rfl
    rw [hstep, ih, advert?_follow, if_neg (by simp)]

/-- A request to transmit concerns the adverts of no other port. -/
theorem advert?_handleTransmit_of_ne (h : i ≠ j) :
    (r.handleTransmit j).advert? i = r.advert? i := by
  have hmodify : ∀ {r' : Registry} {change : Session → Session},
      (∀ s, (change s).port = s.port) → r'.sessions = r.sessions →
        (r'.modify j change).advert? i = r.advert? i := by
    intro r' change hport hsame
    rw [advert?, session?_modify hport, if_neg h, advert?, session?, session?, hsame]
  rcases handleTransmit_cases r j with
    ⟨-, heq⟩ | ⟨s, c, -, -, ⟨-, heq⟩ | ⟨-, -, heq⟩ | ⟨-, lo', -, heq⟩⟩
  · rw [heq]
  · rw [heq]
    exact hmodify (fun _ => rfl) rfl
  · rw [heq]
    exact hmodify (fun _ => rfl) rfl
  · rw [heq]
    exact hmodify (fun _ => rfl) rfl

/-! ### Transmitting -/

/-- A request to transmit finds the port captured, and no packet to send or a link
that takes none. -/
def SendFails (r : Registry) (i : IfIndex) : Prop :=
  ∃ s c, r.session? i = some s ∧ s.capture = some c ∧
    ((s.transmitter.current s.port.mac s.port.name).1 = [] ∨
      ∃ e, r.backend.write c.handle (s.transmitter.current s.port.mac s.port.name).1 = .error e)

/-- A packet that was sent is counted by its port alone. -/
theorem advert?_countSent {t : Transmitter} {lo : Loopback} (hs : r.session? i = some s) :
    ({ r with backend := lo }.modify i (·.countSent t)).advert? i =
      some { s.advert with
        timing := t.timing
        cached := t.cached
        builds := t.builds
        sent := s.advert.sent + 1 } := by
  have hcounted : ({ r with backend := lo }.modify i (·.countSent t)).session? i =
      some (s.countSent t) := by
    simp only [session?_modify, Session.countSent, implies_true, if_true]
    change (r.session? i).map _ = _
    rw [hs]
    rfl
  exact advert?_of_session? hcounted

/-- So is one that could not be sent. -/
theorem advert?_countSendFailure {t : Transmitter} (hs : r.session? i = some s) :
    (r.modify i (·.countSendFailure t)).advert? i =
      some { s.advert with
        timing := t.timing
        cached := t.cached
        builds := t.builds } := by
  have hcounted : (r.modify i (·.countSendFailure t)).session? i =
      some (s.countSendFailure t) := by
    simp only [session?_modify, Session.countSendFailure, implies_true, if_true]
    rw [hs]
    rfl
  exact advert?_of_session? hcounted

/-- **What a request to transmit does to the port's advert.**  A port that is not
captured takes no notice.  If nothing can be sent, at most one packet was built
and it is not kept.  If a packet is sent, it is the kept one or one built for it,
and it is kept. -/
theorem advert?_handleTransmit (r : Registry) (i : IfIndex) :
    (r.handleTransmit i).advert? i = r.advert? i ∨
      (r.SendFails i ∧ ∃ a a', r.advert? i = some a ∧ (r.handleTransmit i).advert? i = some a' ∧
        a'.port = a.port ∧ a'.timing = a.timing ∧ a'.sent = a.sent ∧
        (a'.cached = none ∨ a'.cached = a.cached) ∧
        a'.builds ≤ a.builds + if a.cached = none then 1 else 0) ∨
      ∃ a bytes, r.advert? i = some a ∧
        (a.cached = some bytes ∧
            (r.handleTransmit i).advert? i = some { a with sent := a.sent + 1 } ∨
          a.cached = none ∧ Transmitter.packet a.timing a.port.mac a.port.name = .ok bytes ∧
            (r.handleTransmit i).advert? i =
              some { a with
                cached := some bytes, builds := a.builds + 1, sent := a.sent + 1 }) := by
  rcases handleTransmit_cases r i with
    ⟨-, heq⟩ | ⟨s, c, hs, hc, ⟨hnil, heq⟩ | ⟨-, hw, heq⟩ | ⟨hne, lo', -, heq⟩⟩
  · exact Or.inl (by rw [heq])
  · have hafter : (r.handleTransmit i).advert? i = some s.advert := by
      rw [heq, Transmitter.snd_current_of_nil hnil, advert?_countSendFailure hs]
      rfl
    exact Or.inr (Or.inl ⟨⟨s, c, hs, hc, Or.inl hnil⟩, s.advert, s.advert,
      advert?_of_session? hs, hafter, rfl, rfl, rfl, Or.inr rfl, Nat.le_add_right _ _⟩)
  · obtain ⟨htiming, hbuilds⟩ := s.transmitter.snd_current s.port.mac s.port.name
    have hafter := heq ▸ advert?_countSendFailure (t :=
      (s.transmitter.current s.port.mac s.port.name).2.invalidate) hs
    exact Or.inr (Or.inl ⟨⟨s, c, hs, hc, Or.inr hw⟩, s.advert, _, advert?_of_session? hs, hafter,
      rfl, htiming, rfl, Or.inl rfl, hbuilds⟩)
  · refine Or.inr (Or.inr ⟨s.advert, ?_⟩)
    rcases s.transmitter.current_cases s.port.mac s.port.name with
      ⟨bytes, hkept, hmade⟩ | ⟨hkept, bytes, hp, hmade⟩ | ⟨-, -, hmade⟩
    · refine ⟨bytes, advert?_of_session? hs, Or.inl ⟨hkept, ?_⟩⟩
      rw [heq, hmade, advert?_countSent hs]
      rfl
    · refine ⟨bytes, advert?_of_session? hs, Or.inr ⟨hkept, hp, ?_⟩⟩
      rw [heq, hmade, advert?_countSent hs]
      rfl
    · rw [hmade] at hne
      exact absurd rfl hne

/-! ### Operations on several ports -/

/-- The timing is as it was, and ports lose at most their kept packets. -/
structure Sheds (r r' : Registry) : Prop where
  timing : r'.settings.timing = r.settings.timing
  advert : ∀ i a', r'.advert? i = some a' → ∃ a, r.advert? i = some a ∧ (a' = a ∨ a' = a.clear)

namespace Sheds

/-- Where every advert is the same, nothing was thrown away. -/
theorem of_eq (ht : r'.settings.timing = r.settings.timing)
    (h : ∀ i, r'.advert? i = r.advert? i) : Sheds r r' :=
  ⟨ht, fun i a' ha => ⟨a', h i ▸ ha, Or.inl rfl⟩⟩

/-- Where kept packets of some ports were thrown away, that is all. -/
theorem of_clear {p : IfIndex → Prop} [DecidablePred p]
    (ht : r'.settings.timing = r.settings.timing)
    (h : ∀ i, r'.advert? i = if p i then (r.advert? i).map Advert.clear else r.advert? i) :
    Sheds r r' := by
  refine ⟨ht, fun i a' ha => ?_⟩
  rw [h] at ha
  split_ifs at ha
  · obtain ⟨a, hfound, rfl⟩ := Option.map_eq_some_iff.1 ha
    exact ⟨a, hfound, Or.inr rfl⟩
  · exact ⟨a', ha, Or.inl rfl⟩

/-- What two operations throw away, they throw away together. -/
theorem trans (h : Sheds r r') (h' : Sheds r' r'') : Sheds r r'' := by
  refine ⟨h'.timing.trans h.timing, fun i a'' ha'' => ?_⟩
  obtain ⟨a', ha', hlast⟩ := h'.advert i a'' ha''
  obtain ⟨a, ha, hfirst⟩ := h.advert i a' ha'
  refine ⟨a, ha, ?_⟩
  rcases hlast with rfl | rfl
  · exact hfirst
  · rcases hfirst with rfl | rfl
    · exact Or.inr rfl
    · exact Or.inr rfl

/-- To start or stop a port as its link is reported throws away its packet at the most. -/
theorem follow : Sheds r (r.follow j on) := by
  refine of_clear ?_ fun i => advert?_follow
  unfold Registry.follow
  split_ifs <;> simp

/-- So does starting or stopping several, one after another. -/
theorem followAll (is : List IfIndex) : Sheds r (r.followAll is on) := by
  induction is generalizing r with
  | nil => exact of_eq rfl fun _ => rfl
  | cons i is ih => exact follow.trans ih

end Sheds
end Registry
end Lldp
