/-
# What the operations do to a port

For every operation on a registry: the session found under an index afterwards,
in terms of the one found before, and what becomes of the settings, the alarms
and the links.  A later proof cites these and opens no operation.

Two predicates say beforehand what an operation will come to: `opens` tells
whether starting a port opens its interface, and `accept?` what an inbound
packet will tell the port.  An operation that can end in several ways has one
`_cases` lemma with all of them (`start_cases`, `handleInbound_cases`,
`handleTransmit_cases`).
-/

import Lldp.Proofs.Loopback
import Lldp.Proofs.Registry.Lookup

namespace Lldp

/-- A receiver whose alarm is cancelled keeps its neighbour. -/
theorem Receiver.cancel_fst (v : Receiver) (q : Expiry) :
    (v.cancel q).1 = { v with alarm := none } := by
  obtain ⟨n, a⟩ := v
  cases a <;> rfl

namespace Registry

variable {r : Registry} {i j : IfIndex} {s : Session} {now : Nat} {packet : Inbound}
  {n : Neighbor} {timing : Timing} {on : Bool}

/-! ### Starting -/

/-- Whether starting a port opens its interface. -/
def opens (r : Registry) (i : IfIndex) : Bool :=
  (r.session? i).any fun s => r.isDue s && s.port.name ∉ r.backend.failingOpens

/-- The interface of a port is open. -/
theorem session?_adopt {handle : Nat} :
    (r.adopt i handle).session? j =
      if j = i then (r.session? j).map (·.start ⟨r.generation + 1, handle⟩) else r.session? j :=
  session?_modify fun _ => rfl

/-- **A start opens the port's interface and adopts the handle, or changes
nothing.** -/
theorem start_cases (r : Registry) (i : IfIndex) :
    (r.opens i = false ∧ (r.start i).2 = r) ∨
      (r.opens i = true ∧ ∃ s lo', r.session? i = some s ∧ r.isDue s = true ∧
        r.backend.openHandle s.port.name r.settings.capture.readTimeout Ethernet.captureFilter =
          .ok (r.backend.handles.length, lo') ∧
        (r.start i).2 = { r with backend := lo' }.adopt i r.backend.handles.length) := by
  unfold start opens
  cases hs : r.session? i with
  | none => exact Or.inl ⟨rfl, rfl⟩
  | some s =>
    cases hdue : r.isDue s with
    | false => exact Or.inl ⟨by simp [hdue], by simp [hdue]⟩
    | true =>
      by_cases hname : s.port.name ∈ r.backend.failingOpens
      · exact Or.inl ⟨by simp [hname], by simp [hdue, Loopback.openHandle_of_mem hname]⟩
      · obtain ⟨lo', hlo⟩ := Loopback.openHandle_of_notMem
          r.settings.capture.readTimeout Ethernet.captureFilter hname
        refine Or.inr ⟨by simp [hdue, hname], s, lo', rfl, hdue, hlo, ?_⟩
        simp [hdue, hlo]

/-- **What a start does to sessions**: that of the port gets its capture and a ticker if the
interface is opened, and no other is touched. -/
theorem session?_start :
    (r.start i).2.session? j =
      if j = i ∧ r.opens i = true then
        (r.session? j).map (·.start ⟨r.generation + 1, r.backend.handles.length⟩)
      else r.session? j := by
  rcases start_cases r i with ⟨ho, h⟩ | ⟨ho, s, lo', -, -, -, h⟩
  · simp [h, ho]
  · rw [h, session?_adopt]
    simp only [ho, and_true]
    rfl

/-- Starting a port is no change of settings. -/
@[simp] theorem start_settings : (r.start i).2.settings = r.settings := by
  rcases start_cases r i with ⟨-, h⟩ | ⟨-, s, lo', -, -, -, h⟩
  · rw [h]
  · rw [h]
    rfl

/-- To be captured is not yet to have heard anything: alarms are as they were. -/
@[simp] theorem start_alarms : (r.start i).2.alarms = r.alarms := by
  rcases start_cases r i with ⟨-, h⟩ | ⟨-, s, lo', -, -, -, h⟩
  · rw [h]
  · rw [h]
    rfl

/-- Starting registers no port and forgets none. -/
@[simp] theorem start_indexes : (r.start i).2.indexes = r.indexes := by
  rcases start_cases r i with ⟨-, h⟩ | ⟨-, s, lo', -, -, -, h⟩
  · rw [h]
  · rw [h]
    exact indexes_modify fun _ => rfl

/-- An attempt to open an interface does not change which ones can be opened. -/
@[simp] theorem start_failingOpens :
    (r.start i).2.backend.failingOpens = r.backend.failingOpens := by
  rcases start_cases r i with ⟨-, h⟩ | ⟨-, s, lo', -, -, hlo, h⟩
  · rw [h]
  · rw [h]
    exact Loopback.failingOpens_of_openHandle hlo

/-- A start only asks for the first frame; it writes none. -/
@[simp] theorem start_sentAt {link : Nat} :
    (r.start i).2.backend.sentAt link = r.backend.sentAt link := by
  rcases start_cases r i with ⟨-, h⟩ | ⟨-, s, lo', -, -, hlo, h⟩
  · rw [h]
  · rw [h]
    exact Loopback.sentAt_of_openHandle hlo

/-! ### Stopping -/

/-- There is nothing to stop of a port that is not registered. -/
theorem stop_of_none (h : r.session? i = none) : (r.stop i).2 = r := by
  rw [stop, h]

/-- **What stopping does to sessions**: that of the port loses its capture, its ticker and the
packet that it kept ready, and no other is touched. -/
theorem session?_stop :
    (r.stop i).2.session? j =
      if j = i then (r.session? j).map Session.stop else r.session? j := by
  cases h : r.session? i with
  | none =>
    rw [stop_of_none h]
    split_ifs with hj
    · simp [hj, h]
    · rfl
  | some s =>
    rw [stop, h]
    exact session?_modify fun _ => rfl

/-- Stopping a port is no change of settings. -/
@[simp] theorem stop_settings : (r.stop i).2.settings = r.settings := by
  unfold stop
  split <;> rfl

/-- A port that is stopped keeps its neighbour, which ages out by itself: alarms are as they
were. -/
@[simp] theorem stop_alarms : (r.stop i).2.alarms = r.alarms := by
  unfold stop
  split <;> rfl

/-- A port that is stopped stays registered. -/
@[simp] theorem stop_indexes : (r.stop i).2.indexes = r.indexes := by
  unfold stop
  split
  · rfl
  · exact indexes_modify fun _ => rfl

/-- To close a handle does nothing to a link: reads that queue keep their places. -/
@[simp] theorem stop_links : (r.stop i).2.backend.links = r.backend.links := by
  unfold stop
  split
  · rfl
  · simp only [modify_backend]
    split <;> rfl

/-- To close a handle writes nothing. -/
@[simp] theorem stop_sentAt {link : Nat} :
    (r.stop i).2.backend.sentAt link = r.backend.sentAt link := by
  rw [Loopback.sentAt, stop_links, Loopback.sentAt]

/-! ### Forgetting -/

/-- **A port whose alarm is cancelled** keeps its neighbour, and no other port is touched. -/
theorem session?_cancelAlarm :
    (r.cancelAlarm i).session? j =
      if j = i then (r.session? j).map fun s =>
        { s with receiver := { s.receiver with alarm := none } }
      else r.session? j := by
  unfold cancelAlarm
  cases h : r.session? i with
  | none =>
    split_ifs with hj
    · simp [hj, h]
    · rfl
  | some s =>
    simp only [session?_modify, implies_true]
    split_ifs with hj
    · subst hj
      change (r.session? j).map _ = _
      simp [h, Receiver.cancel_fst]
    · rfl

/-- The alarm that is cancelled is the one that the port's receiver knows of. -/
theorem cancelAlarm_alarms (h : r.session? i = some s) :
    (r.cancelAlarm i).alarms = (s.receiver.cancel r.alarms).2 := by
  rw [cancelAlarm, h]
  rfl

/-- Alarms have to do with neither settings nor links. -/
theorem cancelAlarm_frame :
    (r.cancelAlarm i).settings = r.settings ∧ (r.cancelAlarm i).backend = r.backend := by
  unfold cancelAlarm
  split <;> exact ⟨rfl, rfl⟩

/-- A port whose alarm is cancelled stays registered. -/
theorem indexes_cancelAlarm : (r.cancelAlarm i).indexes = r.indexes := by
  unfold cancelAlarm
  split
  · rfl
  · exact indexes_modify fun _ => rfl

/-- **What stopping a port and cancelling its alarm come to, closing down does.** -/
theorem rel_shutdown {R : Registry → Registry → Prop} (hrefl : ∀ q, R q q)
    (htrans : ∀ q q' q'', R q q' → R q' q'' → R q q'') (hstop : ∀ q i, R q (q.stop i).2)
    (hcancel : ∀ q i, R q (q.cancelAlarm i)) (r : Registry) : R r r.shutdown := by
  have hall : ∀ (is : List IfIndex) (q : Registry),
      R q (is.foldl (fun q i => ((q.stop i).2).cancelAlarm i) q) := by
    intro is
    induction is with
    | nil => exact hrefl
    | cons i is ih =>
      exact fun q => htrans _ _ _ (htrans _ _ _ (hstop q i) (hcancel _ i)) (ih _)
  exact hall r.indexes r

/-- Forgetting a port: it is stopped, its alarm is cancelled, its session goes. -/
theorem remove_of_session? (h : r.session? i = some s) :
    (r.remove i).2 =
      { (r.stop i).2.cancelAlarm i with
        sessions := ((r.stop i).2.cancelAlarm i).sessions.filter (·.port.ifIndex ≠ i) } := by
  have hok : (r.stop i).1 = .ok () := by rw [stop, h]
  unfold remove
  split
  · rename_i heq
    simp [heq] at hok
  · rename_i r' heq
    rw [heq]

/-- There is nothing to forget of a port that is not registered. -/
theorem remove_of_none (h : r.session? i = none) : (r.remove i).2 = r := by
  rw [remove, stop, h]

/-- **A port that was forgotten is not registered, and no other port is
touched.** -/
theorem session?_remove :
    (r.remove i).2.session? j = if j = i then none else r.session? j := by
  cases h : r.session? i with
  | none =>
    rw [remove_of_none h]
    split_ifs with hj
    · exact hj ▸ h
    · rfl
  | some s =>
    rw [remove_of_session? h, session?_drop]
    split_ifs with hj
    · rfl
    · rw [session?_cancelAlarm, if_neg hj, session?_stop, if_neg hj]

/-- The ports that are left keep their order. -/
theorem indexes_remove : (r.remove i).2.indexes = r.indexes.filter (· ≠ i) := by
  cases h : r.session? i with
  | none =>
    rw [remove_of_none h]
    refine (List.filter_eq_self.2 fun k hk => ?_).symm
    have : k ≠ i := fun he => session?_eq_none_iff.1 h (he ▸ hk)
    simpa using this
  | some s =>
    have hstop : (r.stop i).2.indexes = r.indexes := stop_indexes
    rw [← hstop, ← indexes_cancelAlarm (r := (r.stop i).2) (i := i), remove_of_session? h]
    simp only [indexes, List.filter_map]
    rfl

/-- **With a port goes its alarm**, so that none is left to go off for a port that is not
registered. -/
theorem remove_alarms (h : r.session? i = some s) :
    (r.remove i).2.alarms = (s.receiver.cancel r.alarms).2 := by
  have hs : (r.stop i).2.session? i = some s.stop := by simp [session?_stop, h]
  rw [remove_of_session? h]
  exact (cancelAlarm_alarms hs).trans (by rw [stop_alarms]; rfl)

/-- Forgetting a port is no change of settings. -/
@[simp] theorem remove_settings : (r.remove i).2.settings = r.settings := by
  cases h : r.session? i with
  | none => rw [remove_of_none h]
  | some s =>
    rw [remove_of_session? h]
    exact cancelAlarm_frame.1.trans stop_settings

/-- All that forgetting a port does to links is done by stopping it. -/
theorem remove_backend : (r.remove i).2.backend = (r.stop i).2.backend := by
  cases h : r.session? i with
  | none => rw [remove_of_none h, stop_of_none h]
  | some s =>
    rw [remove_of_session? h]
    exact cancelAlarm_frame.2

/-! ### Receiving -/

/-- What a packet will tell the port it came by: nothing, unless the port is
captured and the packet is acceptable. -/
def accept? (r : Registry) (packet : Inbound) : Option Neighbor :=
  (r.session? packet.ifIndex).bind fun s =>
    if s.isCapturing then (Neighbor.ofPacket packet.bytes).toOption else none

/-- A packet tells something just to a port that is captured, and only if it is acceptable. -/
theorem accept?_eq_some_iff :
    r.accept? packet = some n ↔ ∃ s, r.session? packet.ifIndex = some s ∧
      s.isCapturing = true ∧ Neighbor.ofPacket packet.bytes = .ok n := by
  unfold accept?
  cases r.session? packet.ifIndex with
  | none => simp
  | some s =>
    cases hc : s.isCapturing <;> cases hp : Neighbor.ofPacket packet.bytes <;>
      simp [hc, Except.toOption]

/-- **A packet** that is not accepted is left alone or counted as discarded; one
that is accepted is remembered, and the alarm set or moved. -/
theorem handleInbound_cases (r : Registry) (now : Nat) (packet : Inbound) :
    (r.accept? packet = none ∧ r.handleInbound now packet = r) ∨
      ∃ s, r.session? packet.ifIndex = some s ∧ s.isCapturing = true ∧
        ((r.accept? packet = none ∧ r.handleInbound now packet = r.modify packet.ifIndex fun t =>
            { t with
              receiver := s.receiver
              counters := { t.counters with discarded := t.counters.discarded + 1 } }) ∨
          ∃ n, r.accept? packet = some n ∧ r.handleInbound now packet =
            let heard := { s.receiver with neighbor := some n }.refresh r.alarms packet.ifIndex
              (now + n.frame.ttl.toMillis)
            { r with alarms := heard.2 }.modify packet.ifIndex fun t =>
              { t with
                receiver := heard.1
                counters := { t.counters with received := t.counters.received + 1 } }) := by
  unfold handleInbound accept?
  cases hs : r.session? packet.ifIndex with
  | none => exact Or.inl ⟨rfl, rfl⟩
  | some s =>
    cases hc : s.isCapturing with
    | false => exact Or.inl ⟨by simp [hc], by simp [hc]⟩
    | true =>
      refine Or.inr ⟨s, rfl, hc, ?_⟩
      cases hp : Neighbor.ofPacket packet.bytes with
      | error e => exact Or.inl ⟨by simp [Except.toOption], by simp [hc, Receiver.process, hp]⟩
      | ok n =>
        exact Or.inr ⟨n, by simp [hc, Except.toOption], by simp [hc, Receiver.process, hp]⟩

/-- **A packet that is accepted** is remembered by the port it came by and counted, and the
port's alarm is set to the time at which the packet is to be forgotten. -/
theorem handleInbound_of_accept (hs : r.session? packet.ifIndex = some s)
    (h : r.accept? packet = some n) :
    r.handleInbound now packet =
      let heard := { s.receiver with neighbor := some n }.refresh r.alarms packet.ifIndex
        (now + n.frame.ttl.toMillis)
      { r with alarms := heard.2 }.modify packet.ifIndex fun s =>
        { s with
          receiver := heard.1
          counters := { s.counters with received := s.counters.received + 1 } } := by
  rcases handleInbound_cases r now packet with
    ⟨hno, -⟩ | ⟨t, ht, -, ⟨hno, -⟩ | ⟨n', hn, heq⟩⟩
  · cases hno.symm.trans h
  · cases hno.symm.trans h
  · obtain rfl := Option.some.inj (hs.symm.trans ht)
    obtain rfl := Option.some.inj (h.symm.trans hn)
    exact heq

/-- **A packet that is not accepted is at most counted.** -/
theorem handleInbound_of_refuse (h : r.accept? packet = none) :
    ∃ count : Counters → Counters, ∀ j,
      (r.handleInbound now packet).session? j =
        if j = packet.ifIndex then
          (r.session? j).map fun s => { s with counters := count s.counters }
        else r.session? j := by
  rcases handleInbound_cases r now packet with
    ⟨-, heq⟩ | ⟨s, hs, -, ⟨-, heq⟩ | ⟨n, hn, -⟩⟩
  · refine ⟨id, fun j => ?_⟩
    rw [heq]
    split_ifs <;> simp
  · refine ⟨fun c => { c with discarded := c.discarded + 1 }, fun j => ?_⟩
    rw [heq]
    simp only [session?_modify, implies_true]
    split_ifs with hj
    · subst hj
      rw [hs]
      rfl
    · rfl
  · cases h.symm.trans hn

/-- A packet that is not accepted puts off no alarm. -/
theorem handleInbound_alarms_of_refuse (h : r.accept? packet = none) :
    (r.handleInbound now packet).alarms = r.alarms := by
  rcases handleInbound_cases r now packet with
    ⟨-, heq⟩ | ⟨s, -, -, ⟨-, heq⟩ | ⟨n, hn, -⟩⟩
  · rw [heq]
  · rw [heq, modify_alarms]
  · cases h.symm.trans hn

/-- **A packet changes at most what the port it came by has received**, and never
what it transmits or whether it is captured. -/
theorem session?_handleInbound (r : Registry) (now : Nat) (packet : Inbound) :
    ∃ change : Session → Session,
      (∀ s, ∃ receiver received discarded, change s =
        { s with receiver, counters := { s.counters with received, discarded } }) ∧
      ∀ j, (r.handleInbound now packet).session? j =
        if j = packet.ifIndex then (r.session? j).map change else r.session? j := by
  rcases handleInbound_cases r now packet with
    ⟨-, heq⟩ | ⟨s, -, -, ⟨-, heq⟩ | ⟨n, -, heq⟩⟩
  · refine ⟨id, fun s => ⟨s.receiver, s.counters.received, s.counters.discarded, rfl⟩, fun j => ?_⟩
    rw [heq, Option.map_id_fun, id, ite_self]
  · rw [heq]
    exact ⟨_, fun _ => ⟨_, _, _, rfl⟩, fun j => session?_modify fun _ => rfl⟩
  · rw [heq]
    exact ⟨_, fun _ => ⟨_, _, _, rfl⟩, fun j => session?_modify fun _ => rfl⟩

/-- No packet changes the settings. -/
@[simp] theorem handleInbound_settings :
    (r.handleInbound now packet).settings = r.settings := by
  rcases handleInbound_cases r now packet with
    ⟨-, heq⟩ | ⟨s, -, -, ⟨-, heq⟩ | ⟨n, -, heq⟩⟩
  · rw [heq]
  · rw [heq, modify_settings]
  · rw [heq]
    rfl

/-- No packet is answered: links are as they were. -/
@[simp] theorem handleInbound_backend :
    (r.handleInbound now packet).backend = r.backend := by
  rcases handleInbound_cases r now packet with
    ⟨-, heq⟩ | ⟨s, -, -, ⟨-, heq⟩ | ⟨n, -, heq⟩⟩
  · rw [heq]
  · rw [heq, modify_backend]
  · rw [heq]
    rfl

/-- No packet registers a port. -/
theorem indexes_handleInbound : (r.handleInbound now packet).indexes = r.indexes := by
  rcases handleInbound_cases r now packet with
    ⟨-, heq⟩ | ⟨s, -, -, ⟨-, heq⟩ | ⟨n, -, heq⟩⟩
  · rw [heq]
  · rw [heq]
    exact indexes_modify fun _ => rfl
  · rw [heq]
    exact indexes_modify fun _ => rfl

/-! ### Transmitting -/

/-- **A request to transmit** finds no capture, or nothing to send, or a link
that takes no frame, or it is met. -/
theorem handleTransmit_cases (r : Registry) (i : IfIndex) :
    ((∀ s, r.session? i = some s → s.capture = none) ∧ r.handleTransmit i = r) ∨
      ∃ s c, r.session? i = some s ∧ s.capture = some c ∧
        let made := s.transmitter.current s.port.mac s.port.name
        (made.1 = [] ∧ r.handleTransmit i = r.modify i (·.countSendFailure made.2)) ∨
          (made.1 ≠ [] ∧ (∃ e, r.backend.write c.handle made.1 = .error e) ∧
            r.handleTransmit i = r.modify i (·.countSendFailure made.2.invalidate)) ∨
          (made.1 ≠ [] ∧ ∃ lo', r.backend.write c.handle made.1 = .ok lo' ∧
            r.handleTransmit i = { r with backend := lo' }.modify i (·.countSent made.2)) := by
  unfold handleTransmit
  cases hs : r.session? i with
  | none => exact Or.inl ⟨by simp, rfl⟩
  | some s =>
    cases hc : s.capture with
    | none => exact Or.inl ⟨by simpa using hc, by simp [hc]⟩
    | some c =>
      refine Or.inr ⟨s, c, rfl, hc, ?_⟩
      by_cases hb : (s.transmitter.current s.port.mac s.port.name).1 = []
      · exact Or.inl ⟨hb, by simp [hc, hb]⟩
      · cases hw : r.backend.write c.handle (s.transmitter.current s.port.mac s.port.name).1 with
        | error e => exact Or.inr (Or.inl ⟨hb, ⟨e, hw⟩, by simp [hc, hb, hw]⟩)
        | ok lo' => exact Or.inr (Or.inr ⟨hb, lo', hw, by simp [hc, hb, hw]⟩)

/-! ### Alarms that go off -/

/-- **A port whose alarm has gone off** forgets its neighbour, which is counted if there was one;
no other port is touched. -/
theorem session?_handleExpiry :
    (r.handleExpiry i).session? j =
      if j = i then (r.session? j).map fun s =>
        { s with
          receiver := {}
          counters :=
            if s.receiver.neighbor.isSome then
              { s.counters with ageouts := s.counters.ageouts + 1 }
            else s.counters }
      else r.session? j := by
  unfold handleExpiry
  cases hs : r.session? i with
  | none => by_cases hj : j = i <;> simp [hj, hs]
  | some s =>
    simp only [Receiver.expire, session?_modify, implies_true]
    by_cases hj : j = i
    · subst hj
      rw [if_pos rfl, if_pos rfl, hs]
      rfl
    · rw [if_neg hj, if_neg hj]

/-- The alarm was taken out of the queue before the port is told: what is done then concerns the
port alone. -/
theorem handleExpiry_frame :
    (r.handleExpiry i).settings = r.settings ∧ (r.handleExpiry i).backend = r.backend ∧
      (r.handleExpiry i).alarms = r.alarms := by
  unfold handleExpiry
  cases r.session? i with
  | none => exact ⟨rfl, rfl, rfl⟩
  | some s => exact ⟨rfl, rfl, rfl⟩

/-- A port whose alarm has gone off stays registered. -/
theorem indexes_handleExpiry : (r.handleExpiry i).indexes = r.indexes := by
  unfold handleExpiry
  cases r.session? i with
  | none => rfl
  | some s => exact indexes_modify fun _ => rfl

/-! ### Timing -/

/-- **Other timing reaches every port**, captured or not. -/
theorem session?_retime :
    (r.retime timing).session? j = (r.session? j).map (·.retime timing) :=
  @find?_map_session j (·.retime timing) (fun _ => rfl) r.sessions

/-- Other timing registers no port and forgets none. -/
theorem indexes_retime : (r.retime timing).indexes = r.indexes := by
  simp only [indexes, retime, List.map_map]
  rfl

/-! ### Following what was recorded -/

/-- A port that is not registered has nothing to follow. -/
theorem follow_of_none (h : r.session? i = none) : r.follow i on = r := by
  unfold follow
  split_ifs
  · rw [start, h]
  · exact stop_of_none h

/-- **A change of a link's state** is recorded, and then the port follows it. -/
theorem reportLink_snd {state : LinkState} :
    (r.reportLink i state).2 = (r.setLink i state).2.follow i (state = .up) := by
  unfold reportLink
  cases h : r.session? i with
  | none =>
    have hset : r.setLink i state = (.error (.portNotFound i), r) := by rw [setLink, h]
    rw [hset]
    exact (follow_of_none h).symm
  | some s =>
    have hset : r.setLink i state = (.ok (), r.modify i fun s => { s with link := state }) := by
      rw [setLink, h]
    rw [hset]
    cases state <;> rfl

/-- **A port that is switched on or off** is recorded so, and then follows. -/
theorem apply_portEnable :
    (r.apply (.portEnable i on)).2 = (r.setPortEnabled i on).follow i on := by
  cases h : r.session? i with
  | none =>
    rw [setPortEnabled, modify_of_none h, follow_of_none h]
    simp only [apply, h]
  | some s => simp only [apply, h]

/-- That the protocol runs or not is recorded first; then all ports follow, in their order. -/
theorem apply_globalEnable :
    (r.apply (.globalEnable on)).2 = (r.setEnabled on).followAll r.indexes on := rfl

/-- **Timing is adopted if neither number is zero.** -/
theorem apply_timing_cases (r : Registry) (interval multiplier : Nat) :
    ((interval = 0 ∨ multiplier = 0) ∧ (r.apply (.timing interval multiplier)).2 = r) ∨
      ∃ timing : Timing, timing.interval = interval ∧ timing.multiplier = multiplier ∧
        (r.apply (.timing interval multiplier)).2 = r.retime timing := by
  unfold apply Timing.ofNumbers
  by_cases hi : interval = 0
  · exact Or.inl ⟨Or.inl hi, by simp [hi]⟩
  · by_cases hm : multiplier = 0
    · exact Or.inl ⟨Or.inr hm, by simp [hi, hm]⟩
    · exact Or.inr ⟨⟨interval, multiplier, Nat.pos_of_ne_zero hi, Nat.pos_of_ne_zero hm⟩,
        rfl, rfl, by simp [hi, hm]⟩

end Registry
end Lldp
