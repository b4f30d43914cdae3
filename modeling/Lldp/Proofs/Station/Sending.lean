/-
# What a station writes

A request to transmit that is met on a captured port writes the frame that the port's
transmitter gives out, if there is one and if the link takes it (`Registry.written?`), and
nothing else (`sentAt_handleTransmit`).

Tasks read and wait but write nothing (`sentAt_step`), and what others do with links is no
write (`Loopback.sentAt_use`).

Whatever happens to a station, all its ports stay current (`allCurrent_run`), so the frame
is the one that the port's address and name and the timing in force call for
(`AllCurrent.packet_of_written?`).
-/

import Lldp.Proofs.Registry.Currency
import Lldp.Proofs.Station.Advances

namespace Lldp

namespace Loopback

variable {lo lo' : Loopback} {handle ticket link k now : Nat}

/-- What others do with links is no write. -/
theorem sentAt_use {use : LinkUse} : (lo.use use).sentAt link = lo.sentAt link := by
  cases use with
  | inject name frames => exact sentAt_onLink fun _ => rfl
  | failOpen name fail => rfl
  | failWrite name fail => exact sentAt_onLink fun _ => rfl

theorem sentAt_queueReader : (lo.queueReader handle ticket).sentAt link = lo.sentAt link := by
  unfold queueReader
  split
  · rfl
  · exact elim_modify fun _ => rfl

theorem sentAt_of_serve {ended : Option (Nat × ReadOutcome)}
    (h : lo.serve k now = (ended, lo')) : lo'.sentAt link = lo.sentAt link := by
  unfold serve at h
  split at h
  · obtain ⟨-, rfl⟩ := Prod.mk.inj h
    rfl
  · rename_i l hl
    obtain ⟨-, rfl⟩ := Prod.mk.inj h
    have hsent : (l.serve now).2.sent = l.sent := by
      unfold Link.serve
      split
      · rfl
      · split
        · rfl
        · dsimp only
          split_ifs <;> rfl
    simp only [sentAt, List.getElem?_set]
    split_ifs with hlink hbound
    · rw [← hlink, hl]
      exact hsent
    · rw [← hlink, List.getElem?_eq_none (Nat.le_of_not_lt hbound)]
    · rfl

end Loopback

namespace Registry

variable {r : Registry} {i : IfIndex} {s : Session} {bytes : Octets}

/-- The frame that is written when a port is asked to transmit, if one is. -/
def written? (r : Registry) (i : IfIndex) : Option Octets :=
  (r.session? i).bind fun s => s.capture.bind fun c =>
    let bytes := (s.transmitter.current s.port.mac s.port.name).1
    if bytes.isEmpty then none else (r.backend.write c.handle bytes).toOption.map fun _ => bytes

/-- **What a request to transmit puts on links**: the frame on the link that the port is
captured on, or nothing on any. -/
theorem sentAt_handleTransmit (r : Registry) (i : IfIndex) :
    (r.written? i = none ∧
      ∀ link, (r.handleTransmit i).backend.sentAt link = r.backend.sentAt link) ∨
    ∃ bytes s c hd, r.written? i = some bytes ∧ r.session? i = some s ∧ s.capture = some c ∧
      r.backend.handles[c.handle]? = some hd ∧
      ∀ link, (r.handleTransmit i).backend.sentAt link =
        r.backend.sentAt link ++ if link = hd.link then [bytes] else [] := by
  rcases handleTransmit_cases r i with
    ⟨hidle, heq⟩ | ⟨s, c, hs, hc, ⟨hnil, heq⟩ | ⟨hne, ⟨e, hw⟩, heq⟩ | ⟨hne, lo, hw, heq⟩⟩
  · refine Or.inl ⟨?_, fun link => by rw [heq]⟩
    cases hs : r.session? i with
    | none => rw [written?, hs]; rfl
    | some s => simp [written?, hs, hidle s hs]
  · refine Or.inl ⟨by simp [written?, hs, hc, hnil], fun link => ?_⟩
    rw [heq, modify_backend]
  · refine Or.inl ⟨by simp [written?, hs, hc, hne, hw, Except.toOption], fun link => ?_⟩
    rw [heq, modify_backend]
  · obtain ⟨hd, hhd, hsent⟩ := Loopback.sentAt_of_write hw
    have hwritten : r.written? i = some (s.transmitter.current s.port.mac s.port.name).1 := by
      simp [written?, hs, hc, hne, hw, Except.toOption]
    refine Or.inr ⟨_, s, c, hd, hwritten, hs, hc, hhd, fun link => ?_⟩
    rw [heq]
    exact hsent link

namespace AllCurrent

/-- **What is written is current.** -/
theorem packet_of_written? (h : r.AllCurrent) (hs : r.session? i = some s)
    (hw : r.written? i = some bytes) :
    Transmitter.packet r.settings.timing s.port.mac s.port.name = .ok bytes := by
  rw [written?, hs, Option.bind_some] at hw
  obtain ⟨c, -, hmade⟩ := Option.bind_eq_some_iff.1 hw
  rw [h.fst_current hs] at hmade
  dsimp only at hmade
  split_ifs at hmade with hempty
  obtain ⟨-, -, rfl⟩ := Option.map_eq_some_iff.1 hmade
  cases hp : Transmitter.packet r.settings.timing s.port.mac s.port.name with
  | ok bytes => rfl
  | error e =>
    rw [hp] at hempty
    exact absurd rfl hempty

/-- A port has the timing in force. -/
theorem timing_of_session? (h : r.AllCurrent) (hs : r.session? i = some s) :
    s.transmitter.timing = r.settings.timing :=
  (h i s.advert (advert?_of_session? hs)).adopted

theorem surround (h : r.AllCurrent) {x : Surroundings} : (r.surround x).AllCurrent :=
  h.shed (.of_eq rfl fun _ => advert?_surround)

theorem handleExpiry (h : r.AllCurrent) {j : IfIndex} : (r.handleExpiry j).AllCurrent := by
  refine h.shed (.of_eq (by rw [handleExpiry_frame.1]) fun i => ?_)
  refine advert?_of_same session?_handleExpiry fun s => ?_
  simp only [Session.advert]
  split_ifs <;> rfl

theorem shutdown (h : r.AllCurrent) : r.shutdown.AllCurrent := by
  have hcancel : ∀ (q : Registry) j, Sheds q (q.cancelAlarm j) := fun q j =>
    .of_eq (by rw [cancelAlarm_frame.1]) fun i => advert?_of_same session?_cancelAlarm fun _ => rfl
  have hstop : ∀ (q : Registry) j, Sheds q (q.follow j false) := fun _ _ => .follow
  exact h.shed (rel_shutdown (fun _ => .of_eq rfl fun _ => rfl) (fun _ _ _ => .trans) hstop
    hcancel r)

/-- **Every operation keeps every port current.** -/
theorem operate (h : r.AllCurrent) (now : Nat) (o : Operation) :
    (r.operate now o).2.AllCurrent := by
  have hreact : ∀ e, (r.react now e).AllCurrent := fun e => h.react e
  cases o with
  | request q => exact hreact (.request q)
  | setLink i state => exact hreact (.setLink i state)
  | start i => exact hreact (.start i)
  | stop i => exact hreact (.stop i)
  | inbound packet => exact hreact (.inbound packet)
  | transmit i => exact h.transmit
  | fire i =>
    show ((r.alarms.dueOf? now i).elim r (r.expire now)).AllCurrent
    cases r.alarms.dueOf? now i with
    | none => exact h
    | some a =>
      have htaken : { r with alarms := r.alarms.take now a }.AllCurrent := h
      exact htaken.handleExpiry
  | links use => exact h
  | pass ms => exact h

end AllCurrent
end Registry

namespace Station

variable {st : Station}

/-- A task that reads a capture writes nothing. -/
theorem Advance.sentAt {t : CaptureTask} {phase? : Option CapturePhase} {lo : Loopback}
    {box : Mailbox Nat Inbound} {link : Nat} (h : st.Advance t phase? lo box) :
    lo.sentAt link = st.registry.backend.sentAt link := by
  cases h with
  | queued => exact Loopback.sentAt_queueReader
  | got _ _ _ h => exact Loopback.sentAt_of_serve h
  | tired _ _ _ h => exact Loopback.sentAt_of_serve h
  | lost _ _ _ h => exact Loopback.sentAt_of_serve h
  | waits _ _ _ h => exact Loopback.sentAt_of_serve h
  | _ => rfl

/-- **Tasks write nothing.** -/
theorem sentAt_step (hranked : st.registry.Ranked) (task : StationTask) (link : Nat) :
    (st.step task).registry.backend.sentAt link = st.registry.backend.sentAt link := by
  rcases step_cases hranked task with
    ⟨heq, -⟩ | ⟨t, phase?, lo, box, -, -, hadvance, heq⟩ |
    ⟨i, s, ticker, triggers, stamp, -, -, -, heq⟩
  · rw [heq]
  · rw [heq, backend_become, hadvance.sentAt]
  · rw [heq]
    rfl

/-- **Every incident keeps every port current.** -/
theorem allCurrent_after (h : st.registry.AllCurrent) (x : Incident) :
    (st.after x).registry.AllCurrent := by
  cases x with
  | task task =>
    obtain ⟨-, surroundings, hdrift⟩ := drifts_step st task
    rw [after_task, hdrift]
    exact h.surround
  | operation o => exact h.operate st.now o
  | expiry i => exact h.handleExpiry
  | shutdown => exact h.shutdown
  | packet deliver =>
    unfold after
    cases st.inbound.take? with
    | none => exact h
    | some item =>
      cases deliver with
      | true =>
        have hpacket : (st.registry.react st.now (.inbound item.1)).AllCurrent := h.react _
        exact hpacket
      | false => exact h
  | trigger deliver =>
    unfold after
    cases st.registry.triggers.take? with
    | none => exact h
    | some item =>
      have htaken : { st.registry with triggers := item.2 }.AllCurrent := h
      cases deliver with
      | true => exact htaken.transmit
      | false => exact htaken
  | turn => exact h
  | exit => exact h
  | close => exact h

/-- **Along every run all ports are current.** -/
theorem allCurrent_run (settings : Settings) (incidents : List Incident) :
    ((ofSettings settings).run incidents).registry.AllCurrent := by
  induction incidents using List.reverseRecOn with
  | nil => exact .ofSettings settings
  | append_singleton incidents x ih =>
    rw [run_concat]
    exact allCurrent_after ih x

end Station

end Lldp
