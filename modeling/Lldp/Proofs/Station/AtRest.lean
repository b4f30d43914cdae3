/-
# A station at rest

A station that is shut down need not have come to an end: its tasks go on, what lies in
its mailboxes may still be taken out and handed over, and time passes for its alarms.
None of this reaches a port that is at rest (`stays_after`), so whatever else
happens, short of a request, the ports keep what they have, nothing is opened and nothing
is written (`stays_run`).

That a station is at rest when it is shut down takes that its captures and alarms were in
order until then.  Captures always are (`inOrder_run`); alarms are as long as nobody has
shut the station down before or told a port of an alarm that has not gone off
(`alarmsAgree_run`).
-/

import Lldp.Proofs.Registry.AtRest
import Lldp.Proofs.Station.Readers
import Lldp.Proofs.Station.Sending

namespace Lldp

/-! ### What happens at rest -/

/-- Whether an incident asks nothing of the registry that would wake a port: tasks make
their steps, ports are stopped, what was captured and triggered is handed over, alarms go
off that have been set, links and the time go on. -/
def Incident.isPassive : Incident → Bool
  | .operation (.request _) | .operation (.setLink ..) | .operation (.start _) | .expiry _ => false
  | _ => true

namespace Registry

variable {r r' r'' : Registry}

/-- Ports, settings, alarms and handles are as they were, no more tickers wait, and nothing
was written. -/
structure Stays (r r' : Registry) : Prop where
  sessions : r'.sessions = r.sessions
  settings : r'.settings = r.settings
  upPorts : r'.upPorts = r.upPorts
  alarms : r'.alarms.alarms = r.alarms.alarms
  handles : r'.backend.handles = r.backend.handles
  waiting : r'.triggers.waiting = r.triggers.waiting
  sent : ∀ link, r'.backend.sentAt link = r.backend.sentAt link

theorem Stays.refl (r : Registry) : Stays r r := ⟨rfl, rfl, rfl, rfl, rfl, rfl, fun _ => rfl⟩

theorem Stays.trans (h : Stays r r') (h' : Stays r' r'') : Stays r r'' where
  sessions := h'.sessions.trans h.sessions
  settings := h'.settings.trans h.settings
  upPorts := h'.upPorts.trans h.upPorts
  alarms := h'.alarms.trans h.alarms
  handles := h'.handles.trans h.handles
  waiting := h'.waiting.trans h.waiting
  sent link := (h'.sent link).trans (h.sent link)

/-- What stays as it is at rest is at rest. -/
theorem AtRest.of_stays (h : r.AtRest) (k : Stays r r') : r'.AtRest where
  distinct := by rw [Distinct, indexes, k.sessions]; exact h.distinct
  sessions := k.sessions ▸ h.sessions
  upPorts := k.upPorts.trans h.upPorts
  alarms := k.alarms.trans h.alarms
  handles := k.handles ▸ h.handles
  waiting := k.waiting.trans h.waiting

end Registry

namespace Station

variable {st : Station} {x : Incident} {incidents : List Incident}

/-- **A task reaches no port that is at rest**, since none has a ticker. -/
theorem stays_step (h : st.registry.AtRest) (hranked : st.registry.Ranked) (task : StationTask) :
    st.registry.Stays (st.step task).registry := by
  rcases step_cases hranked task with
    ⟨heq, -⟩ | ⟨t, phase?, lo, box, -, -, hadvance, heq⟩ | ⟨i, s, _, _, _, -, hs, hticker, -⟩
  · rw [heq]
    exact .refl _
  · have hbecome : (st.become t.generation phase? lo box).registry =
        { st.registry with
          backend := lo
          tasks := (st.become t.generation phase? lo box).registry.tasks } := by
      cases phase? <;> rfl
    rw [heq, hbecome]
    exact ⟨rfl, rfl, rfl, rfl, hadvance.handles, rfl, fun _ => hadvance.sentAt⟩
  · have hnone : s.transmitter.ticker = none :=
      (congrArg (·.transmitter.ticker) (h.sessions s (Registry.mem_of_session? hs))).symm
    rw [hnone] at hticker
    cases hticker

/-- **Nothing that asks nothing of the registry reaches a port that is at rest.** -/
theorem stays_after (h : st.registry.AtRest) (hranked : st.registry.Ranked)
    (hx : x.isPassive = true) : st.registry.Stays (st.after x).registry := by
  cases x with
  | task task => exact stays_step h hranked task
  | operation o =>
    cases o with
    | request q => cases hx
    | setLink i state => cases hx
    | start i => cases hx
    | stop i =>
      show st.registry.Stays (st.registry.stop i).2
      rw [h.stop]
      exact .refl _
    | inbound packet =>
      show st.registry.Stays (st.registry.handleInbound st.now packet)
      rw [h.handleInbound]
      exact .refl _
    | transmit i =>
      show st.registry.Stays (st.registry.handleTransmit i)
      rw [h.handleTransmit]
      exact .refl _
    | fire i =>
      have hnone : st.registry.alarms.dueOf? st.now i = none := by
        rw [Expiry.dueOf?, h.alarms]
        rfl
      show st.registry.Stays ((st.registry.alarms.dueOf? st.now i).elim st.registry _)
      rw [hnone]
      exact .refl _
    | links use =>
      exact ⟨rfl, rfl, rfl, rfl, Loopback.handles_use, rfl, fun _ => Loopback.sentAt_use⟩
    | pass ms => exact .refl _
  | expiry i => cases hx
  | shutdown =>
    show st.registry.Stays st.registry.shutdown
    rw [h.shutdown]
    exact .refl _
  | packet deliver =>
    unfold after
    cases st.inbound.take? with
    | none => exact .refl _
    | some item =>
      cases deliver with
      | true =>
        show st.registry.Stays (st.registry.handleInbound st.now item.1)
        rw [h.handleInbound]
        exact .refl _
      | false => exact .refl _
  | trigger deliver =>
    unfold after
    cases htake : st.registry.triggers.take? with
    | none => exact .refl _
    | some item =>
      obtain ⟨rest, -, hbox⟩ := Mailbox.take?_eq_some_iff.1 htake
      have htaken : st.registry.Stays { st.registry with triggers := item.2 } :=
        ⟨rfl, rfl, rfl, rfl, rfl, by rw [hbox], fun _ => rfl⟩
      cases deliver with
      | true =>
        show st.registry.Stays (Registry.handleTransmit { st.registry with triggers := item.2 } _)
        rw [(h.of_stays htaken).handleTransmit]
        exact htaken
      | false => exact htaken
  | turn => exact ⟨rfl, rfl, rfl, rfl, rfl, rfl, fun _ => rfl⟩
  | exit => exact ⟨rfl, rfl, rfl, rfl, rfl, rfl, fun _ => rfl⟩
  | close => exact ⟨rfl, rfl, rfl, rfl, rfl, rfl, fun _ => rfl⟩

/-- **A station at rest stays as it is**, until something is asked of it. -/
theorem stays_run (h : st.registry.AtRest) (hranked : st.registry.Ranked)
    (hpassive : ∀ x ∈ incidents, x.isPassive = true) :
    st.registry.Stays (st.run incidents).registry := by
  induction incidents generalizing st with
  | nil => exact .refl _
  | cons x incidents ih =>
    rw [List.forall_mem_cons] at hpassive
    have hfirst := stays_after h hranked hpassive.1
    exact hfirst.trans (ih (h.of_stays hfirst) (ranked_after hranked x) hpassive.2)

/-! ### Alarms in order -/

/-- **Every incident keeps alarms and receivers together**, but that the station is shut
down and that a port is told of an alarm that has not gone off. -/
theorem alarmsAgree_after (h : st.registry.AlarmsAgree) (hshut : x ≠ .shutdown)
    (hexpiry : ∀ i, x ≠ .expiry i) : (st.after x).registry.AlarmsAgree := by
  cases x with
  | task task =>
    obtain ⟨-, surroundings, hdrift⟩ := drifts_step st task
    rw [after_task, hdrift]
    exact h.keep Registry.keepsReceivers_surround
  | operation o =>
    obtain ⟨e, he, -⟩ := h.operate_eq_react st.now o
    show (st.registry.operate st.now o).2.AlarmsAgree
    rw [he]
    exact h.react e
  | expiry i => exact absurd rfl (hexpiry i)
  | shutdown => exact absurd rfl hshut
  | packet deliver =>
    unfold after
    cases st.inbound.take? with
    | none => exact h
    | some item =>
      cases deliver with
      | true =>
        have hhanded : (st.registry.react st.now (.inbound item.1)).AlarmsAgree := h.react _
        exact hhanded
      | false => exact h
  | trigger deliver =>
    unfold after
    cases st.registry.triggers.take? with
    | none => exact h
    | some item =>
      have htaken : { st.registry with triggers := item.2 }.AlarmsAgree :=
        h.keep ⟨fun _ => rfl, rfl, rfl, rfl, rfl⟩
      cases deliver with
      | true => exact htaken.keep Registry.keepsReceivers_transmit
      | false => exact htaken
  | turn => exact h.keep ⟨fun _ => rfl, rfl, rfl, rfl, rfl⟩
  | exit => exact h.keep ⟨fun _ => rfl, rfl, rfl, rfl, rfl⟩
  | close => exact h.keep ⟨fun _ => rfl, rfl, rfl, rfl, rfl⟩

/-- **Alarms and receivers are together along every run** in which the station was not shut
down and no port told of an alarm that had not gone off. -/
theorem alarmsAgree_run (h : st.registry.AlarmsAgree) (hshut : Incident.shutdown ∉ incidents)
    (hexpiry : ∀ i, Incident.expiry i ∉ incidents) : (st.run incidents).registry.AlarmsAgree := by
  induction incidents generalizing st with
  | nil => exact h
  | cons x incidents ih =>
    simp only [List.mem_cons, not_or] at hshut hexpiry
    exact ih (alarmsAgree_after h (Ne.symm hshut.1) fun i => Ne.symm (hexpiry i).1) hshut.2
      fun i => (hexpiry i).2

/-! ### Handles -/

/-- **No handle is ever given up**: what was opened before an incident is there after it. -/
theorem handlesKept_after (hranked : st.registry.Ranked) (x : Incident) :
    st.registry.HandlesKept (st.after x).registry := by
  rcases launched_cases hranked x with
    haltered | ⟨-, ⟨task, -, heq⟩ | ⟨use, -, heq⟩ | ⟨-, heq⟩⟩
  · exact haltered.handlesKept
  · rw [heq]
    exact .of_handles (handles_step hranked task)
  · rw [heq]
    exact .of_handles Loopback.handles_use
  · rw [heq]
    exact .of_handles rfl

theorem handlesKept_run (hranked : st.registry.Ranked) :
    st.registry.HandlesKept (st.run incidents).registry := by
  induction incidents generalizing st with
  | nil => exact .of_handles rfl
  | cons x incidents ih =>
    exact (handlesKept_after hranked x).trans (ih (ranked_after hranked x))

end Station
end Lldp
