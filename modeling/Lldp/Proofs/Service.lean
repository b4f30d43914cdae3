/-
# A running service keeps to the course of events

What is proved of every course of events is proved of the service, since a
service is a registry whose events come from somewhere.  Until it sees the exit
signal, each step of each of its tasks lets a few events happen one after another
(`Service.reaches_step`): the dispatcher meets a request, hands over a packet or a
request to transmit, or lets an alarm go off; a task that reads a capture and a
ticker move only what surrounds the registry (`Station.drifts_step`); a client and
the link-state controller do not reach it at all.

So whatever is done with a service (`Service.OnCourse.call`,
`Service.OnCourse.sleep`, …), it is where a course of events leads, and its alarms
belong to its sessions, its captured ports are admitted and what its ports keep to
send is current.
-/

import Lldp.Proofs.Machine
import Lldp.Proofs.Registry.AgeOut
import Lldp.Proofs.Registry.Currency
import Lldp.Proofs.Registry.Gating
import Lldp.Proofs.Station
import Lldp.Service

namespace Lldp

namespace Service

variable {s : Service}

/-- Where the registry of a service stands. -/
def moment (s : Service) : Moment := ⟨s.station.registry, s.station.now⟩

/-- The station and whether the service is closing down are as they were. -/
def Spares (s s' : Service) : Prop := s'.station = s.station ∧ s'.exiting = s.exiting

/-- A client that asks does not reach the station. -/
theorem spares_submit (number : Nat) (request : Request) : s.Spares (s.submit number request) := by
  unfold submit
  split <;> exact ⟨rfl, rfl⟩

/-- A client that goes on does not reach the station. -/
theorem spares_clientStep (number : Nat) : s.Spares (s.clientStep number) := by
  unfold clientStep
  dsimp only
  split_ifs <;> exact ⟨rfl, rfl⟩

/-- Nor does the controller's task. -/
theorem spares_watchStep : s.Spares s.watchStep := by
  unfold watchStep
  cases s.watch.pending with
  | some report =>
    dsimp only
    split <;> exact ⟨rfl, rfl⟩
  | none =>
    dsimp only
    by_cases hexit : s.watch.exiting = true
    · rw [if_pos hexit]
      exact ⟨rfl, rfl⟩
    · rw [if_neg hexit]
      cases s.watch.notices.take? with
      | none =>
        dsimp only
        split_ifs <;> exact ⟨rfl, rfl⟩
      | some item =>
        obtain ⟨notice, notices⟩ := item
        dsimp only
        cases LinkController.interpret notice with
        | error e => exact ⟨rfl, rfl⟩
        | ok report => exact spares_submit watcher _

/-- Where the station is spared, nothing happens to the registry. -/
theorem Spares.reaches {s' : Service} (h : s.Spares s') : s.moment.Reaches s'.moment := by
  rw [moment, moment, h.1]
  exact .refl _

/-- A dispatcher that breaks down leaves the registry without tickers and without
requests to transmit. -/
theorem reaches_breakDown : s.moment.Reaches s.breakDown.moment :=
  .surround s.moment ⟨s.station.registry.backend, s.station.registry.tasks,
    s.breakDown.station.registry.triggers, s.station.registry.alarms.wheel, fun _ _ => none⟩

/-- A packet is handed over, and the dispatcher may break down over it. -/
theorem reaches_deliver (packet : Inbound) : s.moment.Reaches (s.deliver packet).moment := by
  have hinbound := Moment.Reaches.event s.moment (e := .inbound packet) rfl
  unfold deliver
  dsimp only
  split_ifs
  · exact hinbound.trans reaches_breakDown
  · exact hinbound

/-- **What the dispatcher does before it sees the exit signal** is to let events
happen. -/
theorem reaches_dispatch (h : s.exiting = false) : s.moment.Reaches s.dispatch.moment := by
  have hnot : ¬s.exiting = true := by simp [h]
  unfold dispatch
  rw [if_neg hnot]
  cases s.commands.take? with
  | some item =>
    obtain ⟨⟨number, request⟩, commands⟩ := item
    exact .event s.moment (e := .request request) rfl
  | none =>
    cases s.station.inbound.take? with
    | some item =>
      obtain ⟨packet, inbound⟩ := item
      exact @reaches_deliver (s.onStation fun st => { st with inbound }) packet
    | none =>
      dsimp only
      cases s.station.registry.triggers.take? with
      | some item =>
        obtain ⟨i, triggers⟩ := item
        have htaken := Moment.Reaches.surround s.moment
          ⟨s.station.registry.backend, s.station.registry.tasks, triggers,
            s.station.registry.alarms.wheel, fun _ t => t⟩
        rw [Registry.surround_of_tickers] at htaken
        exact htaken.trans (.event _ (e := .transmit i) rfl)
      | none =>
        dsimp only
        cases hdue : s.station.registry.expireNext? s.station.now with
        | some fired =>
          obtain ⟨i, registry⟩ := fired
          obtain ⟨key, hkey⟩ := Registry.expireNext?_eq_react hdue
          have hexpire := Moment.Reaches.event s.moment (e := .expire key) rfl
          have hafter : (s.onRegistry fun _ => registry).moment =
              ⟨s.station.registry.react s.station.now (.expire key), s.station.now⟩ := by
            rw [← hkey]
            rfl
          show s.moment.Reaches (s.onRegistry fun _ => registry).moment
          rw [hafter]
          exact hexpire
        | none =>
          have hturned := Moment.Reaches.surround s.moment
            ⟨s.station.registry.backend, s.station.registry.tasks, s.station.registry.triggers,
              s.station.registry.alarms.wheel.turn s.station.now, fun _ t => t⟩
          rw [Registry.surround_of_tickers] at hturned
          exact hturned

/-- **Each step of each task lets events happen**, as long as the service has not
been told to close down. -/
theorem reaches_step (task : ServiceTask) (h : s.exiting = false) :
    s.moment.Reaches (s.step task).moment := by
  unfold step
  cases task with
  | dispatcher =>
    dsimp only
    split_ifs
    · exact reaches_dispatch h
    · exact .refl s.moment
  | client number =>
    dsimp only
    split_ifs
    · exact (spares_clientStep number).reaches
    · exact .refl s.moment
  | watch =>
    dsimp only
    split_ifs
    · exact spares_watchStep.reaches
    · exact .refl s.moment
  | station task =>
    obtain ⟨hnow, x, hx⟩ := s.station.drifts_step task
    have hdrift := Moment.Reaches.surround s.moment x
    have hafter : (s.onStation (Station.step task)).moment =
        ⟨s.station.registry.surround x, s.station.now⟩ := by
      rw [← hx, ← hnow]
      rfl
    exact hafter ▸ hdrift

/-! ### What stays as it was -/

/-- The dispatcher gives no exit signal, and takes no time. -/
theorem dispatch_keeps :
    s.dispatch.exiting = s.exiting ∧ s.dispatch.station.now = s.station.now := by
  unfold dispatch
  by_cases hexit : s.exiting = true
  · rw [if_pos hexit]
    exact ⟨rfl, rfl⟩
  · rw [if_neg hexit]
    cases s.commands.take? with
    | some item => exact ⟨rfl, rfl⟩
    | none =>
      cases s.station.inbound.take? with
      | some item =>
        dsimp only [deliver]
        split_ifs <;> exact ⟨rfl, rfl⟩
      | none =>
        dsimp only
        cases s.station.registry.triggers.take? with
        | some item => exact ⟨rfl, rfl⟩
        | none =>
          dsimp only
          cases s.station.registry.expireNext? s.station.now <;> exact ⟨rfl, rfl⟩

/-- **No task tells the service to close down or sets its clock.** -/
theorem step_keeps (task : ServiceTask) (s : Service) :
    (s.step task).exiting = s.exiting ∧ (s.step task).station.now = s.station.now := by
  unfold step
  cases task with
  | dispatcher =>
    dsimp only
    split_ifs
    · exact dispatch_keeps
    · exact ⟨rfl, rfl⟩
  | client number =>
    dsimp only
    split_ifs
    · obtain ⟨hstation, hexit⟩ := spares_clientStep (s := s) number
      exact ⟨hexit, by rw [hstation]⟩
    · exact ⟨rfl, rfl⟩
  | watch =>
    dsimp only
    split_ifs
    · obtain ⟨hstation, hexit⟩ := spares_watchStep (s := s)
      exact ⟨hexit, by rw [hstation]⟩
    · exact ⟨rfl, rfl⟩
  | station task => exact ⟨rfl, (s.station.drifts_step task).now⟩

/-! ### Who ends the dispatcher -/

/-- A dispatcher that has something to serve is there. -/
theorem running_of_dispatcherReady (h : s.dispatcherReady = true) : s.running = true := by
  unfold dispatcherReady at h
  exact (Bool.and_eq_true _ _ ▸ h).1

/-- No client does, nor does the controller's task. -/
theorem running_submit (number : Nat) (request : Request) :
    (s.submit number request).running = s.running := by
  unfold submit
  split <;> rfl

/-- Clients do not end the dispatcher. -/
theorem running_clientStep (number : Nat) : (s.clientStep number).running = s.running := by
  unfold clientStep
  dsimp only
  split_ifs <;> rfl

/-- Nor does the controller. -/
theorem running_watchStep : s.watchStep.running = s.running := by
  unfold watchStep
  cases s.watch.pending with
  | some report =>
    dsimp only
    split <;> rfl
  | none =>
    dsimp only
    by_cases hexit : s.watch.exiting = true
    · rw [if_pos hexit]
      rfl
    · rw [if_neg hexit]
      cases s.watch.notices.take? with
      | none =>
        dsimp only
        split_ifs <;> rfl
      | some item =>
        dsimp only
        cases LinkController.interpret item.1 with
        | error e => rfl
        | ok report => exact running_submit watcher _

/-! ### Where clients stand -/

section Clients

variable {number other : Nat} {phase : ClientPhase}

/-- A client that is moved is where it was moved to. -/
theorem client_setClient (h : number < s.clients.length) :
    (s.setClient number phase).client number = phase := by
  simp [client, setClient, h]

/-- To move a client moves no other. -/
theorem client_setClient_of_ne (h : other ≠ number) :
    (s.setClient number phase).client other = s.client other := by
  simp [client, setClient, List.getElem?_set_ne h.symm]

end Clients

/-! ### Using a service -/

variable {settings : Settings}

/-- A service that has not been told to close down and is where a course of events
leads. -/
structure OnCourse (settings : Settings) (s : Service) : Prop where
  running : s.exiting = false
  reached : (Moment.ofSettings settings).Reaches s.moment

namespace OnCourse

/-- A service begins where courses of events begin. -/
theorem ofSettings (settings : Settings) : OnCourse settings (.ofSettings settings) :=
  ⟨rfl, .refl _⟩

/-- **Every step of a task** keeps to the course. -/
theorem step (h : s.OnCourse settings) (task : ServiceTask) : (s.step task).OnCourse settings where
  running := (step_keeps task s).1.trans h.running
  reached := h.reached.trans (reaches_step task h.running)

/-- What spares the station keeps to it. -/
theorem of_spares {s' : Service} (h : s.OnCourse settings) (k : s.Spares s') :
    s'.OnCourse settings where
  running := k.2.trans h.running
  reached := h.reached.trans k.reaches

/-- Others may do with links as they like. -/
theorem onBackend (h : s.OnCourse settings) (change : Loopback → Loopback) :
    (s.onStation (·.onBackend change)).OnCourse settings := by
  have hchanged := Moment.Reaches.surround s.moment
    ⟨change s.station.registry.backend, s.station.registry.tasks, s.station.registry.triggers,
      s.station.registry.alarms.wheel, fun _ t => t⟩
  rw [Registry.surround_of_tickers] at hchanged
  exact ⟨h.running, h.reached.trans hchanged⟩

/-- **So does running to a standstill.** -/
theorem settle (h : s.OnCourse settings) : s.settle.OnCourse settings :=
  @Machine.settle_invariant Service ServiceTask _ (fun _ s => s.OnCourse settings) machine 0
    (fun task _ h => h.step task) s h

/-- **Time may pass.** -/
theorem sleep (h : s.OnCourse settings) (ms : Nat) : (s.sleep ms).OnCourse settings := by
  have hrun := machine.advance_invariant
    (P := fun clock s => s.station.now = clock ∧ s.OnCourse settings)
    (fun clock task s hs => ⟨(step_keeps task s).2.trans hs.1, hs.2.step task⟩)
    (fun clock now s hle hs => ⟨rfl, hs.2.running, hs.2.reached.trans
      (Moment.Reaches.pass s.moment (Nat.le_trans (Nat.le_of_eq hs.1) hle))⟩)
    (Nat.le_add_right s.station.now ms) ⟨rfl, h⟩
  exact hrun.2

/-- **Requests may be made**, and are met. -/
theorem call (h : s.OnCourse settings) (request : Request) :
    (s.call request).2.OnCourse settings := by
  have hmet := (h.of_spares (spares_submit operator request)).settle
  unfold Service.call
  dsimp only
  split
  · exact hmet.of_spares ⟨rfl, rfl⟩
  · exact hmet

/-- The controller may be told of links. -/
theorem post (h : s.OnCourse settings) (notice : Notification) :
    (s.post notice).2.OnCourse settings := by
  unfold Service.post
  split_ifs
  · exact h
  · exact h
  · exact h.of_spares ⟨rfl, rfl⟩

/-- **A service in use** has alarms that belong to its sessions, captures only
ports that are admitted, and has nothing to send but what is current. -/
theorem sound (h : s.OnCourse settings) :
    s.station.registry.AlarmsAgree ∧ s.station.registry.AllCurrent ∧
      ∀ i, s.station.registry.isCapturing i = true → s.station.registry.admits i = true := by
  obtain ⟨events, hserved, hmoment⟩ := h.reached
  have hregistry : s.station.registry = ((Moment.ofSettings settings).run events).registry :=
    congrArg Moment.registry hmoment
  rw [hregistry]
  exact ⟨Moment.alarmsAgree_run settings events, Moment.allCurrent_run settings events,
    fun i => (Moment.gated_run settings hserved).1⟩

end OnCourse
end Service
end Lldp
