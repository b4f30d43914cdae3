/-
# What a station's tasks move

The task that reads a capture queues for a turn, reads and passes packets on; a
ticker sleeps and leaves requests to transmit.  Neither touches a session beyond
its ticker, the settings or an alarm: whatever such a task does is a change of
what surrounds the registry (`Station.drifts_step`), and takes no time.
-/

import Lldp.Proofs.Registry.Course
import Lldp.Station

namespace Lldp
namespace Station

variable {st st' st'' : Station} {t : CaptureTask}

/-- The time is the same and the registry the same but for its surroundings. -/
structure Drifts (st st' : Station) : Prop where
  now : st'.now = st.now
  registry : ∃ x, st'.registry = st.registry.surround x

namespace Drifts

/-- Links, tasks and requests to transmit surround a registry. -/
theorem of_registry {backend : Loopback} {tasks : List CaptureTask} {triggers : Triggers}
    (hnow : st'.now = st.now)
    (h : st'.registry = { st.registry with backend, tasks, triggers }) : Drifts st st' :=
  ⟨hnow, _, h.trans (st.registry.surround_of_tickers backend tasks triggers
    st.registry.alarms.wheel).symm⟩

/-- Where nothing happens, nothing drifts. -/
theorem refl (st : Station) : Drifts st st := of_registry rfl rfl

/-- One drift after another is a drift. -/
theorem trans (h : Drifts st st') (h' : Drifts st' st'') : Drifts st st'' := by
  obtain ⟨x, hx⟩ := h.registry
  obtain ⟨y, hy⟩ := h'.registry
  have hboth := Registry.surround_surround st.registry x y
  rw [← hx, ← hy] at hboth
  exact ⟨h'.now.trans h.now, _, hboth⟩

/-- Links are none of what a registry says of ports. -/
theorem onBackend {change : Loopback → Loopback} : Drifts st (st.onBackend change) :=
  of_registry rfl rfl

/-- Nor is the phase that a task is in. -/
theorem setPhase {generation : Nat} {phase : CapturePhase} :
    Drifts st (st.setPhase generation phase) :=
  of_registry rfl rfl

/-- Nor is whether a task is there at all. -/
theorem endCapture {generation : Nat} : Drifts st (st.endCapture generation) :=
  of_registry rfl rfl

/-- A read changes the link and the phase of its task. -/
theorem captureRead : Drifts st (st.captureRead t) := by
  unfold Station.captureRead
  cases st.linkOf? t.handle with
  | none => exact refl st
  | some link =>
    obtain ⟨ended, backend⟩ := st.registry.backend.serve link st.now
    dsimp only
    split
    · exact onBackend.trans setPhase
    · exact onBackend.trans setPhase
    · exact onBackend.trans endCapture
    · exact onBackend

/-- To pass a packet on changes the mailbox and the phase of a task. -/
theorem capturePass {bytes : Octets} : Drifts st (st.capturePass t bytes) := by
  unfold Station.capturePass
  split
  · exact endCapture
  · exact of_registry rfl rfl
  · exact of_registry rfl rfl

/-- **The task that reads a capture** moves links and tasks. -/
theorem captureStep : Drifts st (st.captureStep t) := by
  unfold Station.captureStep
  cases t.phase with
  | watching =>
    dsimp only
    split_ifs
    · exact endCapture
    · exact setPhase
  | checking =>
    dsimp only
    split_ifs
    · exact setPhase
    · exact endCapture
  | opening =>
    dsimp only
    split
    · exact endCapture
    · exact setPhase
  | queueing => exact onBackend.trans setPhase
  | waiting => exact setPhase
  | reading => exact captureRead
  | holding bytes =>
    dsimp only
    split_ifs
    · exact setPhase
    · exact endCapture
  | passing bytes => exact capturePass
  | sending =>
    dsimp only
    split_ifs
    · exact of_registry rfl rfl
    · exact of_registry rfl rfl

/-- **A ticker** moves itself and requests to transmit. -/
theorem tickerStep {i : IfIndex} : Drifts st (st.tickerStep i) := by
  unfold Station.tickerStep
  cases st.registry.session? i with
  | none => exact refl st
  | some s =>
    cases hticker : s.transmitter.ticker with
    | none =>
      simp only [hticker]
      exact refl st
    | some ticker =>
      simp only [hticker]
      obtain ⟨next, triggers⟩ := ticker.step st.now st.stamp s.link st.registry.triggers
      refine ⟨rfl, ⟨st.registry.backend, st.registry.tasks, triggers, st.registry.alarms.wheel,
        fun j old => if j = i then some next else old⟩, ?_⟩
      have hsession : ∀ u : Session,
          (if u.port.ifIndex = i then
            { u with transmitter := { u.transmitter with ticker := some next } } else u) =
          Session.retick ⟨st.registry.backend, st.registry.tasks, triggers,
            st.registry.alarms.wheel, fun j old => if j = i then some next else old⟩ u := by
        intro u
        simp only [Session.retick]
        split_ifs <;> rfl
      simp only [Station.onRegistry, Registry.modify, Registry.surround, hsession]

end Drifts

/-- **Tasks move only what surrounds the registry.** -/
theorem drifts_step (st : Station) (task : StationTask) : Drifts st (st.step task) := by
  unfold Station.step
  cases task with
  | capture generation =>
    dsimp only
    split
    · exact .refl st
    · split_ifs
      · exact .captureStep
      · exact .refl st
  | ticker i =>
    dsimp only
    split_ifs
    · exact .tickerStep
    · exact .refl st

end Station

end Lldp
