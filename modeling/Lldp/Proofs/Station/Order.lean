/-
# Captures stay in order

Along every run of a station, captures and what goes with them stay in order
(`Registry.InOrder`): operations only alter the registry, tasks open and close nothing
and leave every ticker where it is, and what others do with links reaches no handle.
The ports whose interfaces have been opened are read off the tasks that the run has set
off, one for every time (`launches`).

So the captured ports are listed, without repetition, by the last time at which each was
started, and the handles that are not closed are those they are captured through
(`registry_in_order`).
-/

import Lldp.Proofs.Registry.Order
import Lldp.Proofs.Station.Advances

namespace Lldp

namespace Loopback

variable {lo lo' : Loopback} {handle ticket link now : Nat}

/-- A read that queues opens and closes nothing. -/
theorem handles_queueReader : (lo.queueReader handle ticket).handles = lo.handles := by
  unfold queueReader
  split <;> rfl

/-- Nor does a turn that goes on. -/
theorem handles_of_serve {ended : Option (Nat × ReadOutcome)}
    (h : lo.serve link now = (ended, lo')) : lo'.handles = lo.handles := by
  unfold serve at h
  split at h
  · obtain ⟨-, rfl⟩ := Prod.mk.inj h
    rfl
  · obtain ⟨-, rfl⟩ := Prod.mk.inj h
    rfl

end Loopback

namespace Station

variable {st : Station} {x : Incident} {task : StationTask} {t : CaptureTask}
  {phase? : Option CapturePhase} {lo : Loopback} {box : Mailbox Nat Inbound}
  {starts : List IfIndex} {log : List CaptureTask} {settings : Settings}
  {incidents : List Incident}

/-! ### The tasks that are set off -/

/-- The tasks that an incident sets off stand after those that there were. -/
theorem launched_of_tasks (h : (st.after x).registry.tasks = st.registry.tasks ++ log) :
    st.launched x = log := by
  rw [launched, h, List.drop_left]

/-- Where there are no more tasks than before, none was set off. -/
theorem launched_of_length_le
    (h : (st.after x).registry.tasks.length ≤ st.registry.tasks.length) : st.launched x = [] :=
  List.drop_eq_nil_of_le h

/-- A task that makes a step keeps its place, or leaves it empty. -/
theorem generations_become {generation : Nat} :
    ((st.become generation phase? lo box).registry.tasks.map CaptureTask.generation).Sublist
      (st.registry.tasks.map CaptureTask.generation) := by
  cases phase? with
  | none => exact List.filter_sublist.map _
  | some phase =>
    have hsame : (st.become generation (some phase) lo box).registry.tasks.map
        CaptureTask.generation = st.registry.tasks.map CaptureTask.generation := by
      show (st.registry.tasks.map _).map _ = _
      rw [List.map_map]
      refine List.map_congr_left fun u _ => ?_
      simp only [Function.comp]
      split_ifs <;> rfl
    rw [hsame]

/-- **A step of a task sets no other off.** -/
theorem generations_step (hranked : st.registry.Ranked) (task : StationTask) :
    ((st.step task).registry.tasks.map CaptureTask.generation).Sublist
      (st.registry.tasks.map CaptureTask.generation) := by
  rcases step_cases hranked task with
    ⟨h, -⟩ | ⟨t, phase?, lo, box, -, -, -, h⟩ | ⟨i, s, ticker, triggers, stamp, -, -, -, h⟩
  · rw [h]
  · rw [h]
    exact generations_become
  · rw [h]
    exact .refl _

/-- **What an incident does to the registry and sets off.**  It alters the registry, and
sets off the tasks that come with that; or it sets none off: a task makes its step, others
do something with a link, or the tasks are told of the exit signal. -/
theorem launched_cases (hranked : st.registry.Ranked) (x : Incident) :
    st.registry.Alters (st.launched x) (st.after x).registry ∨
      st.launched x = [] ∧
        ((∃ task, x = .task task ∧ st.after x = st.step task) ∨
          (∃ use, x = .operation (.links use) ∧ (st.after x).registry =
            { st.registry with backend := st.registry.backend.use use }) ∨
          x = .exit ∧ (st.after x).registry = st.registry.announceExit) := by
  rcases after_cases st x with
    ⟨task, hx, heq⟩ | ⟨log, haltered⟩ | ⟨use, hx, heq⟩ | ⟨hx, heq⟩
  · have hlength := (generations_step hranked task).length_le
    rw [List.length_map, List.length_map, ← heq] at hlength
    exact Or.inr ⟨launched_of_length_le hlength, Or.inl ⟨task, hx, heq⟩⟩
  · rw [launched_of_tasks haltered.tasks]
    exact Or.inl haltered
  · refine Or.inr ⟨launched_of_length_le (Nat.le_of_eq ?_), Or.inr (Or.inl ⟨use, hx, heq⟩)⟩
    rw [heq]
  · refine Or.inr ⟨launched_of_length_le (Nat.le_of_eq ?_), Or.inr (Or.inr ⟨hx, heq⟩)⟩
    rw [heq]
    exact List.length_map ..

/-- **Generations count the tasks that are set off.** -/
theorem generation_after (hranked : st.registry.Ranked) (x : Incident) :
    (st.after x).registry.generation = st.registry.generation + (st.launched x).length := by
  rcases launched_cases hranked x with
    haltered | ⟨hnone, ⟨task, -, heq⟩ | ⟨use, -, heq⟩ | ⟨-, heq⟩⟩
  · exact haltered.generations.2
  · obtain ⟨-, surroundings, hdrift⟩ := drifts_step st task
    rw [hnone, heq, hdrift]
    rfl
  · rw [hnone, heq]
    rfl
  · rw [hnone, heq]
    rfl

/-- **Whatever happens**, tasks stand in the order of their generations. -/
theorem ranked_after (h : st.registry.Ranked) (x : Incident) : (st.after x).registry.Ranked := by
  rcases launched_cases h x with
    haltered | ⟨-, ⟨task, -, heq⟩ | ⟨use, -, heq⟩ | ⟨-, heq⟩⟩
  · exact h.alters haltered
  · rw [heq]
    refine h.of_sublist ?_ (generations_step h task)
    obtain ⟨-, surroundings, hdrift⟩ := drifts_step st task
    rw [hdrift]
    rfl
  · rw [heq]
    exact ⟨h.sorted, h.le⟩
  · have hsame : st.registry.announceExit.tasks.map CaptureTask.generation =
        st.registry.tasks.map CaptureTask.generation := by
      simp only [Registry.announceExit, List.map_map]
      rfl
    rw [heq]
    exact h.of_sublist rfl (hsame ▸ .refl _)

/-- So they do after any run. -/
theorem ranked_run (settings : Settings) (incidents : List Incident) :
    ((ofSettings settings).run incidents).registry.Ranked :=
  run_invariant (P := fun st => st.registry.Ranked) (fun _ x h => ranked_after h x)
    (.ofSettings settings)

/-! ### Captures and what goes with them -/

/-- A task that reads a capture opens and closes no handle. -/
theorem Advance.handles (h : st.Advance t phase? lo box) :
    lo.handles = st.registry.backend.handles := by
  cases h with
  | queued => exact Loopback.handles_queueReader
  | got _ _ _ h => exact Loopback.handles_of_serve h
  | tired _ _ _ h => exact Loopback.handles_of_serve h
  | lost _ _ _ h => exact Loopback.handles_of_serve h
  | waits _ _ _ h => exact Loopback.handles_of_serve h
  | _ => rfl

/-- **Nor does any other task.** -/
theorem handles_step (hranked : st.registry.Ranked) (task : StationTask) :
    (st.step task).registry.backend.handles = st.registry.backend.handles := by
  rcases step_cases hranked task with
    ⟨heq, -⟩ | ⟨t, phase?, lo, box, -, -, hadvance, heq⟩ |
    ⟨i, s, ticker, triggers, stamp, -, -, -, heq⟩
  · rw [heq]
  · rw [heq, backend_become, hadvance.handles]
  · rw [heq]
    rfl

/-- No step of a task begins or ends a capture. -/
theorem capture?_step (st : Station) (task : StationTask) (i : IfIndex) :
    (st.step task).registry.capture? i = st.registry.capture? i := by
  obtain ⟨-, surroundings, hdrift⟩ := drifts_step st task
  rw [hdrift, Registry.capture?, Registry.session?_surround, Registry.capture?, Option.bind_map]
  rfl

/-- A step of a task leaves captures in order. -/
theorem inOrder_become {generation : Nat} (h : st.registry.InOrder starts)
    (hh : lo.handles = st.registry.backend.handles) :
    (st.become generation phase? lo box).registry.InOrder starts := by
  cases phase? with
  | none => exact h.of_sessions rfl rfl rfl hh
  | some phase => exact h.of_sessions rfl rfl rfl hh

/-- **A step of a task** leaves captures and tickers where they are. -/
theorem inOrder_step (h : st.registry.InOrder starts) (hranked : st.registry.Ranked)
    (task : StationTask) : (st.step task).registry.InOrder starts := by
  rcases step_cases hranked task with
    ⟨heq, -⟩ | ⟨t, phase?, lo, box, -, -, hadvance, heq⟩ |
    ⟨i, s, ticker, triggers, stamp, -, hs, hticker, heq⟩
  · rw [heq]
    exact h
  · rw [heq]
    exact inOrder_become h hadvance.handles
  · rw [heq]
    have htaken : { st.registry with triggers }.InOrder starts := h.of_sessions rfl rfl rfl rfl
    refine htaken.keep (.modify (fun _ => rfl) fun s' hs' => ?_)
    obtain rfl := Option.some.inj (hs.symm.trans hs')
    exact ⟨rfl, rfl, hticker.symm, rfl, Or.inl⟩

/-- **Whatever happens**, captures stay in order, and the ports that were opened come last. -/
theorem inOrder_after (h : st.registry.InOrder starts) (hranked : st.registry.Ranked)
    (x : Incident) :
    (st.after x).registry.InOrder (starts ++ (st.launched x).map CaptureTask.ifIndex) := by
  rcases launched_cases hranked x with haltered | ⟨hnone, hcases⟩
  · exact h.alters haltered
  · rw [hnone, List.map_nil, List.append_nil]
    rcases hcases with ⟨task, -, heq⟩ | ⟨use, -, heq⟩ | ⟨-, heq⟩
    · rw [heq]
      exact inOrder_step h hranked task
    · rw [heq]
      exact h.of_sessions rfl rfl rfl Loopback.handles_use
    · rw [heq]
      exact h.of_sessions rfl rfl rfl rfl

/-- **Along every run captures and what goes with them are in order.** -/
theorem inOrder_run (settings : Settings) (incidents : List Incident) :
    ((ofSettings settings).run incidents).registry.InOrder
      (((ofSettings settings).launches incidents).map CaptureTask.ifIndex) := by
  -- On the last incident, so that the run before it is one from the start.
  induction incidents using List.reverseRecOn with
  | nil => exact .ofSettings settings
  | append_singleton incidents x ih =>
    rw [run_concat, launches_concat, List.map_append]
    exact inOrder_after ih (ranked_run settings incidents) x

/-- Generations and handles are numbered alike. -/
theorem numbered_after (h : st.registry.Numbered) (hranked : st.registry.Ranked) (x : Incident) :
    (st.after x).registry.Numbered := by
  rcases launched_cases hranked x with
    haltered | ⟨-, ⟨task, -, heq⟩ | ⟨use, -, heq⟩ | ⟨-, heq⟩⟩
  · exact h.alters haltered
  · rw [heq]
    refine h.of_isOpened ?_ (congrArg List.length (handles_step hranked task)) ?_
    · obtain ⟨-, surroundings, hdrift⟩ := drifts_step st task
      rw [hdrift]
      rfl
    · rintro i c (hc | ⟨u, hu, rfl, rfl⟩)
      · exact Or.inl (capture?_step st task i ▸ hc)
      · obtain ⟨t, ht, hi, hc⟩ := (Brings.step h.agree task).tasks u hu
        exact Or.inr ⟨t, ht, hi.symm, hc.symm⟩
  · rw [heq]
    exact h.of_captures rfl (congrArg List.length Loopback.handles_use) (fun _ _ => id) rfl
  · rw [heq]
    refine h.of_isOpened rfl rfl ?_
    rintro i c (hc | ⟨u, hu, rfl, rfl⟩)
    · exact Or.inl hc
    · obtain ⟨t, ht, rfl⟩ := List.mem_map.1 hu
      exact Or.inr ⟨t, ht, rfl, rfl⟩

/-- **Whatever happens to a station**, its captured ports are listed without repetition,
by the last time at which each was started; a port has a ticker exactly while it is
captured, and keeps a packet only then; every port has the timing of the settings; and
the handles that are not closed are those that ports are captured through, one each. -/
theorem registry_in_order (settings : Settings) (incidents : List Incident) :
    let r := ((ofSettings settings).run incidents).registry
    r.upPorts.Nodup ∧
      (∀ i, i ∈ r.upPorts ↔ ∃ s ∈ r.sessions, s.port.ifIndex = i ∧ s.isCapturing = true) ∧
      r.upPorts = (((ofSettings settings).launches incidents).map
        CaptureTask.ifIndex).dedup.filter r.isCapturing ∧
      (∀ s ∈ r.sessions, s.transmitter.ticker.isSome = s.isCapturing ∧
        (s.transmitter.cached.isSome = true → s.isCapturing = true) ∧
        s.transmitter.timing = r.settings.timing) ∧
      (∀ handle hd, r.backend.handles[handle]? = some hd →
        (hd.closed = false ↔ ∃ s ∈ r.sessions, ∃ c, s.capture = some c ∧ c.handle = handle)) ∧
      (r.backend.handles.filter (!·.closed)).length = r.upPorts.length := by
  intro r
  have horder : r.InOrder (((ofSettings settings).launches incidents).map CaptureTask.ifIndex) :=
    inOrder_run settings incidents
  have hfound : ∀ s ∈ r.sessions, r.session? s.port.ifIndex = some s := fun s hs =>
    Registry.session?_of_mem horder.distinct hs
  refine ⟨horder.nodup_upPorts, fun i => ?_, horder.upPorts, fun s hs => ?_,
    fun handle hd hhd => ?_, ?_⟩
  · rw [horder.mem_upPorts, Registry.isCapturing, Option.any_eq_true]
    constructor
    · rintro ⟨s, hs, hc⟩
      exact ⟨s, Registry.mem_of_session? hs, Registry.ifIndex_of_session? hs, hc⟩
    · rintro ⟨s, hs, rfl, hc⟩
      exact ⟨s, hfound s hs, hc⟩
  · exact ⟨horder.ticking _ s (hfound s hs), horder.cached _ s (hfound s hs),
      horder.timing _ s (hfound s hs)⟩
  · have hopen : r.backend.isOpen handle = true ↔ hd.closed = false := by
      rw [Loopback.isOpen, hhd, Option.any_some, Bool.not_eq_true']
    rw [← hopen, horder.isOpen_iff]
    constructor
    · rintro ⟨i, hi⟩
      obtain ⟨c, hc, hhandle⟩ := Option.map_eq_some_iff.1 hi
      obtain ⟨s, hs, hcapture⟩ := Option.bind_eq_some_iff.1 hc
      exact ⟨s, Registry.mem_of_session? hs, c, hcapture, hhandle⟩
    · rintro ⟨s, hs, c, hc, rfl⟩
      refine ⟨s.port.ifIndex, ?_⟩
      rw [Registry.handle?, Registry.capture?, hfound s hs, Option.bind_some, hc]
      rfl
  · have hlength := congrArg List.length horder.handles
    rw [List.length_map, List.length_map] at hlength
    rw [hlength, Loopback.length_openHandles]

end Station
end Lldp
