/-
# The steps of a station's tasks

The task that reads a capture goes from phase to phase: it looks for the exit signal and
whether its port still has the capture, queues for a turn, reads, looks again, and passes
on what it has read.  `Station.Advance` says all that one of its steps can come to: the
phase that the task is in afterwards, unless it has ended, and what has become of the
links and of the mailbox.  Nothing else changes (`Station.become`), and no other task of
its kind is touched (`captureTask?_become_of_ne`).

A ticker changes itself and the requests to transmit.  So there are three things that a
step can come to (`Station.step_cases`), and proofs about runs open no step again.
-/

import Lldp.Proofs.InFlight
import Lldp.Proofs.Incidents

namespace Lldp
namespace Station

variable {st : Station} {t u : CaptureTask} {generation other : Nat}
  {phase? : Option CapturePhase} {lo : Loopback} {box : Mailbox Nat Inbound}

/-- **What a step of the task that reads a capture comes to**: the phase afterwards,
unless it has ended, the links and the mailbox. -/
inductive Advance (st : Station) (t : CaptureTask) :
    Option CapturePhase → Loopback → Mailbox Nat Inbound → Prop where
  /-- It has been told of the exit signal. -/
  | leaves (hphase : t.phase = .watching) (h : t.exiting = true) :
      Advance st t none st.registry.backend st.inbound
  | stays (hphase : t.phase = .watching) (h : t.exiting = false) :
      Advance st t (some .checking) st.registry.backend st.inbound
  /-- Its port does not have the capture any more. -/
  | superseded (hphase : t.phase = .checking)
      (h : st.registry.isCurrent t.ifIndex t.generation = false) :
      Advance st t none st.registry.backend st.inbound
  | confirmed (hphase : t.phase = .checking)
      (h : st.registry.isCurrent t.ifIndex t.generation = true) :
      Advance st t (some .opening) st.registry.backend st.inbound
  /-- Its handle is closed. -/
  | refused (hphase : t.phase = .opening) {e : Error}
      (h : st.registry.backend.access t.handle = .error e) :
      Advance st t none st.registry.backend st.inbound
  | admitted (hphase : t.phase = .opening) {hd : Handle} {l : Link}
      (h : st.registry.backend.access t.handle = .ok (hd, l)) :
      Advance st t (some .queueing) st.registry.backend st.inbound
  /-- It queues for a turn, which may be its at once. -/
  | queued (hphase : t.phase = .queueing) {phase : CapturePhase}
      (h : phase = .waiting ∨ phase = .reading) :
      Advance st t (some phase) (st.registry.backend.queueReader t.handle t.generation) st.inbound
  | called (hphase : t.phase = .waiting) (hturn : st.hasTurn t = true) :
      Advance st t (some .reading) st.registry.backend st.inbound
  /-- It gets a frame. -/
  | got (hphase : t.phase = .reading) (hturn : st.hasTurn t = true) {link ticket : Nat}
      {bytes : Octets} {lo : Loopback} (hlink : st.linkOf? t.handle = some link)
      (h : st.registry.backend.serve link st.now = (some (ticket, .frame bytes), lo)) :
      Advance st t (some (.holding bytes)) lo st.inbound
  /-- Its patience has run out. -/
  | tired (hphase : t.phase = .reading) (hturn : st.hasTurn t = true) {link ticket : Nat}
      {lo : Loopback} (hlink : st.linkOf? t.handle = some link)
      (h : st.registry.backend.serve link st.now = (some (ticket, .nothing), lo)) :
      Advance st t (some .watching) lo st.inbound
  /-- Nothing can come any more. -/
  | lost (hphase : t.phase = .reading) (hturn : st.hasTurn t = true) {link ticket : Nat}
      {lo : Loopback} (hlink : st.linkOf? t.handle = some link)
      (h : st.registry.backend.serve link st.now = (some (ticket, .gone), lo)) :
      Advance st t none lo st.inbound
  /-- It begins to lose patience. -/
  | waits (hphase : t.phase = .reading) (hturn : st.hasTurn t = true) {link : Nat}
      {lo : Loopback} (hlink : st.linkOf? t.handle = some link)
      (h : st.registry.backend.serve link st.now = (none, lo)) :
      Advance st t (some .reading) lo st.inbound
  /-- What it has read, it has read through a capture that its port still has. -/
  | cleared {bytes : Octets} (hphase : t.phase = .holding bytes)
      (h : st.registry.isCurrent t.ifIndex t.generation = true) :
      Advance st t (some (.passing bytes)) st.registry.backend st.inbound
  | dropped {bytes : Octets} (hphase : t.phase = .holding bytes)
      (h : st.registry.isCurrent t.ifIndex t.generation = false) :
      Advance st t none st.registry.backend st.inbound
  /-- Nobody is there to take what it passes on. -/
  | unheard {bytes : Octets} (hphase : t.phase = .passing bytes) (h : st.inbound.closed = true) :
      Advance st t none st.registry.backend st.inbound
  | passed {bytes : Octets} (hphase : t.phase = .passing bytes)
      (hclosed : st.inbound.closed = false) (hroom : st.inbound.hasSpareRoom = true) :
      Advance st t (some .watching) st.registry.backend (st.inbound.push (t.packet bytes))
  | blocked {bytes : Octets} (hphase : t.phase = .passing bytes)
      (hclosed : st.inbound.closed = false) (hroom : st.inbound.hasSpareRoom = false) :
      Advance st t (some .sending) st.registry.backend
        { st.inbound with waiting := st.inbound.waiting ++ [(t.generation, t.packet bytes)] }
  /-- It has waited for room in vain. -/
  | stranded (hphase : t.phase = .sending) (h : st.inbound.closed = true) :
      Advance st t none st.registry.backend (st.inbound.settle t.generation)
  | settled (hphase : t.phase = .sending) (h : st.inbound.closed = false)
      (hroom : st.inbound.canSettle t.generation = true) :
      Advance st t (some .watching) st.registry.backend (st.inbound.settle t.generation)

/-! ### What a step leaves -/

/-- A station whose task of a capture is in another phase or has ended, with these links
and this mailbox. -/
def become (st : Station) (generation : Nat) (phase? : Option CapturePhase) (lo : Loopback)
    (box : Mailbox Nat Inbound) : Station :=
  let st := { st with inbound := box, registry := { st.registry with backend := lo } }
  match phase? with
  | some phase => st.setPhase generation phase
  | none => st.endCapture generation

/-- A task that stays in its phase is not moved. -/
theorem become_phase (hranked : st.registry.Ranked) (ht : t ∈ st.registry.tasks) :
    st.become t.generation (some t.phase) lo st.inbound = st.onBackend fun _ => lo := by
  have hsame : (st.registry.tasks.map fun u =>
      if u.generation = t.generation then { u with phase := t.phase } else u) =
      st.registry.tasks := by
    refine (List.map_congr_left fun u hu => ?_).trans (List.map_id _)
    split_ifs with hg
    · obtain rfl := hranked.eq_of_generation ht hu hg
      rfl
    · rfl
  simp only [become, setPhase, onRegistry, onBackend, hsame]

/-- **A task that can make a step** makes one of these. -/
theorem captureStep_cases (hranked : st.registry.Ranked) (ht : t ∈ st.registry.tasks)
    (h : st.captureReady t = true) :
    ∃ phase? lo box, st.Advance t phase? lo box ∧
      st.captureStep t = st.become t.generation phase? lo box := by
  unfold captureStep
  unfold captureReady at h
  cases hphase : t.phase with
  | watching =>
    dsimp only
    cases hexit : t.exiting with
    | true => exact ⟨_, _, _, .leaves hphase hexit, rfl⟩
    | false => exact ⟨_, _, _, .stays hphase hexit, rfl⟩
  | checking =>
    dsimp only
    cases hcurrent : st.registry.isCurrent t.ifIndex t.generation with
    | true => exact ⟨_, _, _, .confirmed hphase hcurrent, rfl⟩
    | false => exact ⟨_, _, _, .superseded hphase hcurrent, rfl⟩
  | opening =>
    dsimp only
    cases haccess : st.registry.backend.access t.handle with
    | error e => exact ⟨_, _, _, .refused hphase haccess, rfl⟩
    | ok reached => exact ⟨_, _, _, .admitted hphase haccess, rfl⟩
  | queueing =>
    have hnext : (if (st.onBackend fun lo => lo.queueReader t.handle t.generation).hasTurn t
        then CapturePhase.reading else .waiting) = .waiting ∨
        (if (st.onBackend fun lo => lo.queueReader t.handle t.generation).hasTurn t
        then CapturePhase.reading else .waiting) = .reading := by
      split_ifs
      · exact Or.inr rfl
      · exact Or.inl rfl
    exact ⟨_, _, _, .queued hphase hnext, rfl⟩
  | waiting =>
    rw [hphase] at h
    exact ⟨_, _, _, .called hphase h, rfl⟩
  | reading =>
    rw [hphase, Bool.and_eq_true] at h
    obtain ⟨hturn, hserve⟩ := h
    obtain ⟨link, hlink, -⟩ := (Option.any_eq_true ..).1 hserve
    simp only [captureRead, hlink]
    rcases hserved : st.registry.backend.serve link st.now with ⟨_ | ⟨ticket, outcome⟩, lo⟩
    · refine ⟨_, _, _, .waits hphase hturn hlink hserved, ?_⟩
      rw [← hphase, become_phase hranked ht]
    · cases outcome with
      | frame bytes => exact ⟨_, _, _, .got hphase hturn hlink hserved, rfl⟩
      | nothing => exact ⟨_, _, _, .tired hphase hturn hlink hserved, rfl⟩
      | gone => exact ⟨_, _, _, .lost hphase hturn hlink hserved, rfl⟩
  | holding bytes =>
    dsimp only
    cases hcurrent : st.registry.isCurrent t.ifIndex t.generation with
    | true => exact ⟨_, _, _, .cleared hphase hcurrent, rfl⟩
    | false => exact ⟨_, _, _, .dropped hphase hcurrent, rfl⟩
  | passing bytes =>
    dsimp only
    unfold capturePass Mailbox.send
    by_cases hclosed : st.inbound.closed = true
    · rw [if_pos hclosed]
      exact ⟨_, _, _, .unheard hphase hclosed, rfl⟩
    · have hopen := Bool.eq_false_iff.2 hclosed
      rw [if_neg hclosed]
      by_cases hroom : st.inbound.hasSpareRoom = true
      · rw [if_pos hroom]
        exact ⟨_, _, _, .passed hphase hopen hroom, rfl⟩
      · rw [if_neg hroom]
        exact ⟨_, _, _, .blocked hphase hopen (Bool.eq_false_iff.2 hroom), rfl⟩
  | sending =>
    rw [hphase] at h
    dsimp only
    cases hclosed : st.inbound.closed with
    | true => exact ⟨_, _, _, .stranded hphase hclosed, rfl⟩
    | false => exact ⟨_, _, _, .settled hphase hclosed h, rfl⟩

/-! ### Which tasks there are -/

/-- The task of a generation is one of the tasks. -/
theorem mem_of_captureTask? (h : st.captureTask? generation = some t) :
    t ∈ st.registry.tasks :=
  List.mem_of_find?_eq_some h

/-- It is the one that has the generation. -/
theorem generation_of_captureTask? (h : st.captureTask? generation = some t) :
    t.generation = generation := by
  simpa using List.find?_some h

/-- **A task that is there is the one of its generation.** -/
theorem captureTask?_eq_some_iff (hranked : st.registry.Ranked) :
    st.captureTask? generation = some t ↔
      t ∈ st.registry.tasks ∧ t.generation = generation := by
  constructor
  · exact fun h => ⟨mem_of_captureTask? h, generation_of_captureTask? h⟩
  · rintro ⟨ht, rfl⟩
    cases h : st.captureTask? t.generation with
    | none =>
      have hnot := List.find?_eq_none.1 h t ht
      simp at hnot
    | some u =>
      rw [hranked.eq_of_generation ht (mem_of_captureTask? h) (generation_of_captureTask? h)]

/-- The mailbox is as the step leaves it. -/
theorem inbound_become : (st.become generation phase? lo box).inbound = box := by
  cases phase? <;> rfl

/-- So are the links. -/
theorem backend_become : (st.become generation phase? lo box).registry.backend = lo := by
  cases phase? <;> rfl

/-- **The task that makes a step** is in the phase to which the step leads, or has ended. -/
theorem captureTask?_become (h : st.captureTask? generation = some t) :
    (st.become generation phase? lo box).captureTask? generation =
      phase?.map fun phase => { t with phase } := by
  cases phase? with
  | none =>
    refine List.find?_eq_none.2 fun u hu => ?_
    simpa using (List.mem_filter.1 hu).2
  | some phase =>
    have hkeep : ∀ u : CaptureTask, decide ((if u.generation = generation then
        { u with phase } else u).generation = generation) = decide (u.generation = generation) := by
      intro u
      split_ifs <;> rfl
    show ((st.registry.tasks.map _).find? _) = _
    rw [List.find?_map]
    simp only [Function.comp_def, hkeep]
    rw [captureTask?] at h
    rw [h, Option.map_some, Option.map_some, if_pos (generation_of_captureTask? h)]

/-- **No other task is touched.** -/
theorem captureTask?_become_of_ne (hne : other ≠ generation) :
    (st.become generation phase? lo box).captureTask? other = st.captureTask? other := by
  cases phase? with
  | none =>
    show ((st.registry.tasks.filter _).find? _) = _
    rw [List.find?_filter, captureTask?]
    congr 1
    funext u
    by_cases hu : u.generation = other
    · simp [hu, hne]
    · simp [hu]
  | some phase =>
    have hkeep : ∀ u : CaptureTask, decide ((if u.generation = generation then
        { u with phase } else u).generation = other) = decide (u.generation = other) := by
      intro u
      split_ifs <;> rfl
    show ((st.registry.tasks.map _).find? _) = _
    rw [List.find?_map]
    simp only [Function.comp_def, hkeep]
    cases h : st.captureTask? other with
    | none =>
      rw [captureTask?] at h
      rw [h]
      rfl
    | some u =>
      have hu : ¬u.generation = generation := by
        rw [generation_of_captureTask? h]
        exact hne
      rw [captureTask?] at h
      rw [h, Option.map_some, if_neg hu]

/-! ### What a step of any task comes to -/

/-- **What a step of a task comes to**: nothing, if the task is not able to make one, or a
task that reads a capture advances, or a ticker moves on. -/
theorem step_cases (hranked : st.registry.Ranked) (task : StationTask) :
    (st.step task = st ∧ ∀ t, task = .capture t.generation →
        st.captureTask? t.generation = some t → st.captureReady t = false) ∨
      (∃ t phase? lo box, task = .capture t.generation ∧
        st.captureTask? t.generation = some t ∧ st.Advance t phase? lo box ∧
        st.step task = st.become t.generation phase? lo box) ∨
      ∃ i s ticker triggers stamp, task = .ticker i ∧ st.registry.session? i = some s ∧
        s.transmitter.ticker.isSome = true ∧
        st.step task = { st with
          stamp
          registry := { st.registry with triggers }.modify i fun s =>
            { s with transmitter := { s.transmitter with ticker := some ticker } } } := by
  unfold step
  cases task with
  | capture generation =>
    dsimp only
    cases htask : st.captureTask? generation with
    | none =>
      refine Or.inl ⟨rfl, fun t heq ht => ?_⟩
      obtain rfl := StationTask.capture.inj heq
      cases htask.symm.trans ht
    | some t =>
      dsimp only
      split_ifs with hready
      · obtain ⟨phase?, lo, box, hadvance, heq⟩ :=
          captureStep_cases hranked (mem_of_captureTask? htask) hready
        obtain rfl := generation_of_captureTask? htask
        exact Or.inr (Or.inl ⟨t, phase?, lo, box, rfl, htask, hadvance, heq⟩)
      · refine Or.inl ⟨rfl, fun u heq hu => ?_⟩
        obtain rfl := StationTask.capture.inj heq
        obtain rfl := Option.some.inj (htask.symm.trans hu)
        exact Bool.eq_false_iff.2 hready
  | ticker i =>
    dsimp only
    split_ifs
    · unfold tickerStep
      cases hs : st.registry.session? i with
      | none => exact Or.inl ⟨rfl, nofun⟩
      | some s =>
        dsimp only
        cases hticker : s.transmitter.ticker with
        | none => exact Or.inl ⟨rfl, nofun⟩
        | some t => exact Or.inr (Or.inr ⟨i, s, _, _, _, rfl, hs, by rw [hticker]; rfl, rfl⟩)
    · exact Or.inl ⟨rfl, nofun⟩

end Station
end Lldp
