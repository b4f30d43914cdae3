/-
# Tasks and their turns

While a station goes about its routine, a port that is captured has a task that reads its
capture, and the reads that queue on a link are those of the tasks that wait there or have
their turn (`Tended`).  So a task loses its place only by ending its turn, and a task ends
only when its port does not have its capture any more (`Tended.isCurrent_of_ends`).

A routine incident is one of three things (`routine_cases`): a task that reads a capture
makes a step, frames arrive, or no task that reads a capture moves and nothing waits on a
link that did not (`Rests`).  What a step does to the queue of a link is again one of three
(`Advance.line_cases`): nothing, or its task joins at the end, or leaves at the front.
-/

import Lldp.Proofs.Queues
import Lldp.Proofs.Registry.View
import Lldp.Proofs.Station.CutOff

namespace Lldp

/-- What is taken is the first item, and all else stays. -/
theorem Mailbox.take?_eq_some_iff {σ α : Type} {b b' : Mailbox σ α} {item : α} :
    b.take? = some (item, b') ↔ ∃ rest, b.items = item :: rest ∧ b' = { b with items := rest } := by
  unfold take?
  cases b.items with
  | nil => simp
  | cons first rest =>
    simp only [Option.some.injEq, Prod.mk.injEq, List.cons.injEq]
    constructor
    · rintro ⟨rfl, rfl⟩
      exact ⟨rest, ⟨rfl, rfl⟩, rfl⟩
    · rintro ⟨rest', ⟨rfl, rfl⟩, rfl⟩
      exact ⟨rfl, rfl⟩

/-- Nothing can be taken just out of an empty box. -/
theorem Mailbox.take?_eq_none_iff {σ α : Type} {b : Mailbox σ α} :
    b.take? = none ↔ b.items = [] := by
  unfold take?
  cases b.items <;> simp

/-- Whether a task in this phase queues for a turn or has one. -/
def CapturePhase.isInLine : CapturePhase → Bool
  | .waiting | .reading => true
  | _ => false

namespace Station

variable {st st' : Station} {x : Incident} {t : CaptureTask} {generation handle link : Nat}
  {phase? : Option CapturePhase} {lo : Loopback} {box : Mailbox Nat Inbound}
  {ps : List Inbound} {log : List CaptureTask}

/-! ### What a routine incident is -/

/-- The packets that an incident takes out of the mailbox. -/
def taken (st : Station) : Incident → List Inbound
  | .packet _ => st.inbound.items.take 1
  | _ => []

/-- No task that reads a capture moves, though some may be set off; nothing waits on a link
that did not; and packets may be taken out of the mailbox. -/
structure Rests (st : Station) (ps : List Inbound) (st' : Station) : Prop where
  tasks : ∃ log, st'.registry.tasks = st.registry.tasks ++ log ∧ ∀ t ∈ log,
    t.phase = .watching ∧ t.exiting = false ∧ st.registry.generation < t.generation
  quiet : st.registry.backend.Quiet st'.registry.backend
  inbound : ∃ rest, st.inbound.items = ps ++ rest ∧
    st'.inbound = { st.inbound with items := rest }

namespace Rests

/-- Where tasks, links and mailbox are the same, no task moves. -/
theorem of_same (htasks : st'.registry.tasks = st.registry.tasks)
    (hbackend : st'.registry.backend = st.registry.backend)
    (hinbound : st'.inbound = st.inbound) : st.Rests [] st' where
  tasks := ⟨[], by rw [htasks, List.append_nil], nofun⟩
  quiet := by
    rw [hbackend]
    exact .refl _
  inbound := ⟨st.inbound.items, rfl, hinbound⟩

/-- **What is done to a registry** moves no task that reads a capture. -/
theorem of_alters (a : st.registry.Alters log st'.registry)
    (hinbound : ∃ rest, st.inbound.items = ps ++ rest ∧
      st'.inbound = { st.inbound with items := rest }) : st.Rests ps st' where
  tasks := by
    refine ⟨log, a.tasks, fun t ht => ?_⟩
    obtain ⟨hphase, hexit⟩ := a.begins t ht
    have hg : t.generation ∈ List.range' (st.registry.generation + 1) log.length := by
      rw [← a.generations.1]
      exact List.mem_map_of_mem ht
    exact ⟨hphase, hexit, (List.mem_range'_1.1 hg).1⟩
  quiet := .alters a
  inbound := hinbound

/-- Tasks that are set off are none of those there were. -/
theorem captureTask?_of_le (h : st.Rests ps st') (hg : generation ≤ st.registry.generation) :
    st'.captureTask? generation = st.captureTask? generation := by
  obtain ⟨log, htasks, hlog⟩ := h.tasks
  have hnone : log.find? (·.generation = generation) = none := by
    refine List.find?_eq_none.2 fun t ht => ?_
    have hlt := (hlog t ht).2.2
    have hne : t.generation ≠ generation := by omega
    simpa using hne
  rw [captureTask?, htasks, List.find?_append, hnone, Option.or_none, captureTask?]

/-- **A task that is there afterwards** was there, or has yet to begin. -/
theorem captureTask?_cases (h : st.Rests ps st')
    (ht : st'.captureTask? generation = some t) :
    st.captureTask? generation = some t ∨
      t.phase = .watching ∧ st.registry.generation < generation := by
  by_cases hg : generation ≤ st.registry.generation
  · rw [h.captureTask?_of_le hg] at ht
    exact Or.inl ht
  · obtain ⟨log, htasks, hlog⟩ := h.tasks
    rw [captureTask?, htasks, List.find?_append] at ht
    cases hold : st.registry.tasks.find? (·.generation = generation) with
    | some u =>
      rw [hold, Option.some_or] at ht
      exact Or.inl (hold.trans ht)
    | none =>
      rw [hold, Option.none_or] at ht
      exact Or.inr ⟨(hlog t (List.mem_of_find?_eq_some ht)).1, by omega⟩

end Rests

/-- A handle goes on leading where it led. -/
theorem linkOf?_of_quiet (h : st.registry.backend.Quiet st'.registry.backend)
    (hlink : st.linkOf? handle = some link) : st'.linkOf? handle = some link := by
  obtain ⟨hd, hhd, rfl⟩ := Option.map_eq_some_iff.1 hlink
  obtain ⟨hd', hhd', hsame, -⟩ := h.handles handle hd hhd
  rw [linkOf?, hhd', Option.map_some, hsame]

/-- So it does when frames arrive. -/
theorem linkOf?_inject (name : String) (frames : List Octets) :
    (st.onBackend (·.inject name frames)).linkOf? = st.linkOf? := by
  funext handle
  exact congrArg (fun hs : List Handle => (hs[handle]?).map Handle.link) Loopback.handles_onLink

/-- **What a routine incident is.**  A task that reads a capture makes a step; or frames
arrive; or no such task moves, and nothing waits on a link that did not. -/
theorem routine_cases (hranked : st.registry.Ranked) (hx : x.isRoutine = true) :
    (∃ t phase? lo box, x = .task (.capture t.generation) ∧
        st.captureTask? t.generation = some t ∧ st.Advance t phase? lo box ∧
        st.after x = st.become t.generation phase? lo box) ∨
      (∃ name frames, x = .operation (.links (.inject name frames)) ∧
        st.after x = st.onBackend (·.inject name frames)) ∨
      (∀ name frames, x ≠ .operation (.links (.inject name frames))) ∧
        st.Rests (st.taken x) (st.after x) := by
  cases x with
  | task task =>
    rcases step_cases hranked task with
      ⟨heq, -⟩ | ⟨t, phase?, lo, box, rfl, ht, hadvance, heq⟩ |
      ⟨i, s, ticker, triggers, stamp, rfl, -, -, heq⟩
    · refine Or.inr (Or.inr ⟨nofun, .of_same ?_ ?_ ?_⟩) <;> rw [after_task, heq]
    · exact Or.inl ⟨t, phase?, lo, box, rfl, ht, hadvance, heq⟩
    · refine Or.inr (Or.inr ⟨nofun, .of_same ?_ ?_ ?_⟩) <;> rw [after_task, heq] <;> rfl
  | operation o =>
    by_cases hinject : ∃ name frames, o = .links (.inject name frames)
    · obtain ⟨name, frames, rfl⟩ := hinject
      exact Or.inr (Or.inl ⟨name, frames, rfl, rfl⟩)
    · refine Or.inr (Or.inr ⟨fun name frames h => ?_, ?_⟩)
      · exact hinject ⟨name, frames, Incident.operation.inj h⟩
      · rcases st.registry.operate_cases st.now o with ⟨log, a⟩ | ⟨use, rfl, heq⟩
        · exact .of_alters a ⟨st.inbound.items, rfl, rfl⟩
        · refine ⟨⟨[], by rw [List.append_nil]; rfl, nofun⟩, ?_, st.inbound.items, rfl, rfl⟩
          exact .use fun name frames h => hinject ⟨name, frames, congrArg _ h⟩
  | packet deliver =>
    refine Or.inr (Or.inr ⟨nofun, ?_⟩)
    unfold after taken
    cases htake : st.inbound.take? with
    | none =>
      rw [Mailbox.items_of_take?_eq_none htake]
      exact .of_same rfl rfl rfl
    | some item =>
      obtain ⟨p, inbound⟩ := item
      obtain ⟨rest, hitems, rfl⟩ := Mailbox.take?_eq_some_iff.1 htake
      have hbox : ∃ rest', st.inbound.items = st.inbound.items.take 1 ++ rest' ∧
          { st.inbound with items := rest } = { st.inbound with items := rest' } :=
        ⟨rest, by rw [hitems]; rfl, rfl⟩
      cases deliver with
      | true => exact .of_alters .handleInbound hbox
      | false => exact .of_alters (.refl _) hbox
  | trigger deliver =>
    obtain rfl : deliver = true := hx
    refine Or.inr (Or.inr ⟨nofun, ?_⟩)
    unfold after
    cases st.registry.triggers.take? with
    | none => exact .of_same rfl rfl rfl
    | some item =>
      have htaken : st.registry.Alters [] { st.registry with triggers := item.2 } :=
        .keep (.of_sessions rfl rfl rfl rfl rfl rfl)
      exact .of_alters (htaken.after .handleTransmit)
        ⟨st.inbound.items, rfl, rfl⟩
  | turn => exact Or.inr (Or.inr ⟨nofun, .of_same rfl rfl rfl⟩)
  | expiry i => cases hx
  | shutdown => cases hx
  | exit => cases hx
  | close => cases hx

/-! ### What a step does to the queues of links -/

/-- **What a step does to the reads that queue.**  Nothing; or its task joins them at the
end, on the link of its handle; or it leaves them there, at the front. -/
theorem Advance.line_cases (h : st.Advance t phase? lo box)
    (hlink : st.linkOf? t.handle = some link)
    (hl : ∃ l, st.registry.backend.links[link]? = some l) :
    ((∀ k, lo.ticketsAt k = st.registry.backend.ticketsAt k) ∧
        phase?.any CapturePhase.isInLine = t.phase.isInLine) ∨
      (t.phase.isInLine = false ∧ phase?.any CapturePhase.isInLine = true ∧
        ∀ k, lo.ticketsAt k =
          st.registry.backend.ticketsAt k ++ if k = link then [t.generation] else []) ∨
      t.phase.isInLine = true ∧ phase?.any CapturePhase.isInLine = false ∧
        ∀ k, st.registry.backend.ticketsAt k =
          (if k = link then [t.generation] else []) ++ lo.ticketsAt k := by
  have hleaves : ∀ {outcome ticket}, st.hasTurn t = true → ∀ k,
      st.linkOf? t.handle = some k →
      st.registry.backend.serve k st.now = (some (ticket, outcome), lo) → ∀ k,
      st.registry.backend.ticketsAt k =
        (if k = link then [t.generation] else []) ++ lo.ticketsAt k := by
    intro outcome ticket hturn k hk hserve
    obtain rfl := Option.some.inj (hlink.symm.trans hk)
    have hfirst := (Loopback.of_serve (k := link) hserve).2
    rw [if_pos rfl] at hfirst
    have hticket : ticket = t.generation := by
      rw [hasTurn, hlink, Option.any_some, decide_eq_true_eq, Loopback.turn?_eq_head?, hfirst]
        at hturn
      exact Option.some.inj hturn
    intro k
    rw [← hticket]
    exact (Loopback.of_serve hserve).2
  cases h with
  | queued hphase hnext =>
    obtain ⟨hd, hhd, rfl⟩ := Option.map_eq_some_iff.1 hlink
    obtain ⟨l, hl⟩ := hl
    refine Or.inr (Or.inl ⟨by rw [hphase]; rfl, ?_, fun k => Loopback.ticketsAt_queueReader hhd hl⟩)
    rcases hnext with rfl | rfl <;> rfl
  | called hphase hturn => exact Or.inl ⟨fun _ => rfl, by rw [hphase]; rfl⟩
  | got hphase hturn hk hserve =>
    exact Or.inr (Or.inr ⟨by rw [hphase]; rfl, rfl, hleaves hturn _ hk hserve⟩)
  | tired hphase hturn hk hserve =>
    exact Or.inr (Or.inr ⟨by rw [hphase]; rfl, rfl, hleaves hturn _ hk hserve⟩)
  | lost hphase hturn hk hserve =>
    exact Or.inr (Or.inr ⟨by rw [hphase]; rfl, rfl, hleaves hturn _ hk hserve⟩)
  | waits hphase hturn hk hserve =>
    refine Or.inl ⟨fun k => ?_, by rw [hphase]; rfl⟩
    have hsame := (Loopback.of_serve (k := k) hserve).2
    split_ifs at hsame
    · exact hsame.symm
    · exact hsame.symm
  | _ => exact Or.inl ⟨fun _ => rfl, by simp [*, CapturePhase.isInLine]⟩

/-- **What a step does to the frames that wait.**  It takes one from the front of the link
of its handle, and has it in hand; or it does nothing to them. -/
theorem Advance.unread_cases (h : st.Advance t phase? lo box)
    (hlink : st.linkOf? t.handle = some link) :
    (∃ bytes, t.phase = .reading ∧ phase? = some (.holding bytes) ∧ box = st.inbound ∧
        ∀ k, st.registry.backend.unreadAt k =
          (if k = link then [bytes] else []) ++ lo.unreadAt k) ∨
      (∀ bytes, phase? ≠ some (.holding bytes)) ∧
        ∀ k, lo.unreadAt k = st.registry.backend.unreadAt k := by
  have hsame : ∀ {ended k}, ended.elim [] (·.2.got) = [] →
      st.registry.backend.serve k st.now = (ended, lo) →
      ∀ k, lo.unreadAt k = st.registry.backend.unreadAt k := by
    intro ended k hnone hserve j
    have hall := (Loopback.of_serve (k := j) hserve).1
    rw [hnone, ite_self, List.nil_append] at hall
    exact hall.symm
  cases h with
  | queued hphase hnext =>
    refine Or.inr ⟨?_, fun k => Loopback.unreadAt_queueReader⟩
    rcases hnext with rfl | rfl <;> nofun
  | got hphase hturn hk hserve =>
    obtain rfl := Option.some.inj (hlink.symm.trans hk)
    exact Or.inl ⟨_, hphase, rfl, rfl, fun j => (Loopback.of_serve hserve).1⟩
  | tired hphase hturn hk hserve => exact Or.inr ⟨nofun, hsame rfl hserve⟩
  | lost hphase hturn hk hserve => exact Or.inr ⟨nofun, hsame rfl hserve⟩
  | waits hphase hturn hk hserve => exact Or.inr ⟨nofun, hsame rfl hserve⟩
  | _ => exact Or.inr ⟨nofun, fun _ => rfl⟩

/-! ### All in order -/

/-- The task of a generation queues on a link or has its turn there. -/
def InLine (st : Station) (link generation : Nat) : Prop :=
  ∃ t, st.captureTask? generation = some t ∧ t.phase.isInLine = true ∧
    st.linkOf? t.handle = some link

/-- A station that goes about its routine: a port that is captured has a task to read its
capture, the reads that queue are those of tasks, and nothing is closing down. -/
structure Tended (st : Station) : Prop where
  consistent : st.Consistent
  sound : st.registry.Sound
  attended : ∀ i c, st.registry.capture? i = some c →
    (st.captureTask? c.generation).isSome = true
  line : ∀ link, (st.registry.backend.ticketsAt link).Nodup ∧
    ∀ g, g ∈ st.registry.backend.ticketsAt link ↔ st.InLine link g
  staying : ∀ t ∈ st.registry.tasks, t.exiting = false
  unclosed : st.inbound.closed = false
  capacity : 0 < st.inbound.capacity

namespace Tended

/-- Where there is no task, none waits. -/
theorem ofSettings (settings : Settings) : (Station.ofSettings settings).Tended where
  consistent := .ofSettings settings
  sound := .ofSettings settings
  attended _ _ h := by cases h
  line link := by
    refine ⟨List.nodup_nil, fun g => iff_of_false List.not_mem_nil ?_⟩
    rintro ⟨t, ht, -⟩
    cases ht
  staying _ h := by cases h
  unclosed := rfl
  capacity := Nat.le_max_right _ _

/-- The handle of a task leads to a link. -/
theorem exists_link (h : st.Tended) (ht : t ∈ st.registry.tasks) :
    ∃ hd l, st.registry.backend.handles[t.handle]? = some hd ∧
      st.registry.backend.links[hd.link]? = some l ∧ l.name = hd.interface := by
  have hnumber := h.consistent.numbered.handle t.ifIndex t.capture (.inr ⟨t, ht, rfl, rfl⟩)
  have hle := h.consistent.ranked.le t ht
  have hlength := h.consistent.numbered.length
  have hlt : t.handle < st.registry.backend.handles.length := by
    have hsame : t.generation = t.handle + 1 := hnumber
    omega
  have hhd := List.getElem?_eq_getElem hlt
  obtain ⟨l, hl, hname⟩ := h.sound.wired.backend.reach _ (List.mem_of_getElem? hhd)
  exact ⟨_, l, hhd, hl, hname⟩

/-- The handle of a task leads to a link. -/
theorem exists_linkOf? (h : st.Tended) (ht : t ∈ st.registry.tasks) :
    ∃ link, st.linkOf? t.handle = some link ∧
      ∃ l, st.registry.backend.links[link]? = some l := by
  obtain ⟨hd, l, hhd, hl, -⟩ := h.exists_link ht
  exact ⟨hd.link, by rw [linkOf?, hhd]; rfl, l, hl⟩

/-- **A task ends** only if its port does not have its capture any more. -/
theorem isCurrent_of_ends (h : st.Tended) (ht : t ∈ st.registry.tasks)
    (hadvance : st.Advance t none lo box) :
    st.registry.isCurrent t.ifIndex t.generation = false := by
  cases hadvance with
  | leaves hphase hexit =>
    rw [h.staying t ht] at hexit
    cases hexit
  | superseded hphase hlost => exact hlost
  | refused hphase haccess =>
    refine Bool.eq_false_iff.2 fun hcurrent => ?_
    obtain ⟨c, hc, hg⟩ := Registry.isCurrent_eq_true_iff.1 hcurrent
    obtain ⟨-, rfl⟩ := h.consistent.numbered.agree.eq_capture ht hc hg
    obtain ⟨starts, horder⟩ := h.sound.ordered
    have hopen : st.registry.backend.isOpen t.handle = true := by
      refine horder.isOpen_iff.2 ⟨t.ifIndex, ?_⟩
      rw [Registry.handle?, hc]
      rfl
    obtain ⟨hd, l, hhd, hl, -⟩ := h.exists_link ht
    rw [Loopback.isOpen, hhd, Option.any_some, Bool.not_eq_true'] at hopen
    simp [Loopback.access, hhd, hopen, hl] at haccess
  | lost hphase hturn hlink hserve =>
    obtain ⟨l, hl, hgone⟩ := Loopback.of_serve_gone hserve
    rw [h.sound.wired.backend.present l hl] at hgone
    cases hgone
  | dropped hphase hlost => exact hlost
  | unheard hphase hclosed =>
    rw [h.unclosed] at hclosed
    cases hclosed
  | stranded hphase hclosed =>
    rw [h.unclosed] at hclosed
    cases hclosed

end Tended

/-! ### What routine keeps -/

/-- No step of a task gives a link another name. -/
theorem labels_step (hranked : st.registry.Ranked) (task : StationTask) :
    (st.step task).registry.backend.labels = st.registry.backend.labels := by
  rcases step_cases hranked task with
    ⟨heq, -⟩ | ⟨t, phase?, lo, box, -, -, hadvance, heq⟩ |
    ⟨i, s, ticker, triggers, stamp, -, -, -, heq⟩
  · rw [heq]
  · rw [heq, backend_become]
    cases hadvance with
    | queued => exact Loopback.labels_queueReader
    | got _ _ _ h => exact Loopback.labels_of_serve h
    | tired _ _ _ h => exact Loopback.labels_of_serve h
    | lost _ _ _ h => exact Loopback.labels_of_serve h
    | waits _ _ _ h => exact Loopback.labels_of_serve h
    | _ => rfl
  · rw [heq]
    rfl

/-- **Tasks leave a registry sound.** -/
theorem sound_step (h : st.registry.Sound) (hranked : st.registry.Ranked) (task : StationTask) :
    (st.step task).registry.Sound := by
  obtain ⟨-, surroundings, hdrift⟩ := drifts_step st task
  obtain ⟨starts, horder⟩ := h.ordered
  refine ⟨?_, ⟨starts, inOrder_step horder hranked task⟩, ?_⟩
  · rw [hdrift]
    show (st.registry.react st.now (.surround surroundings)).AlarmsAgree
    exact h.alarms.react _
  · have hhandles := handles_step hranked task
    refine h.wired.of_captures (h.wired.backend.of_handles (labels_step hranked task) hhandles)
      (fun k hd hhd => ⟨hd, hhandles ▸ hhd, rfl⟩) fun j s' c hs' hc => ?_
    rw [hdrift, Registry.session?_surround] at hs'
    obtain ⟨s, hs, rfl⟩ := Option.map_eq_some_iff.1 hs'
    exact ⟨s, hs, rfl, hc⟩

/-- So do requests to transmit that are taken, and a wheel that is turned. -/
theorem sound_surround {r : Registry} (h : r.Sound) (triggers : Triggers) (wheel : Wheel) :
    { r with triggers, alarms := { r.alarms with wheel } }.Sound := by
  have halarms : (r.react 0 (.surround ⟨r.backend, r.tasks, triggers, wheel,
      fun _ t => t⟩)).AlarmsAgree := h.alarms.react _
  rw [Registry.react, Registry.surround_of_tickers] at halarms
  obtain ⟨starts, horder⟩ := h.ordered
  exact ⟨halarms, ⟨starts, horder.of_sessions rfl rfl rfl rfl⟩,
    h.wired.of_captures h.wired.backend (fun _ hd hhd => ⟨hd, hhd, rfl⟩)
      fun j s c hs hc => ⟨s, hs, rfl, hc⟩⟩

/-- **Routine leaves a registry sound.** -/
theorem sound_after (h : st.registry.Sound) (hranked : st.registry.Ranked)
    (hx : x.isRoutine = true) : (st.after x).registry.Sound := by
  cases x with
  | task task => exact sound_step h hranked task
  | operation o => exact h.operate st.now o
  | packet deliver =>
    obtain rfl : deliver = true := hx
    unfold after
    cases st.inbound.take? with
    | none => exact h
    | some item => exact h.operate st.now (.inbound item.1)
  | trigger deliver =>
    obtain rfl : deliver = true := hx
    unfold after
    cases st.registry.triggers.take? with
    | none => exact h
    | some item =>
      have htaken := sound_surround h item.2 st.registry.alarms.wheel
      exact htaken.operate st.now (.transmit item.1)
  | turn => exact sound_surround h st.registry.triggers (st.registry.alarms.wheel.turn st.now)
  | expiry i => cases hx
  | shutdown => cases hx
  | exit => cases hx
  | close => cases hx

/-- The mailbox is not closed by a task, and holds as much as before. -/
theorem Advance.box_keeps (h : st.Advance t phase? lo box) :
    box.closed = st.inbound.closed ∧ box.capacity = st.inbound.capacity := by
  obtain ⟨hclosed, hcapacity, -⟩ := @Mailbox.settle_keeps _ _ _ st.inbound t.generation
  cases h with
  | stranded => exact ⟨hclosed, hcapacity⟩
  | settled => exact ⟨hclosed, hcapacity⟩
  | _ => exact ⟨rfl, rfl⟩

/-- Nor does it lead a handle elsewhere. -/
theorem linkOf?_become (h : st.Advance t phase? lo box) {handle : Nat} :
    (st.become generation phase? lo box).linkOf? handle = st.linkOf? handle := by
  rw [linkOf?, backend_become, h.handles, linkOf?]

/-- **Who queues after a step** of a task. -/
theorem inLine_become (ht : st.captureTask? t.generation = some t)
    (hlink : st.linkOf? t.handle = some link) (h : st.Advance t phase? lo box) {k g : Nat} :
    (st.become t.generation phase? lo box).InLine k g ↔
      if g = t.generation then phase?.any CapturePhase.isInLine = true ∧ k = link
      else st.InLine k g := by
  unfold InLine
  simp only [linkOf?_become h]
  split_ifs with hg
  · rw [hg, captureTask?_become ht]
    constructor
    · rintro ⟨u, hu, hline, hk⟩
      obtain ⟨phase, rfl, rfl⟩ := Option.map_eq_some_iff.1 hu
      exact ⟨hline, Option.some.inj (hk.symm.trans hlink)⟩
    · rintro ⟨hline, rfl⟩
      obtain ⟨phase, rfl, hphase⟩ := (Option.any_eq_true ..).1 hline
      exact ⟨_, rfl, hphase, hlink⟩
  · rw [captureTask?_become_of_ne hg]

/-- A capture that is opened comes with a task. -/
theorem exists_launched (hranked : st.registry.Ranked)
    (hnew : st.registry.generation < generation)
    (hle : generation ≤ (st.after x).registry.generation) :
    ∃ t ∈ (st.after x).registry.tasks, t.generation = generation := by
  have hg := generation_after hranked x
  rcases launched_cases hranked x with haltered | ⟨hnone, -⟩
  · have hmem : generation ∈ (st.launched x).map CaptureTask.generation := by
      rw [haltered.generations.1, List.mem_range'_1]
      omega
    obtain ⟨t, ht, rfl⟩ := List.mem_map.1 hmem
    exact ⟨t, haltered.tasks ▸ List.mem_append_right _ ht, rfl⟩
  · rw [hnone] at hg
    have hsame : (st.after x).registry.generation = st.registry.generation := hg
    omega

namespace Tended

/-- A port that is captured keeps its task. -/
theorem attended_after (h : st.Tended) (x : Incident) (i : IfIndex) (c : Capture)
    (hc : (st.after x).registry.capture? i = some c) :
    ((st.after x).captureTask? c.generation).isSome = true := by
  have hafter := h.consistent.after x
  rcases capture?_after h.consistent.ranked hc with hold | hnew
  · obtain ⟨t, ht⟩ := Option.isSome_iff_exists.1 (h.attended i c hold)
    rcases follow_cases h.consistent.ranked c.generation x with
      ⟨u, phase?, lo, box, -, hg, hu, hadvance, heq⟩ | ⟨heq, -⟩ | ⟨-, heq⟩ | ⟨-, -, hnone, -⟩
    · obtain ⟨rfl, -⟩ :=
        h.consistent.numbered.agree.eq_capture (mem_of_captureTask? hu) hold hg.symm
      rw [heq, ← hg, captureTask?_become hu]
      cases phase? with
      | some phase => rfl
      | none =>
        have hlost := h.isCurrent_of_ends (mem_of_captureTask? hu) hadvance
        rw [hg, Registry.isCurrent_eq_true_iff.2 ⟨c, hold, rfl⟩] at hlost
        cases hlost
    · rw [heq, ht]
      rfl
    · rw [heq, ht]
      rfl
    · cases hnone.symm.trans ht
  · have hle := hafter.numbered.agree.le i c (.inl hc)
    obtain ⟨t, ht, hg⟩ := exists_launched h.consistent.ranked hnew hle
    rw [(captureTask?_eq_some_iff hafter.ranked).2 ⟨ht, hg⟩]
    rfl

/-- The reads that queue are those of tasks after a step of one of them. -/
theorem line_become (h : st.Tended) (ht : st.captureTask? t.generation = some t)
    (hadvance : st.Advance t phase? lo box) (k : Nat) :
    (lo.ticketsAt k).Nodup ∧
      ∀ g, g ∈ lo.ticketsAt k ↔ (st.become t.generation phase? lo box).InLine k g := by
  obtain ⟨hnodup, hmem⟩ := h.line k
  obtain ⟨link, hlink, hl⟩ := h.exists_linkOf? (mem_of_captureTask? ht)
  have hself : st.InLine k t.generation ↔ t.phase.isInLine = true ∧ k = link := by
    constructor
    · rintro ⟨u, hu, hline, hk⟩
      obtain rfl := Option.some.inj (ht.symm.trans hu)
      exact ⟨hline, Option.some.inj (hk.symm.trans hlink)⟩
    · rintro ⟨hline, rfl⟩
      exact ⟨t, ht, hline, hlink⟩
  simp only [inLine_become ht hlink hadvance]
  rcases hadvance.line_cases hlink hl with
    ⟨hsame, hphase⟩ | ⟨hbefore, hphase, hjoins⟩ | ⟨hbefore, hphase, hleaves⟩
  · rw [hsame]
    refine ⟨hnodup, fun g => ?_⟩
    split_ifs with hg
    · rw [hg, hmem, hself, hphase]
    · exact hmem g
  · have hnot : t.generation ∉ st.registry.backend.ticketsAt k := by
      rw [hmem, hself, hbefore]
      exact fun hline => Bool.false_ne_true hline.1
    rw [hjoins, hphase]
    constructor
    · split_ifs
      · exact List.nodup_append.2 ⟨hnodup, List.nodup_singleton _, by
          rintro a ha b hb rfl
          exact hnot (List.mem_singleton.1 hb ▸ ha)⟩
      · rw [List.append_nil]
        exact hnodup
    · intro g
      rw [List.mem_append, ← hmem g]
      split_ifs with hk hg hg <;> simp_all
  · have hfirst := hleaves k
    rw [hphase]
    rw [hfirst] at hnodup
    constructor
    · exact hnodup.of_append_right
    · intro g
      rw [← hmem g, hfirst, List.mem_append]
      have hdisjoint := List.disjoint_of_nodup_append hnodup
      split_ifs at hdisjoint ⊢ with hk hg hg <;> simp_all

/-- Who queued while no task moves, queues afterwards, and nobody else does. -/
theorem inLine_of_rests (h : st.Tended) (hrests : st.Rests ps st') {k g : Nat} :
    st.InLine k g ↔ st'.InLine k g := by
  constructor
  · rintro ⟨t, ht, hline, hk⟩
    have hle := h.consistent.ranked.le t (mem_of_captureTask? ht)
    rw [generation_of_captureTask? ht] at hle
    exact ⟨t, (hrests.captureTask?_of_le hle).trans ht, hline, linkOf?_of_quiet hrests.quiet hk⟩
  · rintro ⟨t, ht, hline, hk⟩
    rcases hrests.captureTask?_cases ht with hold | ⟨hphase, -⟩
    · obtain ⟨link, hlink, -⟩ := h.exists_linkOf? (mem_of_captureTask? hold)
      have hsame := linkOf?_of_quiet hrests.quiet hlink
      obtain rfl := Option.some.inj (hsame.symm.trans hk)
      exact ⟨t, hold, hline, hlink⟩
    · rw [hphase] at hline
      cases hline

/-- **In routine**, the reads that queue on a link are those of the tasks that wait for it. -/
theorem line_after (h : st.Tended) (hx : x.isRoutine = true) (k : Nat) :
    ((st.after x).registry.backend.ticketsAt k).Nodup ∧
      ∀ g, g ∈ (st.after x).registry.backend.ticketsAt k ↔ (st.after x).InLine k g := by
  obtain ⟨hnodup, hmem⟩ := h.line k
  rcases routine_cases h.consistent.ranked hx with
    ⟨t, phase?, lo, box, -, ht, hadvance, heq⟩ | ⟨name, frames, -, heq⟩ | ⟨-, hrests⟩
  · rw [heq, backend_become]
    exact h.line_become ht hadvance k
  · rw [heq]
    show (((st.registry.backend).inject name frames).ticketsAt k).Nodup ∧ ∀ g,
      g ∈ ((st.registry.backend).inject name frames).ticketsAt k ↔ _
    rw [Loopback.ticketsAt_inject]
    refine ⟨hnodup, fun g => (hmem g).trans ?_⟩
    unfold InLine
    rw [linkOf?_inject]
    rfl
  · rw [hrests.quiet.tickets]
    exact ⟨hnodup, fun g => (hmem g).trans (h.inLine_of_rests hrests)⟩

/-- In routine, no task is told of the exit signal. -/
theorem staying_after (h : st.Tended) (hx : x.isRoutine = true) :
    ∀ t ∈ (st.after x).registry.tasks, t.exiting = false := by
  intro u hu
  rcases routine_cases h.consistent.ranked hx with
    ⟨t, phase?, lo, box, -, ht, hadvance, heq⟩ | ⟨name, frames, -, heq⟩ | ⟨-, hrests⟩
  · rw [heq] at hu
    cases phase? with
    | none => exact h.staying u (List.mem_of_mem_filter hu)
    | some phase =>
      obtain ⟨v, hv, rfl⟩ := List.mem_map.1 hu
      have hstays := h.staying v hv
      split_ifs <;> exact hstays
  · rw [heq] at hu
    exact h.staying u hu
  · obtain ⟨log, htasks, hlog⟩ := hrests.tasks
    rw [htasks] at hu
    rcases List.mem_append.1 hu with hold | hnew
    · exact h.staying u hold
    · exact (hlog u hnew).2.1

/-- In routine, nobody closes the mailbox. -/
theorem inbound_keeps (h : st.Tended) (hx : x.isRoutine = true) :
    (st.after x).inbound.closed = st.inbound.closed ∧
      (st.after x).inbound.capacity = st.inbound.capacity := by
  rcases routine_cases h.consistent.ranked hx with
    ⟨t, phase?, lo, box, -, -, hadvance, heq⟩ | ⟨name, frames, -, heq⟩ | ⟨-, hrests⟩
  · rw [heq, inbound_become]
    exact hadvance.box_keeps
  · rw [heq]
    exact ⟨rfl, rfl⟩
  · obtain ⟨rest, -, hbox⟩ := hrests.inbound
    rw [hbox]
    exact ⟨rfl, rfl⟩

/-- **Routine keeps a station tended.** -/
theorem after (h : st.Tended) (hx : x.isRoutine = true) : (st.after x).Tended where
  consistent := h.consistent.after x
  sound := sound_after h.sound h.consistent.ranked hx
  attended := h.attended_after x
  line := h.line_after hx
  staying := h.staying_after hx
  unclosed := (h.inbound_keeps hx).1.trans h.unclosed
  capacity := by
    rw [(h.inbound_keeps hx).2]
    exact h.capacity

end Tended

end Station
end Lldp
