/-
# The last steps of tasks

Once a station has told its tasks that it is closing down, the task that reads a capture ends
where it would begin to read anew, and a ticker is served for the last time before the clock
goes on.  So until time passes there are only so many steps left to make
(`Station.stepsLeft`): what a task still has before it depends on the phase that it is in
(`CapturePhase.stepsLeft`, `Ticker.stepsLeft`), and a read that queues has its share
(`Link.work`).  Every step of a task that is able leaves fewer (`Told.stepsLeft_step`), in
whatever order tasks get on.

How many there are at the most is told by how many tasks and ports there are
(`Tended.stepsLeft_le`), since reads that queue are those of tasks.
-/

import Lldp.Proofs.Registry.AtRest
import Lldp.Proofs.Station.Prompting
import Lldp.Proofs.Ticker
import Lldp.Proofs.Turns
import Mathlib.Algebra.Order.BigOperators.Group.List
import Mathlib.Algebra.Order.Group.Nat
import Mathlib.Data.List.Perm.Subperm

namespace Lldp

/-! ### Sums in which one member changes -/

section Sums

variable {α κ : Type} {f : α → Nat} {xs : List α} {a b : α} {k : Nat}

/-- What stands before and after the one of a key. -/
theorem exists_split_of_key (key : α → κ) (hnodup : (xs.map key).Nodup) (ha : a ∈ xs) :
    ∃ before after, xs = before ++ a :: after ∧ ∀ x ∈ before ++ after, key x ≠ key a := by
  obtain ⟨before, after, rfl⟩ := List.append_of_mem ha
  refine ⟨before, after, rfl, fun x hx hkey => ?_⟩
  have hperm : ((before ++ a :: after).map key).Perm (key a :: (before ++ after).map key) := by
    rw [← List.map_cons]
    exact List.perm_middle.map key
  exact (List.nodup_cons.1 (hperm.nodup_iff.1 hnodup)).1 (hkey ▸ List.mem_map_of_mem hx)

theorem sum_map_set (h : xs[k]? = some a) :
    ((xs.set k b).map f).sum + f a = (xs.map f).sum + f b := by
  induction xs generalizing k with
  | nil => cases h
  | cons x xs ih =>
    cases k with
    | zero =>
      obtain rfl := Option.some.inj h
      rw [List.set_cons_zero, List.map_cons, List.map_cons, List.sum_cons, List.sum_cons]
      omega
    | succ k =>
      have hrest := ih (k := k) h
      rw [List.set_cons_succ, List.map_cons, List.map_cons, List.sum_cons, List.sum_cons]
      omega

end Sums

/-! ### One ticker -/

namespace Ticker

variable {t : Ticker} {box : Triggers} {now stamp : Nat} {link : LinkState}
  {done : Ticker × Triggers}

/-- How many more steps a ticker makes at the most before time passes. -/
def stepsLeft (now : Nat) (t : Ticker) : Nat :=
  match t.phase with
  | .starting => 1
  | .sleeping due _ => if due ≤ now then 2 else 0
  | .sending due => if due ≤ now then 3 else 1
  | .finished => 0

theorem stepsLeft_le (now : Nat) (t : Ticker) : t.stepsLeft now ≤ 3 := by
  unfold stepsLeft
  split
  · decide
  · split_ifs <;> decide
  · split_ifs <;> decide
  · decide

/-- **A ticker that has something to do** has fewer steps left when it has done it, since its
next tick is more than the grace away. -/
theorem Turn.stepsLeft_lt (h : Turn t now stamp link box done) (hperiod : grace < t.period) :
    done.1.stepsLeft now < t.stepsLeft now := by
  have hlater : ∀ due, ¬nextDue due now t.period ≤ now := fun due => by
    have hle := @now_add_period_le_nextDue now due t.period
    omega
  unfold stepsLeft
  cases h with
  | begins hphase =>
    have hfirst : ¬now + t.period ≤ now := by omega
    simp [hphase, hfirst]
  | despairs hphase => simp [hphase]
  | skips due stamp' hphase hdue => simp [hphase, hdue, hlater]
  | refused due stamp' hphase hdue => simp [hphase, hdue]
  | asks due stamp' hphase hdue => simp [hphase, hdue, hlater]
  | waits due stamp' hphase hdue => simp [hphase, hdue, hlater]
  | leaves due hphase =>
    rw [hphase]
    dsimp only
    split_ifs <;> decide
  | goesOn due hphase =>
    rw [hphase]
    dsimp only
    split_ifs <;> decide

end Ticker

/-! ### One task that reads a capture -/

/-- How many more steps the task of a capture makes at the most that has been told of the exit
signal.  To queue adds to the steps that reads make on its link. -/
def CapturePhase.stepsLeft : CapturePhase → Nat
  | watching => 1
  | sending => 2
  | passing _ => 3
  | holding _ => 4
  | reading => 5
  | waiting => 6
  | queueing => 9
  | opening => 10
  | checking => 11

theorem CapturePhase.stepsLeft_le (phase : CapturePhase) : phase.stepsLeft ≤ 11 := by
  cases phase <;> simp [stepsLeft]

theorem CapturePhase.effort_le (phase : CapturePhase) : phase.effort ≤ 1 := by
  cases phase <;> simp [effort]

namespace Loopback

variable {lo lo' : Loopback} {link now handle ticket : Nat}
  {ended : Option (Nat × ReadOutcome)}

/-- How many steps reads make at the most, on all links. -/
def work (lo : Loopback) : Nat := (lo.links.map Link.work).sum

/-- **A turn that can go on** leaves less to do. -/
theorem work_serve (hcan : lo.canServe link now = true)
    (h : lo.serve link now = (ended, lo')) : lo'.work < lo.work := by
  obtain ⟨l, hl, hcan⟩ := (Option.any_eq_true ..).1 hcan
  unfold serve at h
  rw [hl] at h
  obtain ⟨-, rfl⟩ := Prod.mk.inj h
  have hless := (Link.work_serve hcan).1
  have hsum := @sum_map_set _ Link.work lo.links l (l.serve now).2 link hl
  unfold work
  dsimp only
  omega

/-- A read that queues makes two steps at the most. -/
theorem work_queueReader (lo : Loopback) (handle ticket : Nat) :
    (lo.queueReader handle ticket).work ≤ lo.work + 2 := by
  unfold queueReader
  cases lo.handles[handle]? with
  | none => exact Nat.le_add_right _ 2
  | some hd =>
    have hone : ∀ l : Link, ({ l with
        readers := l.readers ++ [{ ticket, patience := hd.patience }] } : Link).work ≤
        l.work + 2 := by
      intro l
      unfold Link.work
      cases l.readers with
      | nil => exact Nat.le_refl 2
      | cons r rest =>
        simp only [List.cons_append, List.length_append, List.length_singleton]
        omega
    unfold work
    dsimp only
    rw [List.modify_eq_set_getElem?]
    cases hl : lo.links[hd.link]? with
    | none => exact Nat.le_add_right _ 2
    | some l =>
      have hsum := @sum_map_set _ Link.work lo.links l
        { l with readers := l.readers ++ [{ ticket, patience := hd.patience }] } hd.link hl
      have hless := hone l
      rw [Option.map_eq_map, Option.map_some, Option.getD_some]
      omega

end Loopback

namespace Station

variable {st : Station} {t : CaptureTask} {phase? : Option CapturePhase} {lo : Loopback}
  {box : Mailbox Nat Inbound} {i : IfIndex} {s : Session} {task : StationTask}

/-- **A task that has been told of the exit signal** has fewer steps left after each, together
with what reads have. -/
theorem Advance.stepsLeft_lt (h : st.Advance t phase? lo box) (hexit : t.exiting = true)
    (hready : st.captureReady t = true) :
    phase?.elim 0 CapturePhase.stepsLeft + lo.work <
      t.phase.stepsLeft + st.registry.backend.work := by
  have hserve : ∀ {link ended}, t.phase = .reading → st.linkOf? t.handle = some link →
      st.registry.backend.serve link st.now = (ended, lo) →
      lo.work < st.registry.backend.work := by
    intro link ended hphase hlink hserve
    simp only [captureReady, hphase, hlink, Option.any_some, Bool.and_eq_true] at hready
    exact Loopback.work_serve hready.2 hserve
  cases h with
  | stays hphase hstays => cases hexit.symm.trans hstays
  | queued hphase hnext =>
    have hmore := st.registry.backend.work_queueReader t.handle t.generation
    rw [hphase]
    rcases hnext with rfl | rfl <;> simp only [Option.elim_some, CapturePhase.stepsLeft] <;> omega
  | got hphase _ hlink h | tired hphase _ hlink h | lost hphase _ hlink h
  | waits hphase _ hlink h =>
    have hless := hserve hphase hlink h
    rw [hphase]
    simp only [Option.elim_some, Option.elim_none, CapturePhase.stepsLeft]
    omega
  | _ hphase =>
    rw [hphase]
    simp only [Option.elim_some, Option.elim_none, CapturePhase.stepsLeft]
    omega

/-! ### All tasks -/

/-- How many more steps a port's ticker makes at the most before time passes, if it has one. -/
def tickerSteps (now : Nat) (s : Session) : Nat := s.transmitter.ticker.elim 0 (·.stepsLeft now)

/-- How many more steps the tasks of a station make at the most before time passes, if they
have been told that it is closing down. -/
def stepsLeft (st : Station) : Nat :=
  (st.registry.tasks.map (·.phase.stepsLeft)).sum + st.registry.backend.work +
    (st.registry.sessions.map (tickerSteps st.now)).sum

/-- A station that has told its tasks that it is closing down. -/
structure Told (st : Station) : Prop where
  consistent : st.Consistent
  tickers : st.registry.TickersAgree
  exiting : ∀ t ∈ st.registry.tasks, t.exiting = true

/-- The task that makes a step has other steps left afterwards, and no other has. -/
theorem sum_become (hranked : st.registry.Ranked) (ht : t ∈ st.registry.tasks) :
    ((st.become t.generation phase? lo box).registry.tasks.map (·.phase.stepsLeft)).sum +
        t.phase.stepsLeft =
      (st.registry.tasks.map (·.phase.stepsLeft)).sum +
        phase?.elim 0 CapturePhase.stepsLeft := by
  have hnodup : (st.registry.tasks.map CaptureTask.generation).Nodup :=
    hranked.sorted.imp Nat.ne_of_lt
  obtain ⟨before, after, htasks, hothers⟩ :=
    exists_split_of_key CaptureTask.generation hnodup ht
  have hbefore : ∀ u ∈ before, ¬u.generation = t.generation := fun u hu =>
    hothers u (List.mem_append_left _ hu)
  have hafter : ∀ u ∈ after, ¬u.generation = t.generation := fun u hu =>
    hothers u (List.mem_append_right _ hu)
  cases phase? with
  | none =>
    have hleft : (st.become t.generation none lo box).registry.tasks = before ++ after := by
      show st.registry.tasks.filter (·.generation ≠ t.generation) = _
      rw [htasks, List.filter_append, List.filter_cons_of_neg (by simp),
        List.filter_eq_self.2 (by simpa using hbefore),
        List.filter_eq_self.2 (by simpa using hafter)]
    rw [hleft, htasks]
    simp only [List.map_append, List.map_cons, List.sum_append, List.sum_cons, Option.elim_none]
    omega
  | some phase =>
    have hsame : ∀ {us : List CaptureTask}, (∀ u ∈ us, ¬u.generation = t.generation) →
        (us.map fun u => if u.generation = t.generation then { u with phase } else u) = us :=
      fun hus => (List.map_congr_left fun u hu => if_neg (hus u hu)).trans (List.map_id _)
    have hleft : (st.become t.generation (some phase) lo box).registry.tasks =
        before ++ { t with phase } :: after := by
      show (st.registry.tasks.map fun u =>
        if u.generation = t.generation then { u with phase } else u) = _
      rw [htasks, List.map_append, List.map_cons, hsame hbefore, hsame hafter, if_pos rfl]
    rw [hleft, htasks]
    simp only [List.map_append, List.map_cons, List.sum_append, List.sum_cons, Option.elim_some]
    omega

/-- The ticker that makes a step has other steps left afterwards, and no other has. -/
theorem sum_withTicker {r : Registry} (hd : r.Distinct) (hs : s ∈ r.sessions) (now : Nat)
    (t : Ticker) :
    ((r.modify s.port.ifIndex (·.withTicker t)).sessions.map (tickerSteps now)).sum +
        tickerSteps now s =
      (r.sessions.map (tickerSteps now)).sum + t.stepsLeft now := by
  obtain ⟨before, after, hsessions, hothers⟩ :=
    exists_split_of_key (fun s : Session => s.port.ifIndex) hd hs
  have hsame : ∀ {us : List Session}, (∀ u ∈ us, ¬u.port.ifIndex = s.port.ifIndex) →
      (us.map fun u => if u.port.ifIndex = s.port.ifIndex then u.withTicker t else u) = us :=
    fun hus => (List.map_congr_left fun u hu => if_neg (hus u hu)).trans (List.map_id _)
  have hleft : (r.modify s.port.ifIndex (·.withTicker t)).sessions =
      before ++ s.withTicker t :: after := by
    show (r.sessions.map fun u =>
      if u.port.ifIndex = s.port.ifIndex then u.withTicker t else u) = _
    rw [hsessions, List.map_append, List.map_cons, if_pos rfl,
      hsame fun u hu => hothers u (List.mem_append_left _ hu),
      hsame fun u hu => hothers u (List.mem_append_right _ hu)]
  have hnext : tickerSteps now (s.withTicker t) = t.stepsLeft now := rfl
  rw [hleft, hsessions]
  simp only [List.map_append, List.map_cons, List.sum_append, List.sum_cons, hnext]
  omega

/-- **To give the exit signal** tells all tasks. -/
theorem told_exit (hconsistent : st.Consistent) (htickers : st.registry.TickersAgree) :
    (st.after .exit).Told where
  consistent := hconsistent.after .exit
  tickers := by
    obtain ⟨starts, horder⟩ := hconsistent.ordered
    exact tickersAgree_after htickers horder hconsistent.ranked .exit
  exiting t ht := by
    obtain ⟨u, -, rfl⟩ := List.mem_map.1 ht
    rfl

/-- It takes and leaves no step. -/
theorem stepsLeft_exit (st : Station) : (st.after .exit).stepsLeft = st.stepsLeft := by
  have htasks : (st.registry.announceExit.tasks.map (·.phase.stepsLeft)).sum =
      (st.registry.tasks.map (·.phase.stepsLeft)).sum := by
    rw [Registry.announceExit, List.map_map]
    rfl
  exact congrArg (· + _ + _) htasks

namespace Told

theorem distinct (h : st.Told) : st.registry.Distinct := by
  obtain ⟨starts, horder⟩ := h.consistent.ordered
  exact horder.distinct

/-- What happens to a station that tells no task otherwise, and sets none off. -/
theorem after (h : st.Told) (x : Incident)
    (hexiting : ∀ t ∈ (st.after x).registry.tasks, t.exiting = true) : (st.after x).Told where
  consistent := h.consistent.after x
  tickers := by
    obtain ⟨starts, horder⟩ := h.consistent.ordered
    exact tickersAgree_after h.tickers horder h.consistent.ranked x
  exiting := hexiting

/-- **Tasks get on.** -/
theorem step (h : st.Told) (task : StationTask) : (st.step task).Told := by
  refine h.after (.task task) fun t ht => ?_
  rw [after_task] at ht
  rcases step_cases h.consistent.ranked task with
    ⟨heq, -⟩ | ⟨u, phase?, lo, box, -, -, -, heq⟩ | ⟨i, s, ticker, triggers, stamp, -, -, -, heq⟩
  · rw [heq] at ht
    exact h.exiting t ht
  · rw [heq] at ht
    cases phase? with
    | none => exact h.exiting t (List.mem_of_mem_filter ht)
    | some phase =>
      obtain ⟨v, hv, rfl⟩ := List.mem_map.1 ht
      split_ifs
      · exact h.exiting v hv
      · exact h.exiting v hv
  · rw [heq] at ht
    exact h.exiting t ht

/-- To stop all ports sets no task off. -/
theorem shutdown (h : st.Told) : (st.after .shutdown).Told := by
  refine h.after .shutdown fun t ht => h.exiting t ?_
  rwa [← Registry.tasks_shutdown]

/-- Nor does it if nobody reads the mailboxes any more. -/
theorem close (h : st.Told) : (st.after .close).Told := h.after .close h.exiting

/-- **To stop all ports** leaves no step to tickers, and to other tasks those that they had. -/
theorem stepsLeft_shutdown (h : st.Told) : (st.after .shutdown).stepsLeft ≤ st.stepsLeft := by
  have hwork : st.registry.shutdown.backend.work = st.registry.backend.work := by
    rw [Loopback.work, Registry.links_shutdown, Loopback.work]
  have hnone : (st.registry.shutdown.sessions.map (tickerSteps st.now)).sum = 0 := by
    rw [Registry.sessions_shutdown h.distinct, List.map_map]
    exact List.sum_eq_zero fun n hn => by
      obtain ⟨s, -, rfl⟩ := List.mem_map.1 hn
      rfl
  show (st.registry.shutdown.tasks.map (·.phase.stepsLeft)).sum +
    st.registry.shutdown.backend.work +
    (st.registry.shutdown.sessions.map (tickerSteps st.now)).sum ≤ _
  rw [Registry.tasks_shutdown, hwork, hnone, stepsLeft]
  omega

/-- **Every step of a task that is able** leaves fewer to make. -/
theorem stepsLeft_step (h : st.Told) (hable : task ∈ st.able) :
    (st.step task).stepsLeft < st.stepsLeft := by
  have hranked := h.consistent.ranked
  rcases List.mem_append.1 hable with hcapture | hticker
  · obtain ⟨t, hmem, rfl⟩ := List.mem_map.1 hcapture
    obtain ⟨ht, hready⟩ := List.mem_filter.1 hmem
    obtain ⟨phase?, lo, box, hadvance, heq⟩ := captureStep_cases hranked ht hready
    have htask := (captureTask?_eq_some_iff hranked).2 ⟨ht, rfl⟩
    have hstep : st.step (.capture t.generation) = st.become t.generation phase? lo box := by
      simp only [Station.step, htask, hready, if_true, heq]
    have hless := hadvance.stepsLeft_lt (h.exiting t ht) hready
    have hsum := @sum_become st t phase? lo box hranked ht
    have hothers : (st.become t.generation phase? lo box).registry.sessions =
        st.registry.sessions ∧ (st.become t.generation phase? lo box).now = st.now := by
      cases phase? <;> exact ⟨rfl, rfl⟩
    rw [hstep, stepsLeft, stepsLeft, backend_become, hothers.1, hothers.2]
    omega
  · obtain ⟨t, hmem, rfl⟩ := List.mem_map.1 hticker
    obtain ⟨hmem, hready⟩ := List.mem_filter.1 (List.mem_mergeSort.1 hmem)
    obtain ⟨s, hs, ht⟩ := List.mem_filterMap.1 hmem
    have hsession := Registry.session?_of_mem h.distinct hs
    obtain ⟨hown, hperiod, -⟩ :=
      h.tickers.own s.port.ifIndex t _ (Registry.beat?_of_session? hsession ht)
    have hstep := step_ticker_of_isReady hsession ht hready
    have hgrace : Ticker.grace < t.period := by
      have hpos := s.transmitter.timing.interval_pos
      rw [hperiod, Timing.period, Ticker.grace]
      omega
    have hless := (Ticker.turn_step st.stamp s.link hready).stepsLeft_lt hgrace
    have hsum := sum_withTicker (r := { st.registry with
      triggers := (t.step st.now st.stamp s.link st.registry.triggers).2 }) h.distinct hs st.now
      (t.step st.now st.stamp s.link st.registry.triggers).1
    have hnow : tickerSteps st.now s = t.stepsLeft st.now := by
      rw [tickerSteps, ht]
      rfl
    rw [hown, hstep]
    unfold stepsLeft
    dsimp only at hsum ⊢
    rw [hnow] at hsum
    show (st.registry.tasks.map _).sum + st.registry.backend.work + _ < _
    omega

end Told

/-! ### How many steps that is -/

/-- No step costs more than one. -/
theorem effort_le (st : Station) (task : StationTask) : effort task st ≤ 1 := by
  cases task with
  | capture generation =>
    show (st.captureTask? generation).elim 0 (fun t => t.phase.effort) ≤ 1
    cases st.captureTask? generation with
    | none => exact Nat.zero_le 1
    | some t => exact t.phase.effort_le
  | ticker i => exact Nat.zero_le 1

namespace Tended

/-- The reads that queue are no more than the tasks, since each is that of another. -/
theorem length_readers_le (h : st.Tended) :
    (st.registry.backend.links.flatMap (·.readers)).length ≤ st.registry.tasks.length := by
  have htickets : ∀ {k l}, st.registry.backend.links[k]? = some l →
      st.registry.backend.ticketsAt k = l.readers.map Reader.ticket := fun hl => by
    rw [Loopback.ticketsAt, hl, Option.elim_some]
  have hinLine : ∀ {k l g}, st.registry.backend.links[k]? = some l →
      g ∈ l.readers.map Reader.ticket → st.InLine k g := fun hl hg =>
    ((h.line _).2 _).1 ((htickets hl).symm ▸ hg)
  have hnodup : (st.registry.backend.links.flatMap fun l => l.readers.map Reader.ticket).Nodup := by
    refine List.nodup_flatMap.2 ⟨fun l hl => ?_, List.pairwise_iff_getElem.2 ?_⟩
    · obtain ⟨k, hk⟩ := List.mem_iff_getElem?.1 hl
      exact htickets hk ▸ (h.line k).1
    · intro j k hj hk hlt g hgj hgk
      obtain ⟨t, ht, -, hlink⟩ := hinLine (List.getElem?_eq_getElem hj) hgj
      obtain ⟨u, hu, -, hlink'⟩ := hinLine (List.getElem?_eq_getElem hk) hgk
      obtain rfl := Option.some.inj (ht.symm.trans hu)
      exact absurd (Option.some.inj (hlink.symm.trans hlink')) (Nat.ne_of_lt hlt)
  have hsubset : (st.registry.backend.links.flatMap fun l => l.readers.map Reader.ticket) ⊆
      st.registry.tasks.map CaptureTask.generation := by
    intro g hg
    obtain ⟨l, hl, hg⟩ := List.mem_flatMap.1 hg
    obtain ⟨k, hk⟩ := List.mem_iff_getElem?.1 hl
    obtain ⟨t, ht, -⟩ := hinLine hk hg
    exact List.mem_map.2 ⟨t, mem_of_captureTask? ht, generation_of_captureTask? ht⟩
  have hle := (hnodup.subperm hsubset).length_le
  rw [← List.map_flatMap, List.length_map, List.length_map] at hle
  exact hle

/-- **There are only so many steps left** to make. -/
theorem stepsLeft_le (h : st.Tended) :
    st.stepsLeft ≤ 13 * st.registry.tasks.length + 3 * st.registry.sessions.length := by
  have htasks : (st.registry.tasks.map (·.phase.stepsLeft)).sum ≤
      st.registry.tasks.length * 11 := by
    refine (List.sum_le_card_nsmul _ 11 fun n hn => ?_).trans_eq
      (by rw [List.length_map, Nat.nsmul_eq_mul])
    obtain ⟨t, -, rfl⟩ := List.mem_map.1 hn
    exact t.phase.stepsLeft_le
  have hsessions : (st.registry.sessions.map (tickerSteps st.now)).sum ≤
      st.registry.sessions.length * 3 := by
    refine (List.sum_le_card_nsmul _ 3 fun n hn => ?_).trans_eq
      (by rw [List.length_map, Nat.nsmul_eq_mul])
    obtain ⟨s, -, rfl⟩ := List.mem_map.1 hn
    unfold tickerSteps
    cases s.transmitter.ticker with
    | none => exact Nat.zero_le 3
    | some t => exact t.stepsLeft_le st.now
  have hreads : st.registry.backend.work ≤ 2 * st.registry.tasks.length :=
    (Link.sum_work_le _).trans (Nat.mul_le_mul_left 2 h.length_readers_le)
  unfold stepsLeft
  omega

end Tended

end Station
end Lldp
