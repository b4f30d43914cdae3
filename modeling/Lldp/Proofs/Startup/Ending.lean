/-
# Closing down comes to an end

A service that is told to close down has only so many steps left to make before time passes
(`Service.stepsLeft`).  Its dispatcher meets no more requests: it stops all ports and ends, and
whoever waits for an answer learns that there will be none.  The link-state controller sees the
request through that it has under way, looks for the exit signal and ends.  So every step of a
task that is able leaves fewer (`Service.ClosingDown.step`), and where none is able, neither of
the two is there any more (`Service.ClosingDown.ended`).

The script may still be registering ports when the service is told.  It goes on with the answer
that it has got, if it has got one, and gives up over the next (`Daemon.closingDown_step`).

Tasks are served in an order that nothing here depends on, so a daemon that has been started has
come to some point of start-up, at which no request has failed.  There it is told to close down,
and the steps that are left fit in what the machine allows (`Daemon.At.stepsLeft_le`).  Hence
the daemon of every plan ends in good order (`Startup.ofPlan_eq`).
-/

import Lldp.Proofs.Startup.Attended
import Lldp.Proofs.Station.Ending

namespace Lldp

/-- How many more steps are made at the most over what a client has asked: by the client itself,
by who takes the answer, and by the script if it goes on with it. -/
def ClientPhase.stepsLeft : ClientPhase → Nat
  | idle => 0
  | answered (.error _) => 1
  | awaiting => 2
  | sending => 3
  | answered (.ok _) => 6

/-- How many more steps a controller makes at the most that has been told of the exit signal. -/
def LinkWatch.stepsLeft (w : LinkWatch) : Nat :=
  if w.alive then (if w.pending.isSome then 2 else 1) else 0

namespace Service

variable {s : Service} {k : Nat} {task : ServiceTask}

/-- How many more steps the tasks of a service make at the most before time passes, if it has
been told to close down. -/
def stepsLeft (s : Service) : Nat :=
  s.station.stepsLeft + (s.clients.map ClientPhase.stepsLeft).sum + s.watch.stepsLeft +
    s.running.toNat

/-- **A service that has been told to close down.**  The controller's request is under way as
long as the controller waits for it, and without a dispatcher nobody waits for an answer. -/
structure ClosingDown (s : Service) : Prop where
  station : s.station.Told
  exiting : s.exiting = true
  leaving : s.watch.exiting = true
  clients : s.clients.length = 2
  asked : s.watch.pending ≠ none → s.client watcher ≠ .idle
  closed : s.running = false → s.commands.closed = true
  answered : s.running = false → ∀ j, s.client j ≠ .awaiting

theorem sum_setClient (phase : ClientPhase) (hk : k < s.clients.length) :
    ((s.setClient k phase).clients.map ClientPhase.stepsLeft).sum + (s.client k).stepsLeft =
      (s.clients.map ClientPhase.stepsLeft).sum + phase.stepsLeft := by
  refine sum_map_set ?_
  rw [client, List.getElem?_eq_getElem hk, Option.getD_some]

/-- **When the dispatcher has ended**, who waited for an answer has one, and others are where they
were. -/
theorem client_finish (s : Service) (k : Nat) :
    s.client k = .awaiting ∧ s.finish.client k = .answered (.error (closedError true)) ∨
      s.client k ≠ .awaiting ∧ s.finish.client k = s.client k := by
  have hvacate := @client_vacate (s.onRegistry Registry.shutdown) k
  have hbefore : (s.onRegistry Registry.shutdown).client k = s.client k := rfl
  rw [hbefore] at hvacate
  cases hphase : s.client k with
  | awaiting =>
    rw [hphase] at hvacate
    exact Or.inl ⟨rfl, hvacate⟩
  | _ =>
    rw [hphase] at hvacate
    exact Or.inr ⟨by simp, hvacate⟩

/-! ### Who is able -/

theorem dispatcher_mem_able : .dispatcher ∈ s.able ↔ s.dispatcherReady = true := by
  simp [able]

theorem watch_mem_able : .watch ∈ s.able ↔ s.watchReady = true := by
  simp [able]

theorem client_mem_able :
    .client k ∈ s.able ↔ k < s.clients.length ∧ s.clientReady k = true := by
  simp [able]

theorem station_mem_able {task : StationTask} :
    .station task ∈ s.able ↔ task ∈ s.station.able := by
  simp [able]

/-! ### Each step -/

namespace ClosingDown

/-- **A client is moved**, and the mailbox stays open or closed. -/
theorem moved (h : s.ClosingDown) (commands : Mailbox Nat (Nat × Request)) (watch : LinkWatch)
    (phase : ClientPhase) (hk : k < 2) (hclosed : commands.closed = s.commands.closed)
    (hleaving : watch.exiting = true)
    (hpending : watch.pending ≠ none → s.watch.pending ≠ none ∧ (k = watcher → phase ≠ .idle))
    (hanswered : s.running = false → phase ≠ .awaiting) :
    ({ s with commands, watch }.setClient k phase).ClosingDown ∧
      ({ s with commands, watch }.setClient k phase).stepsLeft + (s.client k).stepsLeft +
        s.watch.stepsLeft = s.stepsLeft + phase.stepsLeft + watch.stepsLeft := by
  have hlength : k < s.clients.length := h.clients ▸ hk
  have hclient : ∀ j, ({ s with commands, watch }.setClient k phase).client j =
      if j = k then phase else s.client j := by
    intro j
    split_ifs with hj
    · rw [hj]
      exact client_setClient (s := { s with commands, watch }) hlength
    · exact client_setClient_of_ne (s := { s with commands, watch }) hj
  refine ⟨⟨h.station, h.exiting, hleaving, ?_, fun hsome => ?_, fun hoff => ?_,
    fun hoff j => ?_⟩, ?_⟩
  · exact List.length_set.trans h.clients
  · obtain ⟨hbefore, hasked⟩ := hpending hsome
    rw [hclient]
    split_ifs with hj
    · exact hasked hj.symm
    · exact h.asked hbefore
  · exact hclosed.trans (h.closed hoff)
  · rw [hclient]
    split_ifs
    · exact hanswered hoff
    · exact h.answered hoff j
  · have hsum := sum_setClient phase hlength
    show s.station.stepsLeft + ((s.setClient k phase).clients.map ClientPhase.stepsLeft).sum +
      watch.stepsLeft + s.running.toNat + _ + _ = _
    rw [stepsLeft]
    omega

/-- **A request that is made** is under way for three steps at the most. -/
theorem submit (h : s.ClosingDown) (hk : k < 2) (q : Request) :
    (s.submit k q).ClosingDown ∧ (s.submit k q).stepsLeft ≤ s.stepsLeft + 3 := by
  have hmoved : ∀ commands phase, commands.closed = s.commands.closed → phase ≠ .idle →
      (s.running = false → phase ≠ .awaiting) → phase.stepsLeft ≤ 3 →
      ({ s with commands }.setClient k phase).ClosingDown ∧
        ({ s with commands }.setClient k phase).stepsLeft ≤ s.stepsLeft + 3 := by
    intro commands phase hclosed hidle hanswered hle
    obtain ⟨hnext, hsum⟩ := h.moved commands s.watch phase hk hclosed h.leaving
      (fun hsome => ⟨hsome, fun _ => hidle⟩) hanswered
    exact ⟨hnext, by omega⟩
  rcases submit_cases s k q with ⟨-, heq⟩ | ⟨hopen, heq⟩ | ⟨-, heq⟩
  · rw [heq]
    exact hmoved s.commands _ rfl (by simp) (fun _ => by simp) (by decide)
  · rw [heq]
    exact hmoved _ _ rfl (by simp) (fun hoff => by cases hopen.symm.trans (h.closed hoff))
      (by decide)
  · rw [heq]
    exact hmoved _ _ rfl (by simp) (fun _ => by simp) (by decide)

/-- **The dispatcher ends**, and tells all who wait for an answer. -/
theorem finish (h : s.ClosingDown) (hrunning : s.running = true) :
    s.finish.ClosingDown ∧ s.finish.stepsLeft < s.stepsLeft := by
  refine ⟨⟨h.station.shutdown.close, h.exiting, h.leaving, ?_, fun hpending => ?_, fun _ => rfl,
    fun _ j => ?_⟩, ?_⟩
  · exact (List.length_map _).trans h.clients
  · rcases s.client_finish watcher with ⟨-, hphase⟩ | ⟨-, hphase⟩
    · simp [hphase]
    · rw [hphase]
      exact h.asked hpending
  · rcases s.client_finish j with ⟨-, hphase⟩ | ⟨hother, hphase⟩
    · simp [hphase]
    · rw [hphase]
      exact hother
  · have hclients : (s.finish.clients.map ClientPhase.stepsLeft).sum ≤
        (s.clients.map ClientPhase.stepsLeft).sum := by
      show ((s.clients.map _).map ClientPhase.stepsLeft).sum ≤ _
      rw [List.map_map]
      refine List.sum_le_sum fun phase _ => ?_
      cases phase with
      | awaiting => exact Nat.le_succ 1
      | _ => exact Nat.le_refl _
    have hstation := h.station.stepsLeft_shutdown
    show (s.station.after .shutdown).stepsLeft + _ + s.watch.stepsLeft + 0 < _
    rw [Service.stepsLeft, hrunning, Bool.toNat_true]
    omega

/-- **A client need not wait for room any more.** -/
theorem clientStep (h : s.ClosingDown) (hready : s.clientReady k = true) :
    (s.clientStep k).ClosingDown ∧ (s.clientStep k).stepsLeft < s.stepsLeft := by
  have hphase := client_ready hready
  have hk : k < 2 := by
    by_contra hlt
    have hnone : s.clients[k]? = none := List.getElem?_eq_none (by rw [h.clients]; omega)
    rw [client, hnone] at hphase
    cases hphase
  have hsending : (s.client k).stepsLeft = 3 := by rw [hphase]; rfl
  have hmoved : ∀ phase, phase ≠ .idle →
      (s.running = false → phase ≠ .awaiting) → phase.stepsLeft < 3 →
      ({ s with commands := s.commands.settle k }.setClient k phase).ClosingDown ∧
        ({ s with commands := s.commands.settle k }.setClient k phase).stepsLeft <
          s.stepsLeft := by
    intro phase hidle hanswered hless
    obtain ⟨hnext, hsum⟩ := h.moved (s.commands.settle k) s.watch phase hk Mailbox.closed_settle
      h.leaving (fun hsome => ⟨hsome, fun _ => hidle⟩) hanswered
    exact ⟨hnext, by omega⟩
  unfold Service.clientStep
  dsimp only
  split_ifs with hclosed
  · exact hmoved _ (by simp) (fun _ => by simp) (by decide)
  · exact hmoved _ (by simp) (fun hoff => absurd (h.closed hoff) hclosed) (by decide)

/-- **The controller** takes the answer to its request, or ends. -/
theorem watchStep (h : s.ClosingDown) (hready : s.watchReady = true) :
    s.watchStep.ClosingDown ∧ s.watchStep.stepsLeft < s.stepsLeft := by
  obtain ⟨halive, hready⟩ := Bool.and_eq_true_iff.1 hready
  unfold Service.watchStep
  cases hpending : s.watch.pending with
  | none =>
    dsimp only
    rw [if_pos h.leaving]
    refine ⟨⟨h.station, h.exiting, h.leaving, h.clients, fun hsome => absurd hpending hsome,
      h.closed, h.answered⟩, ?_⟩
    simp only [Service.stepsLeft, endWatch, LinkWatch.stepsLeft, halive, hpending]
    simp
  | some report =>
    obtain ⟨i, state⟩ := report
    rw [hpending] at hready
    cases hphase : s.client watcher with
    | answered answer =>
      obtain ⟨hnext, hsum⟩ := h.moved (k := watcher) s.commands { s.watch with
          controller := s.watch.controller.conclude i state answer.result
          pending := none } .idle (by decide) rfl h.leaving (fun hsome => absurd rfl hsome)
        (fun _ => by simp)
      refine ⟨hnext, ?_⟩
      have hbefore : s.watch.stepsLeft = 2 := by
        simp only [LinkWatch.stepsLeft, halive, hpending, Option.isSome_some, if_true]
      have hafter : LinkWatch.stepsLeft { s.watch with
          controller := s.watch.controller.conclude i state answer.result
          pending := none } = 1 := by
        simp [LinkWatch.stepsLeft, halive]
      have hidle : ClientPhase.idle.stepsLeft = 0 := rfl
      rw [hbefore, hafter, hidle] at hsum
      dsimp only at hsum ⊢
      omega
    | _ => simp [hphase] at hready

/-- **Every step of a task that is able** leaves fewer to make. -/
theorem step (h : s.ClosingDown) (hable : task ∈ s.able) :
    (s.step task).ClosingDown ∧ (s.step task).stepsLeft < s.stepsLeft := by
  cases task with
  | dispatcher =>
    have hready := dispatcher_mem_able.1 hable
    have hstep : s.step .dispatcher = s.finish := by
      simp only [Service.step, hready, if_true, dispatch, h.exiting]
    rw [hstep]
    exact h.finish (running_of_dispatcherReady hready)
  | client k =>
    have hready := (client_mem_able.1 hable).2
    have hstep : s.step (.client k) = s.clientStep k := if_pos hready
    rw [hstep]
    exact h.clientStep hready
  | watch =>
    have hready := watch_mem_able.1 hable
    have hstep : s.step .watch = s.watchStep := if_pos hready
    rw [hstep]
    exact h.watchStep hready
  | station task =>
    have hless := h.station.stepsLeft_step (station_mem_able.1 hable)
    refine ⟨⟨h.station.step task, h.exiting, h.leaving, h.clients, h.asked, h.closed,
      h.answered⟩, ?_⟩
    exact Nat.add_lt_add_right (Nat.add_lt_add_right (Nat.add_lt_add_right hless _) _) _

/-- **Where no task is able**, neither the dispatcher nor the controller is there any more: the
one would see the exit signal, and the other its answer or the exit signal. -/
theorem ended (h : s.ClosingDown) (hable : s.able = []) :
    s.running = false ∧ s.watch.alive = false := by
  have hnone : ∀ {task}, task ∉ s.able := fun {task} => hable ▸ List.not_mem_nil
  have hoff : s.running = false := by
    by_contra hrunning
    have hready : s.dispatcherReady = true := by
      simp [dispatcherReady, h.exiting, Bool.eq_true_of_not_eq_false hrunning]
    exact hnone (dispatcher_mem_able.2 hready)
  refine ⟨hoff, ?_⟩
  by_contra halive
  have halive : s.watch.alive = true := Bool.eq_true_of_not_eq_false halive
  have hbusy : s.watchReady = false :=
    Bool.eq_false_iff.2 fun hready => hnone (watch_mem_able.2 hready)
  cases hpending : s.watch.pending with
  | none => simp [watchReady, halive, hpending, h.leaving] at hbusy
  | some report =>
    cases hphase : s.client watcher with
    | idle => exact h.asked (by simp [hpending]) hphase
    | awaiting => exact h.answered hoff watcher hphase
    | answered answer => simp [watchReady, halive, hpending, hphase] at hbusy
    | sending =>
      have hready : s.clientReady watcher = true := by
        simp [clientReady, hphase, Mailbox.canSettle, h.closed hoff]
      exact hnone (client_mem_able.2 ⟨h.clients ▸ Nat.lt_succ_self 1, hready⟩)

/-- Beside those of the station's tasks, only so many steps are left. -/
theorem stepsLeft_le (h : s.ClosingDown) : s.stepsLeft ≤ s.station.stepsLeft + 15 := by
  have hclients : (s.clients.map ClientPhase.stepsLeft).sum ≤ 2 * 6 := by
    refine (List.sum_le_card_nsmul _ 6 fun n hn => ?_).trans_eq
      (by rw [List.length_map, h.clients, Nat.nsmul_eq_mul])
    obtain ⟨phase, -, rfl⟩ := List.mem_map.1 hn
    unfold ClientPhase.stepsLeft
    split <;> decide
  have hwatch : s.watch.stepsLeft ≤ 2 := by
    unfold LinkWatch.stepsLeft
    split_ifs <;> decide
  have hrunning := s.running.toNat_le
  unfold Service.stepsLeft
  omega

/-- Notifications are none of what is left to be done. -/
theorem notify (h : s.ClosingDown) (notices : Mailbox Nat Notification) :
    { s with watch := { s.watch with notices } }.ClosingDown :=
  ⟨h.station, h.exiting, h.leaving, h.clients, h.asked, h.closed, h.answered⟩

end ClosingDown

/-- A service with a dispatcher has tickers that are in order. -/
theorem Attended.tickersAgree {settings : Settings} (h : s.Attended settings)
    (hrunning : s.running = true) : s.station.registry.TickersAgree := by
  obtain ⟨incidents, heq, -⟩ := h.course hrunning
  rw [heq]
  exact Station.tickersAgree_run settings incidents

end Service

/-! ### The script -/

/-- How many more steps the script makes at the most before it asks or gives up, if it has no
answer to wait for. -/
def ScriptPhase.stepsLeft : ScriptPhase → Nat
  | registering => 4
  | reporting => 5
  | _ => 0

namespace Daemon

variable {d : Daemon} {p : Plan} {x : Progress} {task : DaemonTask}

/-- How many more steps the tasks of a daemon make at the most before time passes, if it has been
told to close down. -/
def stepsLeft (d : Daemon) : Nat := d.service.stepsLeft + d.phase.stepsLeft

/-- **An answer that is taken** leaves nothing to do over it.  One that says that the request was
met leaves room for what the script does next. -/
theorem closingDown_taken (h : d.service.ClosingDown) (hready : d.outcome?.isSome = true) :
    d.taken.service.ClosingDown ∧
      ((∃ e, d.outcome? = some (.error e)) ∧ d.taken.service.stepsLeft < d.service.stepsLeft ∨
        d.outcome? = some (.ok ()) ∧
          d.taken.service.stepsLeft + 6 = d.service.stepsLeft) := by
  obtain ⟨hnext, hsum⟩ := h.moved (k := scriptClient) d.service.commands d.service.watch .idle
    (by decide) rfl h.leaving (fun hsome => ⟨hsome, fun heq => absurd heq (by decide)⟩)
    (fun _ => by simp)
  have hleft : d.taken.service.stepsLeft + (d.service.client scriptClient).stepsLeft =
      d.service.stepsLeft := Nat.add_right_cancel hsum
  refine ⟨hnext, ?_⟩
  unfold outcome? at hready ⊢
  cases hphase : d.service.client scriptClient with
  | answered answer =>
    rw [hphase] at hleft
    cases answer with
    | error e => exact Or.inl ⟨⟨e, rfl⟩, Nat.lt_of_succ_le (Nat.le_of_eq hleft)⟩
    | ok reply =>
      have hless : d.taken.service.stepsLeft < d.service.stepsLeft :=
        Nat.lt_of_lt_of_eq (Nat.lt_add_of_pos_right (Nat.succ_pos 5)) hleft
      cases hresult : Answer.result (.ok reply) with
      | error e => exact Or.inl ⟨⟨e, congrArg some hresult⟩, hless⟩
      | ok _ => exact Or.inr ⟨congrArg some hresult, hleft⟩
  | _ => simp [hphase] at hready

/-- The script goes on to its next port at once, or when there is room to leave word. -/
theorem closingDown_report (h : d.service.ClosingDown) (port : Port) :
    (d.report port).service.ClosingDown ∧
      (d.report port).stepsLeft ≤ d.service.stepsLeft + 5 := by
  unfold report
  dsimp only
  split
  · exact ⟨h, Nat.le_add_right _ 5⟩
  · exact ⟨h.notify _, Nat.le_succ _⟩
  · exact ⟨h.notify _, Nat.le_refl _⟩

/-- **Every step of the script** leaves fewer to make. -/
theorem closingDown_script (h : d.service.ClosingDown) (hready : d.scriptReady = true) :
    d.scriptStep.service.ClosingDown ∧ d.scriptStep.stepsLeft < d.stepsLeft := by
  unfold scriptStep
  cases hphase : d.phase with
  | registering =>
    have hbefore : d.stepsLeft = d.service.stepsLeft + 4 := by rw [stepsLeft, hphase]; rfl
    rw [hbefore]
    dsimp only
    split
    · exact ⟨h, Nat.lt_add_of_pos_right (Nat.succ_pos 3)⟩
    · obtain ⟨hnext, hle⟩ := h.submit (k := scriptClient) (by decide) (.add _)
      exact ⟨hnext, Nat.lt_succ_of_le hle⟩
  | adding port enabled =>
    have hbefore : d.stepsLeft = d.service.stepsLeft := by rw [stepsLeft, hphase]; rfl
    rw [scriptReady, hphase] at hready
    rw [hbefore]
    obtain ⟨htaken, ⟨⟨e, houtcome⟩, hless⟩ | ⟨houtcome, hleft⟩⟩ := closingDown_taken h hready
    · rw [houtcome]
      exact ⟨htaken, hless⟩
    · -- The six steps that the answer stood for pay for the word that is left, or for what is
      -- asked next.
      rw [houtcome]
      dsimp only
      split_ifs
      · obtain ⟨hnext, hle⟩ := closingDown_report htaken port
        exact ⟨hnext, by omega⟩
      · obtain ⟨hnext, hle⟩ := htaken.submit (k := scriptClient) (by decide)
          (.apply (.portEnable port.ifIndex false))
        refine ⟨hnext, ?_⟩
        show (d.taken.service.submit scriptClient _).stepsLeft + 0 < _
        omega
  | disabling =>
    have hbefore : d.stepsLeft = d.service.stepsLeft := by rw [stepsLeft, hphase]; rfl
    rw [scriptReady, hphase] at hready
    rw [hbefore]
    obtain ⟨htaken, ⟨⟨e, houtcome⟩, hless⟩ | ⟨houtcome, hleft⟩⟩ := closingDown_taken h hready
    · rw [houtcome]
      exact ⟨htaken, hless⟩
    · rw [houtcome]
      refine ⟨htaken, ?_⟩
      show d.taken.service.stepsLeft + 4 < _
      omega
  | reporting =>
    have hbefore : d.stepsLeft = d.service.stepsLeft + 5 := by rw [stepsLeft, hphase]; rfl
    have hnext : ∀ closed : Bool, ScriptPhase.stepsLeft
        (if closed then .failed .commandsClosed else .registering) < 5 := by
      intro closed
      cases closed <;> decide
    rw [hbefore]
    exact ⟨h.notify _, Nat.add_lt_add_left (hnext d.service.watch.notices.closed) _⟩
  | _ => simp [scriptReady, hphase] at hready

/-- **Every step of a task that is able** leaves fewer to make. -/
theorem closingDown_step (h : d.service.ClosingDown) (hable : task ∈ d.able) :
    (d.step task).service.ClosingDown ∧ (d.step task).stepsLeft < d.stepsLeft := by
  rcases List.mem_append.1 hable with hscript | hservice
  · have hready : d.scriptReady = true ∧ task = .script := by simpa using hscript
    obtain ⟨hready, rfl⟩ := hready
    have hstep : d.step .script = d.scriptStep := if_pos hready
    rw [hstep]
    exact closingDown_script h hready
  · obtain ⟨task, htask, rfl⟩ := List.mem_map.1 hservice
    obtain ⟨hnext, hless⟩ := h.step htask
    exact ⟨hnext, Nat.add_lt_add_right hless _⟩

/-- No step costs more than one. -/
theorem effort_le (task : DaemonTask) (d : Daemon) : machine.effort task d ≤ 1 := by
  cases task with
  | script => exact Nat.zero_le 1
  | service task =>
    cases task with
    | dispatcher => exact Nat.le_refl 1
    | client k => exact Nat.zero_le 1
    | watch => exact Nat.zero_le 1
    | station task => exact d.service.station.effort_le task

/-! ### From start to end -/

theorem run_concat_task (d : Daemon) (tasks : List DaemonTask) (task : DaemonTask) :
    d.run ((tasks ++ [task]).map .task) = (d.run (tasks.map .task)).step task := by
  rw [List.map_append]
  exact List.foldl_concat after d (.task task) (tasks.map .task)

/-- **To run to a standstill** is to let tasks make steps, one after another. -/
theorem exists_run_settle (d : Daemon) :
    ∃ tasks : List DaemonTask, machine.settle d = d.run (tasks.map .task) :=
  @Machine.settle_invariant Daemon DaemonTask _
    (fun _ d' => ∃ tasks : List DaemonTask, d' = d.run (tasks.map .task)) machine 0
    (fun task _ h => by
      obtain ⟨tasks, rfl⟩ := h
      exact ⟨tasks ++ [task], (run_concat_task d tasks task).symm⟩)
    d ⟨[], rfl⟩

/-- **Steps of tasks are moves** of the daemon, so requests are read as long as the dispatcher
is there. -/
theorem attended_run (p : Plan) (tasks : List DaemonTask) :
    ((ofPlan p).run (tasks.map .task)).service.Attended p.settings := by
  induction tasks using List.reverseRecOn with
  | nil => exact attended_undergo p []
  | append_singleton tasks task ih =>
    rw [run_concat_task]
    cases task with
    | script => exact attended_moved ih .script
    | service task => exact attended_moved ih (.act (.task task))

/-- **To give the exit signal** while the dispatcher is there tells all tasks. -/
theorem At.closingDown (h : d.At p x) (hattended : d.service.Attended p.settings) :
    d.service.announceExit.sealNotices.ClosingDown where
  station := Station.told_exit h.serving.tended.consistent
    (hattended.tickersAgree h.serving.live.running)
  exiting := rfl
  leaving := rfl
  clients := h.serving.clients
  asked hpending hidle := by
    have hwatcher := h.serving.watcher
    obtain ⟨hnone, -⟩ := hwatcher.of_idle hidle
    have hreport : d.service.watch.pending = x.report.map fun r => (r.1.ifIndex, .up) :=
      h.watch.pending
    cases hx : x.report with
    | none => exact hpending (hreport.trans (by rw [hx]; rfl))
    | some r => rw [Progress.reportWords, hx] at hnone; cases hnone
  closed hoff := by cases h.serving.live.running.symm.trans hoff
  answered hoff := by cases h.serving.live.running.symm.trans hoff

/-- **The steps that are left** when the exit signal is given fit in what the machine
allows. -/
theorem At.stepsLeft_le (h : d.At p x) (hattended : d.service.Attended p.settings) :
    3 * stepsLeft { d with service := d.service.announceExit.sealNotices } ≤
      2 * machine.workload { d with service := d.service.announceExit.sealNotices } := by
  have hservice := (h.closingDown hattended).stepsLeft_le
  have hstation : d.service.announceExit.sealNotices.station.stepsLeft ≤
      13 * d.service.station.registry.tasks.length +
        3 * d.service.station.registry.sessions.length :=
    (Station.stepsLeft_exit d.service.station).trans_le h.serving.tended.stepsLeft_le
  have hphase : d.phase.stepsLeft ≤ 5 := by
    unfold ScriptPhase.stepsLeft
    split <;> decide
  have hload : 16 * (d.service.station.registry.tasks.length +
      d.service.station.registry.sessions.length + 1) ≤
        d.service.announceExit.sealNotices.workload := by
    have htasks : d.service.station.registry.announceExit.tasks.length =
        d.service.station.registry.tasks.length := List.length_map _
    unfold Service.workload Station.workload
    show _ ≤ 16 * (_ + _ + d.service.station.registry.announceExit.tasks.length +
      d.service.station.registry.sessions.length + 1) + _ + _
    omega
  have hmany : (d.service.announceExit.sealNotices.workload + 64) * 2 ≤
      machine.workload { d with service := d.service.announceExit.sealNotices } :=
    Nat.mul_le_mul_left _ (Nat.le_add_left 2 _)
  show 3 * (d.service.announceExit.sealNotices.stepsLeft + d.phase.stepsLeft) ≤ _
  omega

/-- **A daemon that has come to some point of start-up** ends when it is told to close down. -/
theorem At.hasEnded_closeDown (h : d.At p x) (hattended : d.service.Attended p.settings) :
    d.closeDown.hasEnded = true := by
  obtain ⟨hclosing, hable⟩ := @Machine.settle_standstill Daemon DaemonTask _ machine
    (fun d => d.service.ClosingDown) stepsLeft 1 (by decide) effort_le
    (fun _ _ h hable => closingDown_step h hable) _ (h.closingDown hattended)
    (h.stepsLeft_le hattended)
  have hnone : d.closeDown.service.able = [] :=
    List.map_eq_nil_iff.1 (List.append_eq_nil_iff.1 hable).2
  obtain ⟨hoff, hgone⟩ := Service.ClosingDown.ended hclosing hnone
  simp [hasEnded, closeDown, hoff, hgone]

end Daemon

/-- **A daemon that has been started** and is told to close down has not failed, and ends. -/
theorem Startup.ofPlan_eq {p : Plan} (hp : (p.ports.map (·.1.ifIndex)).Nodup)
    (hplan : Daemon.ofPlan? p = some (.ofPlan p)) : ofPlan p = .served p.summary := by
  obtain ⟨tasks, hrun⟩ := Daemon.exists_run_settle (.ofPlan p)
  have hboot : Daemon.boot? p = some ((Daemon.ofPlan p).run (tasks.map .task)) := by
    rw [Daemon.boot?, hplan, Option.map_some, hrun]
  obtain ⟨⟨x, hx⟩, -, -⟩ := Daemon.at_run p hp (tasks.map .task) (by simp) (Or.inl (by simp))
  have hunfailed : ((Daemon.ofPlan p).run (tasks.map .task)).failure? = none := by
    unfold Daemon.failure?
    split
    · exact absurd ‹_› (hx.unfailed _)
    · rfl
  have hended := hx.hasEnded_closeDown (Daemon.attended_run p tasks)
  unfold ofPlan
  rw [hboot]
  simp [hunfailed, hended]

end Lldp
