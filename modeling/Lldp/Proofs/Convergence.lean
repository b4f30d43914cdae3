/-
# A link and what is known of it

The state of a link is known in three places: to the controller that handles
notifications, to the port, and by whether the port is captured.  A notification sets them
one after another, and opening the interface can fail on the way.

`Watched` is a station and its controller while notifications are handled one at a time,
with anything in between that is not about switches and links: frames, alarms, queries,
interfaces that cannot be opened and later can.  One notification is told in full from
what was known before (`Watched.told_after`), and what is told of a port makes up its log
(`Watched.told_run`), from which all three can be read (`Watched.links_converge`).  A
service with nothing else to do handles its next notification in just that way
(`Service.handles_next`).
-/

import Lldp.Proofs.LinkLog
import Lldp.Proofs.Registry.Reporting
import Lldp.Proofs.Run
import Lldp.Proofs.Station.Follow
import Lldp.Proofs.Station.Sparing

namespace Lldp

/-- A station, and the controller that its link states come through. -/
structure Watched where
  station : Station
  controller : LinkController := {}

/-- What there is to handle, and what happens meanwhile. -/
inductive News where
  | notice (notice : Notification)
  | meanwhile (incident : Incident)

/-- Whether link states change by notifications only, and other switches not at all. -/
def News.isFit : News → Bool
  | .notice _ => true
  | .meanwhile x => x.sparesPorts

/-- The incident that makes the request a notification asks for, or that happens. -/
def News.incident? : News → Option Incident
  | .notice n =>
    match LinkController.interpret n with
    | .ok (i, state) => some (.operation (.request (.reportLink i state)))
    | .error _ => none
  | .meanwhile x => some x

namespace Watched

variable {w w' w'' : Watched} {n : Notification} {i j : IfIndex} {state : LinkState}
  {x : News} {news : List News} {e : Error}

/-- Handles a notification to its end. -/
def handle (w : Watched) (n : Notification) : Except Error Unit × Watched :=
  match LinkController.interpret n with
  | .error e => (.error e, w)
  | .ok (i, state) =>
    let (reply, station) := w.station.withRegistry (Registry.execute (.reportLink i state))
    let result := Answer.result (.ok reply)
    (result, { station, controller := w.controller.conclude i state result })

def after (w : Watched) : News → Watched
  | .notice n => (w.handle n).2
  | .meanwhile x => { w with station := w.station.after x }

/-- What becomes of news, the first of which comes first. -/
def run (w : Watched) (news : List News) : Watched := news.foldl after w

/-- The tasks of captures that news sets off: one for each interface that is opened. -/
def launched (w : Watched) (x : News) : List CaptureTask :=
  x.incident?.elim [] w.station.launched

/-- The tasks of captures that are set off, in the order in which they begin. -/
def launches (w : Watched) (news : List News) : List CaptureTask :=
  Trace.outputs after launched w news

/-- What news says of the link of a port, and what comes of it. -/
def reported (w : Watched) (i : IfIndex) : News → List Report
  | .notice n =>
    match LinkController.interpret n with
    | .ok (j, state) =>
      if j = i then
        [{ state
           accepted := (w.handle n).1.isOk
           opened := !(w.launched (.notice n)).isEmpty }]
      else []
    | .error _ => []
  | .meanwhile _ => []

/-- The log of a port. -/
def log (w : Watched) (i : IfIndex) (news : List News) : List Report :=
  Trace.outputs after (reported · i) w news

/-- Whether a port is captured. -/
def isCapturing (w : Watched) (i : IfIndex) : Bool := w.station.registry.isCapturing i

end Watched

/-! ### What was applied is remembered -/

namespace LinkController

variable {c : LinkController} {i j : IfIndex} {state : LinkState} {result : Except Error Unit}

/-- What is kept of a port does not change when another's is thrown out. -/
theorem lookup_filter_of_ne (h : j ≠ i) (states : List (IfIndex × LinkState)) :
    (states.filter (·.1 ≠ i)).lookup j = states.lookup j := by
  induction states with
  | nil => rfl
  | cons entry states ih =>
    obtain ⟨k, known⟩ := entry
    rw [List.filter_cons]
    by_cases hk : k = i
    · rw [if_neg (by simp [hk]), ih, List.lookup_cons, beq_eq_false_iff_ne.2 (hk ▸ h)]
    · rw [if_pos (by simp [hk]), List.lookup_cons, List.lookup_cons, ih]

theorem state?_record :
    (c.record i state).state? j = if j = i then some state else c.state? j := by
  rw [state?, record, List.lookup_cons]
  split_ifs with hj
  · rw [beq_iff_eq.2 hj]
  · rw [beq_eq_false_iff_ne.2 hj]
    exact lookup_filter_of_ne hj c.states

/-- **A state is remembered of the port it was applied to**, if it was. -/
theorem state?_conclude : (c.conclude i state result).state? j =
    if j = i ∧ result.isOk = true then some state else c.state? j := by
  cases result with
  | ok done =>
    show (c.record i state).state? j = _
    simp [state?_record, Except.isOk, Except.toBool]
  | error e => simp [conclude, Except.isOk, Except.toBool]

end LinkController

/-! ### Notifications -/

/-- **What becomes of a report** about a port that is enabled, or not registered. -/
theorem Registry.moves_reportLink {r : Registry} {i : IfIndex} {state : LinkState}
    (henabled : r.isRegistered i = true → r.isEnabled i = true) :
    Report.Moves (r.isCapturing i)
      ⟨state, (r.reportLink i state).1.isOk, state = .up ∧ (r.setLink i .up).2.opens i = true⟩
      ((r.reportLink i state).2.isCapturing i) := by
  cases hs : r.session? i with
  | none =>
    have hopens : (r.setLink i .up).2.opens i = false := by
      rw [opens_eq, (of_session?_eq_none (by rw [session?_setLink, if_pos rfl, hs]; rfl)).1]
      rfl
    rw [reportLink_of_none hs, (of_session?_eq_none hs).2.1, hopens]
    simpa [Except.isOk, Except.toBool] using Report.Moves.refused state
  | some s =>
    have hon := henabled (isRegistered_of_session? hs)
    cases state with
    | down =>
      rw [fst_reportLink_down hs, isCapturing_reportLink_down]
      exact .down _
    | up =>
      rw [isOk_reportLink_up hon, isCapturing_reportLink_up hon, opens_setLink_up hon]
      simpa using Report.Moves.up (r.isCapturing i) (r.canOpen i)

namespace Watched

variable {w w' w'' : Watched} {n : Notification} {i j : IfIndex} {state : LinkState}
  {x : News} {news : List News} {e : Error} {log log' : List Report}
  {launched launched' : List CaptureTask}

theorem handle_of_error (h : LinkController.interpret n = .error e) :
    w.handle n = (.error e, w) := by
  rw [handle, h]

theorem handle_of_ok (h : LinkController.interpret n = .ok (i, state)) :
    w.handle n = ((w.station.registry.reportLink i state).1,
      { station := w.station.after (.operation (.request (.reportLink i state)))
        controller := w.controller.conclude i state
          (w.station.registry.reportLink i state).1 }) := by
  rw [handle, h]
  rfl

theorem station_after :
    (w.after x).station = x.incident?.elim w.station w.station.after := by
  cases x with
  | meanwhile y => rfl
  | notice n =>
    show (w.handle n).2.station = _
    rw [News.incident?]
    cases h : LinkController.interpret n with
    | error e => rw [handle_of_error h]; rfl
    | ok request => rw [handle_of_ok h]; rfl

/-- **What a port makes of news**, by its log: whether it is captured, which state was
applied last, and how often its interface was opened. -/
structure Told (w w' : Watched) (i : IfIndex) (log : List Report)
    (launched : List CaptureTask) : Prop where
  captured : Report.Follows (w.isCapturing i) log (w'.isCapturing i)
  applied : w'.controller.state? i = (applied? log).or (w.controller.state? i)
  opened : launched.countP (·.ifIndex = i) = log.countP Report.opened

namespace Told

/-- Nothing is told of the port, and nothing happens to it. -/
theorem of_same (hc : w'.isCapturing i = w.isCapturing i)
    (hs : w'.controller.state? i = w.controller.state? i)
    (hl : launched.countP (·.ifIndex = i) = 0) : Told w w' i [] launched :=
  ⟨hc ▸ .nil, hs, hl⟩

/-- One thing is told. -/
theorem of_moves {x : Report} (hc : x.Moves (w.isCapturing i) (w'.isCapturing i))
    (hs : w'.controller.state? i = if x.accepted = true then some x.state
      else w.controller.state? i)
    (hl : launched.countP (·.ifIndex = i) = if x.opened = true then 1 else 0) :
    Told w w' i [x] launched := by
  refine ⟨.concat .nil hc, ?_, hl.trans List.countP_singleton.symm⟩
  rw [hs]
  cases hx : x.accepted <;> simp [applied?, hx]

theorem append (h : Told w w' i log launched) (h' : Told w' w'' i log' launched') :
    Told w w'' i (log ++ log') (launched ++ launched') := by
  refine ⟨h.captured.append h'.captured, ?_, ?_⟩
  · rw [h'.applied, h.applied, applied?_append, Option.or_assoc]
  · rw [List.countP_append, h.opened, h'.opened, List.countP_append]

end Told

/-- All is in order, and a port is enabled if it is registered. -/
structure Ready (w : Watched) (i : IfIndex) : Prop where
  consistent : w.station.Consistent
  enabled : w.station.registry.isRegistered i = true → w.station.registry.isEnabled i = true

/-- The tasks that a notification sets off. -/
theorem launched_notice (h : LinkController.interpret n = .ok (j, state)) :
    w.launched (.notice n) =
      if state = .up ∧ (w.station.registry.setLink j .up).2.opens j = true
      then [w.station.registry.nextTask j] else [] := by
  rw [Watched.launched, News.incident?, h]
  exact Station.launched_of_tasks Registry.tasks_reportLink

/-- **A notification about another port** tells nothing. -/
theorem told_of_ne (h : LinkController.interpret n = .ok (j, state)) (hij : i ≠ j) :
    Told w (w.handle n).2 i (w.reported i (.notice n)) (w.launched (.notice n)) := by
  have hnothing : w.reported i (.notice n) = [] := by
    rw [reported, h]
    exact if_neg (Ne.symm hij)
  rw [hnothing, handle_of_ok h, launched_notice h]
  refine .of_same (Registry.isCapturing_reportLink_of_ne hij) ?_ ?_
  · rw [LinkController.state?_conclude, if_neg fun hboth => hij hboth.1]
  · split_ifs
    · exact List.countP_eq_zero.2 (by simp [Registry.nextTask, Ne.symm hij])
    · rfl

/-- **A notification about the port** tells what comes of it. -/
theorem told_self (h : LinkController.interpret n = .ok (i, state))
    (henabled : w.station.registry.isRegistered i = true →
      w.station.registry.isEnabled i = true) :
    Told w (w.handle n).2 i (w.reported i (.notice n)) (w.launched (.notice n)) := by
  have hreport : w.reported i (.notice n) =
      [⟨state, (w.station.registry.reportLink i state).1.isOk,
        state = .up ∧ (w.station.registry.setLink i .up).2.opens i = true⟩] := by
    rw [reported, h]
    dsimp only
    rw [if_pos rfl, handle_of_ok h, launched_notice h]
    split_ifs with hopens <;> simp [hopens]
  rw [hreport, handle_of_ok h, launched_notice h]
  refine .of_moves (Registry.moves_reportLink henabled) ?_ ?_
  · rw [LinkController.state?_conclude]
    simp
  · split_ifs <;> simp_all [Registry.nextTask]

/-- **What leaves switches and links alone** tells nothing. -/
theorem told_meanwhile {y : Incident} (hranked : w.station.registry.Ranked)
    (hy : y.sparesPorts = true) :
    Told w (w.after (.meanwhile y)) i [] (w.launched (.meanwhile y)) := by
  have hlaunched : w.launched (.meanwhile y) = [] := Station.launched_of_spares hranked hy
  rw [hlaunched]
  exact .of_same (Station.spares_after hy).isCapturing rfl rfl

/-- **Whatever the news**, what is told of a port is in its log. -/
theorem told_after (hready : w.Ready i) (hx : x.isFit = true) :
    Told w (w.after x) i (w.reported i x) (w.launched x) := by
  cases x with
  | meanwhile y => exact told_meanwhile hready.consistent.ranked hx
  | notice n =>
    show Told w (w.handle n).2 i _ _
    cases h : LinkController.interpret n with
    | error e =>
      have hnothing : w.reported i (.notice n) = [] := by rw [reported, h]
      have hnone : w.launched (.notice n) = [] := by rw [Watched.launched, News.incident?, h]; rfl
      rw [handle_of_error h, hnothing, hnone]
      exact .of_same rfl rfl rfl
    | ok request =>
      obtain ⟨j, state⟩ := request
      by_cases hij : i = j
      · subst hij
        exact told_self h hready.enabled
      · exact told_of_ne h hij

/-- No news takes a port's readiness away. -/
theorem ready_after (hready : w.Ready i) (hx : x.isFit = true) : (w.after x).Ready i := by
  cases x with
  | meanwhile y =>
    have hspares : w.station.registry.Spares (w.station.after y).registry i :=
      Station.spares_after hx
    refine ⟨hready.consistent.after y, fun hregistered => ?_⟩
    exact hspares.isEnabled.trans (hready.enabled (hspares.isRegistered.symm.trans hregistered))
  | notice n =>
    show (w.handle n).2.Ready i
    cases h : LinkController.interpret n with
    | error e =>
      rw [handle_of_error h]
      exact hready
    | ok request =>
      obtain ⟨j, state⟩ := request
      rw [handle_of_ok h]
      refine ⟨hready.consistent.after (.operation (.request (.reportLink j state))),
        fun hregistered => ?_⟩
      have hbefore := (Registry.Recaptures.execute (q := .reportLink j state) nofun).registered
        i hregistered
      exact Registry.isEnabled_reportLink.trans (hready.enabled hbefore)

/-! ### Runs -/

/-- **A run**, told of one port. -/
theorem told_run (hready : w.Ready i) (hfit : ∀ x ∈ news, x.isFit = true) :
    Told w (w.run news) i (w.log i news) (w.launches news) := by
  induction news generalizing w with
  | nil => exact .of_same rfl rfl rfl
  | cons x news ih =>
    obtain ⟨hx, hnews⟩ := List.forall_mem_cons.1 hfit
    exact (told_after hready hx).append (ih (ready_after hready hx) hnews)

/-- **Every open of an interface** sets a task off. -/
theorem length_handles_run (hconsistent : w.station.Consistent) :
    (w.run news).station.registry.backend.handles.length =
      w.station.registry.backend.handles.length + (w.launches news).length := by
  induction news generalizing w with
  | nil => rfl
  | cons x news ih =>
    obtain ⟨hafter, hcount⟩ : (w.after x).station.Consistent ∧
        (w.after x).station.registry.generation =
          w.station.registry.generation + (w.launched x).length := by
      rw [station_after, Watched.launched]
      cases x.incident? with
      | none => exact ⟨hconsistent, rfl⟩
      | some y => exact ⟨hconsistent.after y, Station.generation_after hconsistent.ranked y⟩
    show ((w.after x).run news).station.registry.backend.handles.length =
      _ + (w.launched x ++ (w.after x).launches news).length
    rw [ih hafter, hafter.numbered.length, hcount, hconsistent.numbered.length, List.length_append,
      Nat.add_assoc]

/-- News leaves a port ready. -/
theorem ready_run (hready : w.Ready i) (hfit : ∀ x ∈ news, x.isFit = true) :
    (w.run news).Ready i := by
  induction news generalizing w with
  | nil => exact hready
  | cons x news ih =>
    obtain ⟨hx, hnews⟩ := List.forall_mem_cons.1 hfit
    exact ih (ready_after hready hx) hnews

/-- A text that says neither state is turned down before anything is done. -/
theorem handle_of_unreadable (h : ∀ state, ¬LinkState.Says n.state state) :
    w.handle n = (.error (.linkStateText n.state), w) := by
  apply handle_of_error
  rw [LinkController.interpret, LinkState.parse_of_unreadable h]

theorem interpret_of_readable (h : LinkState.Says n.state state) :
    LinkController.interpret n = .ok (n.ifIndex, state) := by
  rw [LinkController.interpret, LinkState.parse_eq_ok_iff.2 h]

/-- A notification about a port that is not registered is turned down by the registry. -/
theorem handle_of_unknown (h : LinkState.Says n.state state)
    (hunknown : w.station.registry.isRegistered n.ifIndex = false) :
    w.handle n = (.error (.portNotFound n.ifIndex), w) := by
  have hreport : w.station.registry.reportLink n.ifIndex state =
      (.error (.portNotFound n.ifIndex), w.station.registry) :=
    Registry.reportLink_of_none (Registry.isRegistered_eq_false_iff.1 hunknown)
  have hstation : w.station.after (.operation (.request (.reportLink n.ifIndex state))) =
      w.station := by
    show { w.station with registry := (w.station.registry.reportLink n.ifIndex state).2 } = _
    rw [hreport]
  rw [handle_of_ok (interpret_of_readable h), hreport, hstation]
  rfl

/-- **A link of an enabled port that comes up.** -/
theorem handle_up (h : LinkState.Says n.state .up)
    (henabled : w.station.registry.isEnabled n.ifIndex = true) :
    ((w.handle n).1 = .ok () ↔ (w.handle n).2.isCapturing n.ifIndex = true) ∧
      (w.launched (.notice n) ≠ [] ↔
        w.isCapturing n.ifIndex = false ∧ w.station.registry.canOpen n.ifIndex = true) := by
  have hinterpret := interpret_of_readable h
  have hok : ∀ result : Except Error Unit, result = .ok () ↔ result.isOk = true := by
    intro result
    cases result <;> simp [Except.isOk, Except.toBool]
  constructor
  · rw [hok, handle_of_ok hinterpret]
    show _ ↔ (w.station.registry.reportLink n.ifIndex .up).2.isCapturing n.ifIndex = true
    rw [Registry.isOk_reportLink_up henabled, Registry.isCapturing_reportLink_up henabled]
  · rw [launched_notice hinterpret, Registry.opens_setLink_up henabled]
    simp [isCapturing]

/-- **Link states converge**, whatever the notifications and whenever interfaces can and
cannot be opened.  A station with its protocol and all ports enabled, none of them
captured, is given a fresh controller.  At any time then, a port is captured exactly if
its last notification said that its link is up and its interface was opened since one said
that it is down; its interface was opened once in each stretch of notifications that its
link is up, if it was opened in it at all.  The controller knows the state that was
accepted last, which is up exactly while the port is captured.  A link that comes up once
more opens the interface if that failed before, and never a second time; a text that says
neither state, or a port that is not registered, changes nothing at all. -/
theorem links_converge (settings : Settings) (before : List Incident) (news : List News)
    (hglobal : ((Station.ofSettings settings).run before).registry.settings.enabled = true)
    (hports : ∀ s ∈ ((Station.ofSettings settings).run before).registry.sessions,
      s.enabled = true ∧ s.isCapturing = false)
    (hfit : ∀ x ∈ news, x.isFit = true) (i : IfIndex) :
    let start : Watched := { station := (Station.ofSettings settings).run before }
    let w := start.run news
    let log := start.log i news
    (w.isCapturing i = true ↔
        log.getLast?.map Report.state = some .up ∧ ∃ x ∈ sinceDown log, x.opened = true) ∧
      (start.launches news).countP (·.ifIndex = i) = openedRuns log ∧
      w.station.registry.backend.handles.length =
        start.station.registry.backend.handles.length + (start.launches news).length ∧
      w.controller.state? i = applied? log ∧
      (w.controller.state? i = some .up ↔ w.isCapturing i = true) ∧
      (∀ n, n.ifIndex = i → LinkState.Says n.state .up →
        w.station.registry.isRegistered i = true →
        ((w.handle n).1 = .ok () ↔ (w.handle n).2.isCapturing i = true) ∧
        (w.launched (.notice n) ≠ [] ↔
          w.isCapturing i = false ∧ w.station.registry.canOpen i = true)) ∧
      (∀ n, (∀ state, ¬LinkState.Says n.state state) →
        w.handle n = (.error (.linkStateText n.state), w)) ∧
      ∀ n state, LinkState.Says n.state state →
        w.station.registry.isRegistered n.ifIndex = false →
        w.handle n = (.error (.portNotFound n.ifIndex), w) := by
  intro start w log
  have hready : start.Ready i := by
    refine ⟨.run (.ofSettings settings) before, fun hregistered => ?_⟩
    obtain ⟨s, hs⟩ := Option.isSome_iff_exists.1 hregistered
    exact (Option.any_eq_true _ _).2 ⟨s, hs,
      Bool.and_eq_true_iff.2 ⟨hglobal, (hports s (Registry.mem_of_session? hs)).1⟩⟩
  obtain ⟨hcaptured, happlied, hopened⟩ : Told start w i log (start.launches news) :=
    told_run hready hfit
  have hstart : start.isCapturing i = false := by
    rw [isCapturing, Registry.isCapturing, Option.any_eq_false]
    exact fun s hs => by simp [(hports s (Registry.mem_of_session? hs)).2]
  rw [hstart] at hcaptured
  have hstate : w.controller.state? i = applied? log := by
    rw [happlied]
    exact Option.or_none
  have heq := hcaptured.captured_eq
  refine ⟨⟨fun h => ⟨?_, ?_⟩, fun h => ?_⟩, hopened.trans hcaptured.countP_opened,
    length_handles_run hready.consistent, hstate, ?_, ?_, fun n => handle_of_unreadable,
    fun n state => handle_of_unknown⟩
  · rw [h] at hcaptured
    exact hcaptured.getLast?_of_captured
  · rw [h] at heq
    exact List.any_eq_true.1 heq.symm
  · exact heq.trans (List.any_eq_true.2 h.2)
  · rw [hstate]
    exact hcaptured.applied_eq_up_iff
  · rintro n rfl h hregistered
    exact handle_up h ((ready_run hready hfit).enabled hregistered)

/-- A station with one port, whose interface cannot be opened. -/
def unopened : List Incident :=
  [.operation (.request (.add { ifIndex := 1, number := 1, name := "Ethernet0", mac := Mac.zero })),
    .operation (.links (.failOpen "Ethernet0" true))]

/-- Its link comes up in vain, goes down and comes up in vain again, until the interface can
be opened; later it goes down once more and comes up. -/
def retried : List News :=
  [.notice ⟨1, "UP"⟩, .notice ⟨1, "down"⟩, .notice ⟨1, "Up"⟩,
    .meanwhile (.operation (.links (.failOpen "Ethernet0" false))),
    .notice ⟨1, "up"⟩, .notice ⟨1, "TESTING"⟩, .notice ⟨1, "UP"⟩, .notice ⟨42, "UP"⟩,
    .notice ⟨1, "DOWN"⟩, .notice ⟨1, "UP"⟩]

/-- Of five times that its link comes up, two open the interface. -/
theorem links_converge_retried :
    let start : Watched := { station := (Station.ofSettings {}).run unopened }
    (start.run retried).isCapturing 1 = true ∧
      (start.run retried).controller.state? 1 = some .up ∧
      (start.launches retried).countP (·.ifIndex = 1) = 2 := by
  intro start
  have hlog : start.log 1 retried =
      [⟨.up, false, false⟩, ⟨.down, true, false⟩, ⟨.up, false, false⟩, ⟨.up, true, true⟩,
        ⟨.up, true, false⟩, ⟨.down, true, false⟩, ⟨.up, true, true⟩] := by
    decide +kernel
  obtain ⟨hcaptured, hopened, -, -, hstate, -⟩ := links_converge {} unopened retried
    (by decide +kernel) (by decide +kernel) (by decide) 1
  have hcapturing : (start.run retried).isCapturing 1 = true := by
    rw [hcaptured, hlog]
    decide
  refine ⟨hcapturing, hstate.2 hcapturing, ?_⟩
  rw [hopened, hlog]
  decide

end Watched

/-! ### The service -/

namespace Service

/-- The controller's task has its next notification, and nothing else is to be done before
its request. -/
structure Attends (s : Service) (n : Notification) (notices : Mailbox Nat Notification) :
    Prop where
  running : s.running = true
  staying : s.exiting = false
  alive : s.watch.alive = true
  watching : s.watch.exiting = false
  idle : s.watch.pending = none
  next : s.watch.notices.take? = some (n, notices)
  served : s.commands.items = []
  asked : s.commands.closed = false ∧ s.commands.hasSpareRoom = true
  known : watcher < s.clients.length

variable {s : Service} {n : Notification} {notices : Mailbox Nat Notification}
  {i : IfIndex} {state : LinkState} {q : Request}

theorem watchReady_of_attends (h : s.Attends n notices) : s.watchReady = true := by
  have hitems : s.watch.notices.items ≠ [] := by
    intro hnil
    have hnext := h.next
    rw [Mailbox.take?, hnil] at hnext
    cases hnext
  simp [watchReady, h.alive, h.idle, hitems]

/-- A text that says neither state is left alone. -/
theorem watchStep_of_error {e : Error} (h : s.Attends n notices)
    (hn : LinkController.interpret n = .error e) :
    s.watchStep = { s with watch := { s.watch with notices } } := by
  simp [watchStep, h.idle, h.watching, h.next, hn]

/-- The controller makes a request. -/
theorem watchStep_of_ok (h : s.Attends n notices)
    (hn : LinkController.interpret n = .ok (i, state)) :
    s.watchStep =
      { s with
        watch := { s.watch with notices, pending := some (i, state) }
        commands := s.commands.push (watcher, .reportLink i state)
        clients := s.clients.set watcher .awaiting } := by
  simp [watchStep, h.idle, h.watching, h.next, hn, submit, Mailbox.send, h.asked, setClient]

/-- **The only request there is** is met next. -/
theorem step_dispatcher_of_push {commands : Mailbox Nat (Nat × Request)} {number : Nat}
    (hrunning : s.running = true) (hexiting : s.exiting = false) (hempty : commands.items = [])
    (hcommands : s.commands = commands.push (number, q)) :
    s.step .dispatcher = { s with commands }.executeNext number q := by
  have hready : s.dispatcherReady = true := by
    simp [dispatcherReady, hrunning, hcommands, Mailbox.push]
  have htake : s.commands.take? = some ((number, q), commands) := by
    obtain ⟨capacity, items, waiting, closed⟩ := commands
    obtain rfl : items = [] := hempty
    rw [hcommands]
    rfl
  simp [step, hready, dispatch, hexiting, htake]

/-- The controller takes the answer to its request to heart. -/
theorem step_watch_of_answered {answer : Answer} (halive : s.watch.alive = true)
    (hpending : s.watch.pending = some (i, state))
    (hanswer : s.client watcher = .answered answer) :
    s.step .watch =
      { s with watch := { s.watch with
          controller := s.watch.controller.conclude i state answer.result
          pending := none } }.setClient watcher .idle := by
  have hready : s.watchReady = true := by simp [watchReady, halive, hpending, hanswer]
  simp [step, hready, watchStep, hpending, hanswer]

/-- What tasks do to see a notification through. -/
def handling (n : Notification) : List Move :=
  match LinkController.interpret n with
  | .error _ => [.task .watch]
  | .ok _ => [.task .watch, .task .dispatcher, .task .watch]

/-- **The next notification** is handled by a service as it is by station and controller
alone. -/
theorem handles_next (h : s.Attends n notices) :
    let s' := s.run (handling n)
    let handled := ({ station := s.station, controller := s.watch.controller } : Watched).handle n
    s'.station = handled.2.station ∧ s'.watch.controller = handled.2.controller ∧
      s'.watch.notices = notices ∧ s'.watch.pending = none := by
  have hfirst : s.step .watch = s.watchStep := by
    rw [step, if_pos (watchReady_of_attends h)]
  cases hn : LinkController.interpret n with
  | error e =>
    have hrun : s.run (handling n) = s.step .watch := by
      rw [handling, hn]
      rfl
    rw [hrun, hfirst, watchStep_of_error h hn, Watched.handle_of_error hn]
    exact ⟨rfl, rfl, rfl, h.idle⟩
  | ok request =>
    obtain ⟨i, state⟩ := request
    have hasked := hfirst.trans (watchStep_of_ok h hn)
    have hmet : (s.step .watch).step .dispatcher =
        { s.step .watch with commands := s.commands }.executeNext watcher
          (.reportLink i state) :=
      step_dispatcher_of_push (by rw [hasked]; exact h.running)
        (by rw [hasked]; exact h.staying) h.served (by rw [hasked])
    have hanswer : ((s.step .watch).step .dispatcher).client watcher =
        .answered (.ok (.done (s.station.registry.reportLink i state).1)) := by
      rw [hmet, hasked]
      exact client_setClient (by simpa using h.known)
    have hpending : ((s.step .watch).step .dispatcher).watch.pending = some (i, state) := by
      rw [hmet, hasked]
      rfl
    have hdone := step_watch_of_answered (by rw [hmet, hasked]; exact h.alive) hpending hanswer
    have hrun : s.run (handling n) = ((s.step .watch).step .dispatcher).step .watch := by
      rw [handling, hn]
      rfl
    rw [hrun, hdone, hmet, hasked, Watched.handle_of_ok hn]
    exact ⟨rfl, rfl, rfl, rfl⟩

end Service
end Lldp
