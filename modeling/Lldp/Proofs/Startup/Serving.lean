/-
# A service with two clients

While a station starts, its service has two clients: the start-up script, and the
link-state controller.  `Service.Serving` says where they stand, in a service that is in its
routine and has told nobody that there is no one to ask.  Every move keeps it as long as the
dispatcher does not break down, and what is said in the move tells where the two stand
afterwards (`Serving.act`).

The dispatcher does not break down while no packet comes that may set an alarm beyond the
wheel; and if it is asked for nothing, it leaves every port as it is laid out
(`sameLayout_dispatch`).
-/

import Lldp.Proofs.Acts
import Lldp.Proofs.Answers
import Lldp.Proofs.Registry.Layout

namespace Lldp
namespace Service

variable {s s' : Service} {m : Move} {a : Act} {k : Nat} {q : Request} {so w₀ w₁ : List Word}
  {ws : List (Nat × Word)}

/-! ### Words -/

/-- Who stands somewhere has not been told. -/
theorem Standing.told_notMem (h : s.Standing k so) (answer : Answer) : .told answer ∉ so := by
  cases h <;> simp

/-- **Who is not told anything** is where what is said has brought it. -/
theorem Orderly.standing_of_untold (h : s.Orderly) (hadmits : s.Admits m)
    (hso : s.Standing k so) (hquiet : ∀ answer, (k, .told answer) ∉ s.said m) :
    (s.move m).Standing k (so ++ heardBy k (s.said m)) := by
  obtain ⟨finished, so', heq, hso'⟩ := (h.deals hadmits).standing h hso
  cases finished with
  | nil =>
    rw [heq]
    exact hso'
  | cons e finished =>
    have htold : ∃ answer, .told answer ∈ e.words := by
      cases e with
      | met q reply => exact ⟨.ok reply, by simp [Exchange.words]⟩
      | closed q entered => exact ⟨.error (closedError entered), by simp [Exchange.words]⟩
    obtain ⟨answer, hanswer⟩ := htold
    have hmem : .told answer ∈ so ++ heardBy k (s.said m) := by
      rw [heq, List.flatMap_cons]
      exact List.mem_append_left _ (List.mem_append_left _ hanswer)
    rcases List.mem_append.1 hmem with hold | hnew
    · exact absurd hold (hso.told_notMem answer)
    · obtain ⟨x, hx, hword⟩ := List.mem_map.1 hnew
      obtain ⟨hsaid, hk⟩ := List.mem_filter.1 hx
      refine absurd hsaid ?_
      have hx : x = (k, .told answer) := Prod.ext (by simpa using hk) hword
      rw [hx]
      exact hquiet answer

/-- Who has nothing under way has no request anywhere. -/
theorem Orderly.standing_of_idle (h : s.Orderly) (hidle : s.client k = .idle) :
    s.Standing k [] := by
  obtain ⟨so, hso⟩ := h.standing k
  obtain ⟨rfl, -⟩ := hso.of_idle hidle
  exact hso

/-- **As long as there is a dispatcher**, nobody is told that there is none. -/
theorem Deals.unrefused (h : s.Deals ws s') (horderly : s.Orderly) (hrunning : s'.running = true)
    (hheard : ∀ k e, s.client k ≠ .answered (.error e)) (k : Nat) (e : Error) :
    s'.client k ≠ .answered (.error e) := by
  -- Whoever is moved is moved to another place than this.
  have hset : ∀ (t : Service) (j : Nat) (phase : ClientPhase), t.clients = s.clients →
      phase ≠ .answered (.error e) → (t.setClient j phase).client k ≠ .answered (.error e) := by
    intro t j phase hsame hphase hafter
    have hbefore : t.client k = s.client k := by rw [client, client, hsame]
    by_cases hne : k = j
    · subst hne
      by_cases hlt : k < t.clients.length
      · exact hphase ((client_setClient hlt).symm.trans hafter)
      · rw [client, setClient, List.getElem?_eq_none (by simpa using hlt)] at hafter
        cases hafter
    · rw [client_setClient_of_ne hne, hbefore] at hafter
      exact hheard k e hafter
  have hopen : s.running = true → s.commands.closed = false := by
    intro hon
    rw [horderly.closed, hon]
    rfl
  cases h with
  | rests hsame =>
    rw [hsame.client]
    exact hheard k e
  | @asks _ j q hj hidle hsame =>
    rw [hsame.client]
    have hon : s.running = true := by
      rw [← running_submit j q, ← hsame.running]
      exact hrunning
    rcases submit_cases s j q with ⟨hclosed, -⟩ | ⟨-, heq⟩ | ⟨-, heq⟩
    · cases (hopen hon).symm.trans hclosed
    · rw [heq]
      exact hset _ j _ rfl (by simp)
    · rw [heq]
      exact hset _ j _ rfl (by simp)
  | @enters _ j hready hsame =>
    have hon : s.running = true := by
      rw [← hrunning, hsame.running, running_clientStep]
    rw [hsame.client, clientStep, if_neg (by rw [hopen hon]; exact Bool.false_ne_true)]
    exact hset _ j _ rfl (by simp)
  | meets hon htake hsame =>
    rw [hsame.client]
    exact hset _ _ _ rfl (by simp)
  | tells hanswer hsame =>
    rw [hsame.client]
    exact hset _ _ _ rfl (by simp)
  | vacates hon hsame => cases hsame.running.symm.trans hrunning

/-! ### What moves leave alone -/

theorem watch_submit (k : Nat) (q : Request) : (s.submit k q).watch = s.watch := by
  unfold submit
  split <;> rfl

/-- **The dispatcher and the clients** leave the controller to itself. -/
theorem watch_step {task : ServiceTask} (htask : task ≠ .watch) :
    (s.step task).watch = s.watch := by
  cases task with
  | dispatcher =>
    show (if s.dispatcherReady then s.dispatch else s).watch = _
    unfold dispatch
    split_ifs
    · rfl
    · cases s.commands.take? with
      | some item => rfl
      | none =>
        cases s.station.inbound.take? with
        | some item =>
          dsimp only [deliver]
          split_ifs <;> rfl
        | none =>
          cases s.station.registry.triggers.take? with
          | some item => rfl
          | none =>
            dsimp only
            cases s.station.registry.expireNext? s.station.now <;> rfl
    · rfl
  | client k =>
    show (if s.clientReady k then s.clientStep k else s).watch = _
    unfold clientStep
    dsimp only
    split_ifs <;> rfl
  | watch => exact absurd rfl htask
  | station task => rfl

/-- **A service stays in its routine** unless the dispatcher ends or it is told to close
down. -/
theorem Live.act (h : s.Live) (ha : a ≠ .exit)
    (hdispatch : a = .task .dispatcher → s.dispatch.running = true) : (s.act a).Live := by
  cases a with
  | task task =>
    refine ⟨?_, (step_keeps task s).1.trans h.staying⟩
    cases task with
    | dispatcher =>
      show (if s.dispatcherReady then s.dispatch else s).running = true
      split_ifs
      · exact hdispatch rfl
      · exact h.running
    | client k =>
      show (if s.clientReady k then s.clientStep k else s).running = true
      unfold clientStep
      dsimp only
      split_ifs <;> exact h.running
    | watch =>
      show (if s.watchReady then s.watchStep else s).running = true
      split_ifs
      · rw [running_watchStep]
        exact h.running
      · exact h.running
    | station task => exact h.running
  | submit k q =>
    exact ⟨(running_submit k q).trans h.running, (spares_submit k q).2.trans h.staying⟩
  | post notice =>
    have hsame : (s.post notice).2.running = s.running ∧ (s.post notice).2.exiting = s.exiting := by
      unfold post
      split_ifs <;> exact ⟨rfl, rfl⟩
    exact ⟨hsame.1.trans h.running, hsame.2.trans h.staying⟩
  | exit => exact absurd rfl ha
  | _ => exact ⟨h.running, h.staying⟩

/-- No packet is there to be handed over, or the wheel reaches as far as any can ask. -/
def Unhurried (s : Service) : Prop :=
  s.station.inbound.items = [] ∨ s.station.now + Frame.longestHold ≤ Wheel.span

/-- **A dispatcher that is asked for nothing** goes on, and leaves every port as it is laid
out. -/
theorem dispatch_unasked (hlive : s.Live) (hasked : s.commands.items = []) (hcalm : s.Unhurried)
    (hwhole : s.station.registry.alarms.wheel.broken = false) :
    s.station.registry.SameLayout s.dispatch.station.registry ∧ s.dispatch.running = true := by
  have hexit : ¬s.exiting = true := by simp [hlive.staying]
  have hnone : s.commands.take? = none := by rw [Mailbox.take?, hasked]
  unfold dispatch
  rw [if_neg hexit, hnone]
  dsimp only
  cases hinbound : s.station.inbound.take? with
  | some item =>
    have hreach : s.station.now + Frame.longestHold ≤ Wheel.span := by
      refine hcalm.resolve_left fun hempty => ?_
      rw [Mailbox.take?, hempty] at hinbound
      cases hinbound
    have hsame : s.station.registry.SameLayout
        (s.station.registry.handleInbound s.station.now item.1) := .handleInbound hreach
    have hunbroken : ¬(s.station.registry.handleInbound s.station.now
        item.1).alarms.wheel.broken = true := by
      rw [hsame.whole hwhole]
      exact Bool.false_ne_true
    have hdeliver : (s.onStation fun st => { st with inbound := item.2 }).deliver item.1 =
        (s.onStation fun st => { st with inbound := item.2 }).onRegistry
          (·.handleInbound s.station.now item.1) := if_neg hunbroken
    dsimp only
    rw [hdeliver]
    exact ⟨hsame, hlive.running⟩
  | none =>
    dsimp only
    cases s.station.registry.triggers.take? with
    | some item =>
      have htaken : s.station.registry.SameLayout { s.station.registry with triggers := item.2 } :=
        .links rfl rfl
      exact ⟨htaken.trans .handleTransmit, hlive.running⟩
    | none =>
      dsimp only
      cases hdue : s.station.registry.expireNext? s.station.now with
      | some fired =>
        obtain ⟨alarm, -, heq⟩ := Option.map_eq_some_iff.1 hdue
        obtain rfl := heq
        exact ⟨.expire, hlive.running⟩
      | none => exact ⟨.turn, hlive.running⟩

/-! ### Two clients -/

/-- **A service in its routine with two clients**, and what has passed since each of them last
had nothing under way. -/
structure Serving (w₀ w₁ : List Word) (s : Service) : Prop where
  orderly : s.Orderly
  live : s.Live
  tended : s.station.Tended
  clients : s.clients.length = 2
  heard : ∀ k e, s.client k ≠ .answered (.error e)
  operator : s.Standing operator w₀
  watcher : s.Standing watcher w₁

namespace Serving

/-- **A move in which nobody is told anything.** -/
theorem act (h : s.Serving w₀ w₁) (hadmits : s.Admits a.move) (hlive : (s.act a).Live)
    (hquiet : ∀ k answer, (k, .told answer) ∉ s.said a.move) :
    (s.act a).Serving (w₀ ++ heardBy Service.operator (s.said a.move))
      (w₁ ++ heardBy Service.watcher (s.said a.move)) where
  orderly := h.orderly.move hadmits
  live := hlive
  tended := tended_act h.tended hlive
  clients := (h.orderly.deals hadmits).length_clients.trans h.clients
  heard := (h.orderly.deals hadmits).unrefused h.orderly hlive.running h.heard
  operator := h.orderly.standing_of_untold hadmits h.operator (hquiet _)
  watcher := h.orderly.standing_of_untold hadmits h.watcher (hquiet _)

/-- A move over which nothing passes. -/
theorem act_of_said (h : s.Serving w₀ w₁) (hadmits : s.Admits a.move) (hlive : (s.act a).Live)
    (hsaid : s.said a.move = []) : (s.act a).Serving w₀ w₁ := by
  have hact := h.act hadmits hlive (by simp [hsaid])
  rw [hsaid] at hact
  simpa [heardBy] using hact

/-- **A move in which one client is told**, which then has nothing under way. -/
theorem tells {answer : Answer} (h : s.Serving w₀ w₁) (hadmits : s.Admits a.move)
    (hlive : (s.act a).Live) (hsaid : s.said a.move = [(k, .told answer)])
    (hidle : (s.act a).client k = .idle) :
    (s.act a).Serving (if k = Service.operator then [] else w₀)
      (if k = Service.watcher then [] else w₁) := by
  have horderly := h.orderly.move hadmits
  have hstanding : ∀ j so, s.Standing j so →
      (s.act a).Standing j (if k = j then [] else so) := by
    intro j so hso
    split_ifs with hj
    · exact horderly.standing_of_idle (hj ▸ hidle)
    · have hother := h.orderly.standing_of_untold hadmits hso fun answer' hmem => ?_
      · rw [hsaid, heardBy_of_ne hj, List.append_nil] at hother
        exact hother
      · rw [hsaid, List.mem_singleton] at hmem
        exact hj (congrArg Prod.fst hmem).symm
  exact
    { orderly := horderly
      live := hlive
      tended := tended_act h.tended hlive
      clients := (h.orderly.deals hadmits).length_clients.trans h.clients
      heard := (h.orderly.deals hadmits).unrefused h.orderly hlive.running h.heard
      operator := hstanding _ _ h.operator
      watcher := hstanding _ _ h.watcher }

/-- Notifications are none of what passes. -/
theorem of_watch (h : s.Serving w₀ w₁) {w : LinkWatch} (hw : w.pending = s.watch.pending) :
    { s with watch := w }.Serving w₀ w₁ where
  orderly :=
    { standing := fun k => by
        obtain ⟨so, hso⟩ := h.orderly.standing k
        exact ⟨so, hso.congr rfl rfl rfl⟩
      closed := h.orderly.closed
      emptied := h.orderly.emptied
      known := h.orderly.known
      notified := fun hpending => h.orderly.notified (hw.symm.trans hpending) }
  live := ⟨h.live.running, h.live.staying⟩
  tended := h.tended
  clients := h.clients
  heard := h.heard
  operator := h.operator.congr rfl rfl rfl
  watcher := h.watcher.congr rfl rfl rfl

/-- The operator asks. -/
theorem submit (h : s.Serving [] w₁) (q : Request) :
    (s.submit Service.operator q).Serving [.asks q] w₁ := by
  have hidle : s.client Service.operator = .idle := by
    cases h.operator
    assumption
  have hlive : (s.act (.submit Service.operator q)).Live := h.live.act (by simp) (by simp)
  have hlength : Service.operator < s.clients.length := by rw [h.clients]; decide
  have hadmits : s.Admits (Act.submit Service.operator q).move := ⟨by decide, hlength, hidle⟩
  have hsaid : s.said (Act.submit Service.operator q).move = [(Service.operator, .asks q)] := rfl
  have hact := h.act hadmits hlive (by simp [hsaid])
  rw [hsaid, heardBy_self, heardBy_of_ne (by decide), List.append_nil, List.nil_append] at hact
  exact hact

/-- The operator takes its answer. -/
theorem collect {answer : Answer} (h : s.Serving w₀ w₁)
    (hanswer : s.client Service.operator = .answered answer) :
    (s.setClient Service.operator .idle).Serving [] w₁ := by
  have hadmits : s.Admits (Act.collect Service.operator).move :=
    ⟨by decide, by rw [answer?_eq_some_iff.2 hanswer]; rfl⟩
  have hsaid : s.said (Act.collect Service.operator).move =
      [(Service.operator, .told answer)] := by
    rw [Act.move, said, answer?_eq_some_iff.2 hanswer]
    rfl
  have hlength : Service.operator < s.clients.length := by rw [h.clients]; decide
  have hlive : (s.act (.collect Service.operator)).Live := h.live.act (by simp) (by simp)
  exact h.tells hadmits hlive hsaid (client_setClient hlength)

/-- **The dispatcher meets a request** that one of the two has made. -/
theorem meets (h : s.Serving w₀ w₁) (hserves : s.serves? = some (k, q)) :
    (s.act (.task .dispatcher)).station =
        { s.station with registry := (s.station.registry.execute q).2 } ∧
      ((k = Service.operator ∧ w₀ = [.asks q] ∧ (s.act (.task .dispatcher)).Serving
          [.asks q, .met q (s.station.registry.execute q).1] w₁) ∨
        k = Service.watcher ∧ w₁ = [.asks q] ∧ (s.act (.task .dispatcher)).Serving w₀
          [.asks q, .met q (s.station.registry.execute q).1]) := by
  obtain ⟨hrunning, hexit, commands, htake⟩ := serves?_eq_some_iff.1 hserves
  have hmem : (k, q) ∈ s.commands.items := by
    rw [(Mailbox.of_take?_eq_some htake).1]
    exact List.mem_cons_self
  have hsaid : s.said (Act.task .dispatcher).move =
      [(k, .met q (s.station.registry.execute q).1)] := by
    rw [Act.move, said, hserves]
    rfl
  have hlive : (s.act (.task .dispatcher)).Live := by
    refine h.live.act (by simp) fun _ => ?_
    rw [dispatch_of_take? hexit htake]
    exact hrunning
  have hact := h.act (a := .task .dispatcher) trivial hlive (by simp [hsaid])
  have hmet := of_met (hsaid ▸ List.mem_singleton_self _)
  rw [hsaid] at hact
  refine ⟨hmet.2, ?_⟩
  have hlt := h.orderly.lt_of_mem hmem
  rw [h.clients] at hlt
  obtain rfl | rfl : k = Service.operator ∨ k = Service.watcher := by
    unfold Service.operator Service.watcher
    omega
  · obtain ⟨-, rfl, -⟩ := h.operator.of_queued hmem
    rw [heardBy_self, heardBy_of_ne (by decide), List.append_nil] at hact
    exact Or.inl ⟨rfl, rfl, hact⟩
  · obtain ⟨-, rfl, -⟩ := h.watcher.of_queued hmem
    rw [heardBy_self, heardBy_of_ne (by decide), List.append_nil] at hact
    exact Or.inr ⟨rfl, rfl, hact⟩

/-- **The controller makes a report** of the notification that comes first. -/
theorem reports {notice : Notification} {notices : Mailbox Nat Notification} {i : IfIndex}
    {state : LinkState} (h : s.Serving w₀ []) (hpending : s.watch.pending = none)
    (halive : s.watch.alive = true) (hstaying : s.watch.exiting = false)
    (htake : s.watch.notices.take? = some (notice, notices))
    (hnotice : LinkController.interpret notice = .ok (i, state)) :
    (s.act (.task .watch)).Serving w₀ [.asks (.reportLink i state)] ∧
      (s.act (.task .watch)).station = s.station ∧
      (s.act (.task .watch)).watch = { s.watch with notices, pending := some (i, state) } := by
  have hitems := (Mailbox.of_take?_eq_some htake).1
  have hready : s.watchReady = true := by simp [watchReady, halive, hpending, hitems]
  have hstep : s.act (.task .watch) =
      { s with watch := { s.watch with notices, pending := some (i, state) } }.submit
        Service.watcher (.reportLink i state) := by
    show (if s.watchReady then s.watchStep else s) = _
    rw [if_pos hready, watchStep, hpending]
    simp [hstaying, htake, hnotice]
  have hsaid : s.said (Act.task .watch).move =
      [(Service.watcher, .asks (.reportLink i state))] := by
    simp [Act.move, said, hpending, notified?, halive, hstaying, hitems, hnotice, Except.toOption]
  have hlive : (s.act (.task .watch)).Live := h.live.act (by simp) (by simp)
  have hact := h.act (a := .task .watch) trivial hlive (by simp [hsaid])
  rw [hsaid, heardBy_self, heardBy_of_ne (by decide), List.append_nil, List.nil_append] at hact
  refine ⟨hact, ?_, ?_⟩
  · rw [hstep]
    exact (spares_submit _ _).1
  · rw [hstep]
    exact watch_submit _ _

/-- **The controller takes the answer** to its report. -/
theorem concludes {answer : Answer} {i : IfIndex} {state : LinkState} (h : s.Serving w₀ w₁)
    (hpending : s.watch.pending = some (i, state)) (halive : s.watch.alive = true)
    (hanswer : s.client Service.watcher = .answered answer) :
    (s.act (.task .watch)).Serving w₀ [] ∧ (s.act (.task .watch)).station = s.station ∧
      (s.act (.task .watch)).watch = { s.watch with
        controller := s.watch.controller.conclude i state answer.result
        pending := none } := by
  have hready : s.watchReady = true := by simp [watchReady, halive, hpending, hanswer]
  have hstep : s.act (.task .watch) = { s with watch := { s.watch with
      controller := s.watch.controller.conclude i state answer.result
      pending := none } }.setClient Service.watcher .idle := by
    show (if s.watchReady then s.watchStep else s) = _
    rw [if_pos hready, watchStep, hpending]
    simp [hanswer]
  have hsaid : s.said (Act.task .watch).move = [(Service.watcher, .told answer)] := by
    simp [Act.move, said, hpending, halive, answer?, hanswer]
  have hlive : (s.act (.task .watch)).Live := h.live.act (by simp) (by simp)
  have hidle : (s.act (.task .watch)).client Service.watcher = .idle := by
    rw [hstep]
    exact client_setClient h.orderly.known
  refine ⟨h.tells (a := .task .watch) trivial hlive hsaid hidle, ?_, ?_⟩
  · rw [hstep]
    rfl
  · rw [hstep]
    rfl

end Serving

end Service
end Lldp
