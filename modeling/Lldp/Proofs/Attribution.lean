/-
# Which session a packet is for

The task that reads a capture looks whether its port still has that capture before it
passes a packet on.  The packet then waits, in the task or in the mailbox, and when the
dispatcher takes it, nobody looks again: the port need only be captured at that time,
by whatever capture.  So a packet that waits while its port is removed, registered as
another interface and started is taken for one of the new session, which learns of a
neighbour that it never heard (`learned_by_successor`).

This is the only way in which it happens.  What is on its way was read through the
capture that its port had (`exists_reading`), and a port that has a capture has been
registered since before the interface was opened (`exists_opening`).  So a packet is for
the session that learns from it exactly if it was not on its way while its port was not
registered (`neighbor_is_attributed`), however tasks are scheduled.

What the dispatcher may do is said once (`Service.dispatch_cases`), and so is what any
move may do (`Service.Onward`).  What is so after a run and was not before came about by
one of its moves (`exists_onset`), so it is enough to ask of a move what it brings.
-/

import Lldp.Proofs.InFlight
import Lldp.Proofs.Run

namespace Lldp

/-! ### What a move may do -/

namespace Service

variable {s s' : Service} {m : Move} {moves early late : List Move} {p : Inbound} {c : Capture}
  {i : IfIndex} {n : Neighbor}

/-- A port that has a capture was registered before, and had it before or has one of a
new generation; a packet was on its way before or was in the hand of a task that read
it through the capture its port has; and generations stay what they are. -/
structure Onward (s s' : Service) : Prop where
  generation : s.station.registry.generation ≤ s'.station.registry.generation
  capture : ∀ i c, s'.station.registry.capture? i = some c →
    s.station.registry.isRegistered i = true ∧
      (s.station.registry.capture? i = some c ∨ s.station.registry.generation < c.generation)
  inFlight : ∀ p ∈ s'.station.inFlight, p ∈ s.station.inFlight ∨ ∃ c, s.station.Reads p c
  agree : s'.station.registry.CapturesAgree

namespace Onward

/-- Operations on the registry bring no packet on its way. -/
theorem of_recaptures (hagree : s.station.registry.CapturesAgree)
    (h : s.station.registry.Recaptures s'.station.registry)
    (hitems : ∀ p ∈ s'.station.inbound.items, p ∈ s.station.inbound.items)
    (hwaiting : s'.station.inbound.waiting = s.station.inbound.waiting) : Onward s s' where
  generation := h.generation
  capture i c hc :=
    ⟨h.registered i (Registry.isRegistered_of_capture? hc), h.capture i c hc⟩
  inFlight p hp := by
    refine Or.inl (Station.mem_inFlight.2 ?_)
    rcases Station.mem_inFlight.1 hp with hitem | hwait | ⟨t, ht, hpass⟩
    · exact Or.inl (hitems p hitem)
    · exact Or.inr (Or.inl (hwaiting ▸ hwait))
    · rcases h.tasks t ht with hold | hnew
      · exact Or.inr (Or.inr ⟨t, hold, hpass⟩)
      · rw [CaptureTask.passing?, hnew] at hpass
        cases hpass
  agree := h.agree hagree

/-- The tasks that surround the registry bring no capture. -/
theorem of_brings (hagree : s.station.registry.CapturesAgree)
    (hg : s'.station.registry.generation = s.station.registry.generation)
    (hc : ∀ i, s'.station.registry.capture? i = s.station.registry.capture? i)
    (h : s.station.Brings s'.station) : Onward s s' := by
  refine ⟨Nat.le_of_eq hg.symm, fun i c hi => ?_, h.inFlight,
    hagree.of_isOpened (Nat.le_of_eq hg.symm) fun i c hi => ?_⟩
  · rw [hc] at hi
    exact ⟨Registry.isRegistered_of_capture? hi, Or.inl hi⟩
  · rcases hi with hi | ⟨u, hu, rfl, rfl⟩
    · exact Or.inl ((hc i).symm.trans hi)
    · obtain ⟨t, ht, hti, htc⟩ := h.tasks u hu
      exact Or.inr ⟨t, ht, hti.symm, htc.symm⟩

/-- Nor does registering a port. -/
theorem of_add (hagree : s.station.registry.CapturesAgree) {port : Port}
    (hregistry : s'.station.registry = (s.station.registry.add port).2)
    (hinbound : s'.station.inbound = s.station.inbound) : Onward s s' := by
  have htasks : s'.station.registry.tasks = s.station.registry.tasks := by
    rw [hregistry, Registry.add]
    split <;> rfl
  have hg : s'.station.registry.generation = s.station.registry.generation := by
    rw [hregistry, Registry.add]
    split <;> rfl
  refine of_brings hagree hg (fun i => ?_) (.of_drains (.of_same hinbound htasks))
  rw [hregistry, Registry.capture?_add]

theorem of_step (hagree : s.station.registry.CapturesAgree) (task : StationTask)
    (h : s'.station = s.station.step task) : Onward s s' := by
  obtain ⟨-, x, hx⟩ := s.station.drifts_step task
  refine of_brings hagree ?_ (fun i => ?_) (h ▸ Station.Brings.step hagree task)
  · rw [h, hx]
    rfl
  · rw [h, hx, Registry.capture?, Registry.session?_surround, Registry.capture?, Option.bind_map]
    rfl

end Onward

/-- The dispatcher is there, nobody asks it for anything, and this is the first packet
for it to take. -/
structure Delivers (s : Service) (p : Inbound) : Prop where
  running : s.running = true
  staying : s.exiting = false
  unasked : s.commands.items = []
  first : s.station.inbound.items.head? = some p

/-- What the dispatcher does brings no packet on its way and a capture only by opening
an interface. -/
structure Serves (s s' : Service) : Prop where
  recaptures : s.station.registry.Recaptures s'.station.registry
  items : ∀ p ∈ s'.station.inbound.items, p ∈ s.station.inbound.items
  waiting : s'.station.inbound.waiting = s.station.inbound.waiting

namespace Serves

theorem of_registry (h : s.station.registry.Recaptures s'.station.registry)
    (hinbound : s'.station.inbound = s.station.inbound) : Serves s s' :=
  ⟨h, fun p hp => hinbound ▸ hp, by rw [hinbound]⟩

/-- The dispatcher is gone. -/
theorem vacate : Serves s s.vacate :=
  ⟨.of_same rfl rfl rfl, nofun, rfl⟩

theorem trans {s'' : Service} (h : Serves s s') (h' : Serves s' s'') : Serves s s'' :=
  ⟨h.recaptures.trans h'.recaptures, fun p hp => h.items p (h'.items p hp),
    h'.waiting.trans h.waiting⟩

theorem finish : Serves s s.finish := by
  have hdown : Serves s (s.onRegistry Registry.shutdown) := of_registry .shutdown rfl
  exact hdown.trans vacate

theorem breakDown : Serves s s.breakDown := by
  have hdown : Serves s (s.onRegistry Registry.abandon) := of_registry .abandon rfl
  exact hdown.trans vacate

theorem deliver : Serves s (s.deliver p) := by
  have hover : Serves s (s.onRegistry (·.handleInbound s.station.now p)) :=
    of_registry .handleInbound rfl
  unfold Service.deliver
  dsimp only
  split_ifs
  · exact hover.trans breakDown
  · exact hover

end Serves

/-- A packet that is handed over tells ports no more than the registry learns from it,
even if the dispatcher breaks down over it. -/
theorem learnsNothing_deliver (s : Service) (p : Inbound) :
    (s.station.registry.handleInbound s.station.now p).LearnsNothing
      (s.deliver p).station.registry := by
  unfold deliver
  dsimp only
  split_ifs
  · exact Registry.LearnsNothing.abandon.trans (.of_sessions rfl)
  · exact .refl _

/-- **What the dispatcher does next.**  It registers a port, or brings a capture only by
opening an interface; and no port learns anything, or it hands a packet over. -/
theorem dispatch_cases (s : Service) :
    ((∃ port, s.dispatch.station.registry = (s.station.registry.add port).2 ∧
        s.dispatch.station.inbound = s.station.inbound) ∨ s.Serves s.dispatch) ∧
      (s.station.registry.LearnsNothing s.dispatch.station.registry ∨
        ∃ p, (s.running = true → s.Delivers p) ∧
          (s.station.registry.handleInbound s.station.now p).LearnsNothing
            s.dispatch.station.registry) := by
  unfold dispatch
  by_cases hexit : s.exiting = true
  · rw [if_pos hexit]
    exact ⟨Or.inr .finish,
      Or.inl (Registry.LearnsNothing.shutdown.trans (.of_sessions rfl))⟩
  · rw [if_neg hexit]
    cases hcommands : s.commands.take? with
    | some item =>
      obtain ⟨⟨number, request⟩, commands⟩ := item
      constructor
      · by_cases hadd : ∃ port, request = .add port
        · obtain ⟨port, rfl⟩ := hadd
          exact Or.inl ⟨port, rfl, rfl⟩
        · exact Or.inr (.of_registry (.execute fun port h => hadd ⟨port, h⟩) rfl)
      · exact Or.inl (@Registry.LearnsNothing.react _ s.station.now (.request request) nofun)
    | none =>
      cases hinbound : s.station.inbound.take? with
      | some item =>
        obtain ⟨p, inbound⟩ := item
        obtain ⟨hitems, hwaiting⟩ := Mailbox.of_take?_eq_some hinbound
        have htaken : Serves s (s.onStation fun st => { st with inbound }) :=
          ⟨.refl _, fun q hq => hitems ▸ List.mem_cons_of_mem p hq, hwaiting⟩
        have hdelivers : s.running = true → s.Delivers p := fun hrunning =>
          ⟨hrunning, Bool.eq_false_iff.2 hexit, Mailbox.items_of_take?_eq_none hcommands, by
            rw [hitems, List.head?_cons]⟩
        exact ⟨Or.inr (htaken.trans .deliver),
          Or.inr ⟨p, hdelivers, learnsNothing_deliver _ p⟩⟩
      | none =>
        dsimp only
        cases s.station.registry.triggers.take? with
        | some item =>
          have htaken : s.station.registry.Recaptures
              { s.station.registry with triggers := item.2 } := .of_same rfl rfl rfl
          have hsame : s.station.registry.LearnsNothing
              { s.station.registry with triggers := item.2 } := .of_sessions rfl
          exact ⟨Or.inr (.of_registry (htaken.trans .handleTransmit) rfl),
            Or.inl (hsame.trans (.of_keepsReceivers Registry.keepsReceivers_transmit))⟩
        | none =>
          dsimp only
          cases hdue : s.station.registry.expireNext? s.station.now with
          | some fired =>
            obtain ⟨alarm, -, heq⟩ := Option.map_eq_some_iff.1 hdue
            obtain rfl := heq
            exact ⟨Or.inr (.of_registry .expire rfl), Or.inl .expire⟩
          | none => exact ⟨Or.inr (.of_registry (.of_same rfl rfl rfl) rfl),
              Or.inl (.of_sessions rfl)⟩

/-- **What a move may do.**  The dispatcher makes its step, or another task of the station
makes one, or no session is touched and no packet brought on its way. -/
theorem move_cases (s : Service) (m : Move) :
    (m = .task .dispatcher ∧ s.running = true ∧ s.move m = s.dispatch) ∨
    (∃ task, (s.move m).station = s.station.step task) ∨
    ((s.move m).station.registry.sessions = s.station.registry.sessions ∧
      (s.move m).station.registry.generation = s.station.registry.generation ∧
      s.station.Drains (s.move m).station) := by
  have hspared : ∀ {s' : Service}, s'.station = s.station →
      s'.station.registry.sessions = s.station.registry.sessions ∧
        s'.station.registry.generation = s.station.registry.generation ∧
        s.station.Drains s'.station := by
    intro s' h
    rw [h]
    exact ⟨rfl, rfl, .refl _⟩
  cases m with
  | task task =>
    unfold move step
    cases task with
    | dispatcher =>
      dsimp only
      split_ifs with hready
      · exact Or.inl ⟨rfl, running_of_dispatcherReady hready, rfl⟩
      · exact Or.inr (Or.inr (hspared rfl))
    | client number =>
      refine Or.inr (Or.inr (hspared ?_))
      dsimp only
      split_ifs
      · exact (spares_clientStep number).1
      · rfl
    | watch =>
      refine Or.inr (Or.inr (hspared ?_))
      dsimp only
      split_ifs
      · exact spares_watchStep.1
      · rfl
    | station task => exact Or.inr (Or.inl ⟨task, rfl⟩)
  | submit number request => exact Or.inr (Or.inr (hspared (spares_submit number request).1))
  | collect number => exact Or.inr (Or.inr (hspared rfl))
  | post notice =>
    refine Or.inr (Or.inr (hspared ?_))
    unfold move post
    split_ifs <;> rfl
  | close => exact Or.inr (Or.inr (hspared rfl))
  | links change => exact Or.inr (Or.inr ⟨rfl, rfl, .onBackend⟩)
  | pass ms => exact Or.inr (Or.inr ⟨rfl, rfl, .of_same rfl rfl⟩)
  | exit =>
    refine Or.inr (Or.inr ⟨rfl, rfl, .of_tasks rfl fun u hu => ?_⟩)
    obtain ⟨t, ht, rfl⟩ := List.mem_map.1 hu
    exact ⟨t, ht, rfl, rfl, fun _ => id⟩

/-- **Every move** brings captures, and packets on their way, from where they come
from. -/
theorem Onward.move (hagree : s.station.registry.CapturesAgree) (m : Move) :
    s.Onward (s.move m) := by
  rcases move_cases s m with ⟨-, -, hdispatch⟩ | ⟨task, hstep⟩ | ⟨hsessions, hg, hdrains⟩
  · rw [hdispatch]
    rcases (dispatch_cases s).1 with ⟨port, hregistry, hinbound⟩ | hserves
    · exact of_add hagree hregistry hinbound
    · exact of_recaptures hagree hserves.recaptures hserves.items hserves.waiting
  · exact of_step hagree task hstep
  · refine of_brings hagree hg (fun i => ?_) (.of_drains hdrains)
    rw [Registry.capture?, Registry.session?, hsessions]
    rfl

/-- **A port learns of a neighbour** when the dispatcher takes a packet that says so. -/
theorem learned_move (h : (s.move m).station.registry.neighbor? i = some n) :
    s.station.registry.neighbor? i = some n ∨
      m = .task .dispatcher ∧ ∃ p, s.Delivers p ∧ p.ifIndex = i ∧
        s.station.registry.accept? p = some n := by
  rcases move_cases s m with ⟨hm, hrunning, hdispatch⟩ | ⟨task, hstep⟩ | ⟨hsessions, -, -⟩
  · rw [hdispatch] at h
    rcases (dispatch_cases s).2 with hnothing | ⟨p, hdelivers, hlearned⟩
    · exact Or.inl (hnothing i n h)
    · rcases Registry.neighbor?_handleInbound (hlearned i n h) with hold | ⟨hi, ha⟩
      · exact Or.inl hold
      · exact Or.inr ⟨hm, p, hdelivers hrunning, hi, ha⟩
  · obtain ⟨-, x, hx⟩ := s.station.drifts_step task
    rw [hstep, hx] at h
    exact Or.inl (Registry.LearnsNothing.of_keepsReceivers Registry.keepsReceivers_surround i n h)
  · exact Or.inl (Registry.LearnsNothing.of_sessions hsessions i n h)

/-! ### Along a run -/

section Runs

variable {settings : Settings}

/-- The port is registered. -/
def HasPort (i : IfIndex) (s : Service) : Prop := s.station.registry.isRegistered i = true

theorem agree_run : ((ofSettings settings).run moves).station.registry.CapturesAgree :=
  @run_invariant _ moves (fun s => s.station.registry.CapturesAgree)
    (fun _ m h => (Onward.move h m).agree) (.ofSettings settings)

theorem onward_concat :
    ((ofSettings settings).run moves).Onward ((ofSettings settings).run (moves ++ [m])) := by
  rw [run_concat]
  exact .move agree_run m

theorem generation_le_run :
    ((ofSettings settings).run early).station.registry.generation ≤
      ((ofSettings settings).run (early ++ late)).station.registry.generation := by
  -- On the last move, so that what is before it is a run from the start, where captures agree.
  induction late using List.reverseRecOn with
  | nil => exact Nat.le_of_eq (by rw [List.append_nil])
  | append_singleton late m ih =>
    rw [← List.append_assoc]
    exact Nat.le_trans ih onward_concat.generation

/-- **A capture that a port has later** it had before, or its generation is newer. -/
theorem capture_run
    (h : ((ofSettings settings).run (early ++ late)).station.registry.capture? i = some c) :
    ((ofSettings settings).run early).station.registry.capture? i = some c ∨
      ((ofSettings settings).run early).station.registry.generation < c.generation := by
  induction late using List.reverseRecOn with
  | nil =>
    rw [List.append_nil] at h
    exact Or.inl h
  | append_singleton late m ih =>
    rw [← List.append_assoc] at h
    rcases (onward_concat.capture i c h).2 with hold | hnew
    · exact ih hold
    · exact Or.inr (Nat.lt_of_le_of_lt generation_le_run hnew)

/-- **A port that has a capture** has been registered since before it was opened. -/
theorem exists_opening
    (h : ((ofSettings settings).run moves).station.registry.capture? i = some c) :
    ∃ before opening, moves = before ++ opening ∧
      ((ofSettings settings).run before).station.registry.capture? i ≠ some c ∧
      Always (HasPort i) ((ofSettings settings).run before) opening := by
  obtain ⟨before, m, after, rfl, hnot, hall⟩ :=
    @exists_onset _ moves (fun s => s.station.registry.capture? i = some c)
      (fun hfirst => by cases hfirst) h
  have hopened := (onward_concat.capture i c hall.first).1
  refine ⟨before, m :: after, rfl, hnot, .cons hopened ?_⟩
  rw [← run_concat]
  exact hall.mono fun _ => Registry.isRegistered_of_capture?

/-- **A packet on its way** was read through the capture its port had, and has been on
its way since the task let it through. -/
theorem exists_reading (h : p ∈ ((ofSettings settings).run moves).station.inFlight) :
    ∃ before m after c, moves = before ++ m :: after ∧
      ((ofSettings settings).run before).station.Reads p c ∧
      Always (fun s => p ∈ s.station.inFlight) ((ofSettings settings).run (before ++ [m]))
        after := by
  obtain ⟨before, m, after, rfl, hnot, hall⟩ :=
    @exists_onset _ moves (fun s => p ∈ s.station.inFlight)
      (fun hfirst => by cases hfirst) h
  rcases onward_concat.inFlight p hall.first with hold | ⟨c, hreads⟩
  · exact absurd hold hnot
  · exact ⟨before, m, after, c, rfl, hreads, hall⟩

/-- No packet on its way is newer than the last capture. -/
theorem generation_le_of_mem_inFlight
    (h : p ∈ ((ofSettings settings).run moves).station.inFlight) :
    p.generation ≤ ((ofSettings settings).run moves).station.registry.generation := by
  obtain ⟨before, m, after, c, rfl, ⟨t, -, -, -, -, hg, hc⟩, -⟩ := exists_reading h
  have hle := agree_run.le p.ifIndex c (Or.inl hc)
  rw [hg] at hle
  exact Nat.le_trans hle generation_le_run

/-- The packet was read through a capture that was opened while its port was registered,
as it has been ever since: it is a packet for this very session. -/
def IsReadForSession (s : Service) (moves : List Move) (p : Inbound) : Prop :=
  ∃ before opening after c, moves = before ++ opening ++ after ∧
    (s.run before).station.registry.capture? p.ifIndex ≠ some c ∧
    (s.run (before ++ opening)).station.Reads p c ∧
    Always (HasPort p.ifIndex) (s.run before) (opening ++ after)

/-- The packet was on its way while its port was not registered. -/
def Outlives (s : Service) (moves : List Move) (p : Inbound) : Prop :=
  ∃ early late, moves = early ++ late ∧ ¬HasPort p.ifIndex (s.run early) ∧
    p ∈ (s.run early).station.inFlight

/-- **A packet that outlived its session** is older than every capture of the session
that the port has now. -/
theorem not_isReadForSession (h : (ofSettings settings).Outlives moves p) :
    ¬(ofSettings settings).IsReadForSession moves p := by
  rintro ⟨before, opening, after, c, rfl, hnot, ⟨t, -, -, -, -, hg, hc⟩, hall⟩
  obtain ⟨early, late, heq, hport, hflight⟩ := h
  rw [List.append_assoc] at heq
  rcases List.append_eq_append_iff.1 heq with ⟨middle, rfl, hrest⟩ | ⟨middle, rfl, -⟩
  · -- The port was not registered after the capture was opened, but it was.
    rw [run_append] at hport
    exact hport (hall middle late hrest)
  · -- The packet was on its way before the capture was opened, so it is older.
    have hold := generation_le_of_mem_inFlight hflight
    have hle := @generation_le_run early middle settings
    rcases capture_run hc with hsame | hnew
    · exact hnot hsame
    · omega

/-- **A packet that did not** was read for the session that the port has now. -/
theorem isReadForSession (h : p ∈ ((ofSettings settings).run moves).station.inFlight)
    (hno : ¬(ofSettings settings).Outlives moves p) :
    (ofSettings settings).IsReadForSession moves p := by
  obtain ⟨before, m, after, c, rfl, hreads, hall⟩ := exists_reading h
  obtain ⟨-, -, -, -, -, -, hc⟩ := id hreads
  obtain ⟨first, opening, rfl, hnot, hopening⟩ := exists_opening hc
  refine ⟨first, opening, m :: after, c, rfl, hnot, hreads, hopening.append ?_⟩
  rw [← run_append]
  refine .cons (Registry.isRegistered_of_capture? hc) ?_
  rw [← run_concat]
  -- From here on the packet is on its way, so that the port cannot be away.
  intro passed rest heq
  by_contra hport
  refine hno ⟨(first ++ opening) ++ [m] ++ passed, rest, ?_, ?_, ?_⟩
  · rw [heq]
    simp
  · rwa [run_append]
  · rw [run_append]
    exact hall passed rest heq

/-- **A neighbour that a port remembers** was in a packet that the dispatcher took while
the port was registered, as it has been ever since. -/
theorem exists_delivery
    (h : ((ofSettings settings).run moves).station.registry.neighbor? i = some n) :
    ∃ early late p, moves = early ++ .task .dispatcher :: late ∧
      ((ofSettings settings).run early).Delivers p ∧ p.ifIndex = i ∧
      Neighbor.ofPacket p.bytes = .ok n ∧
      Always (HasPort i) ((ofSettings settings).run early) (.task .dispatcher :: late) := by
  obtain ⟨early, m, late, rfl, hnot, hall⟩ :=
    @exists_onset _ moves (fun s => s.station.registry.neighbor? i = some n)
      (fun hfirst => by cases hfirst) h
  rw [run_concat] at hall
  -- What a port learns, it learns of a packet, and while it is there to accept it.
  rcases learned_move hall.first with hold | ⟨rfl, p, hdelivers, hi, ha⟩
  · exact absurd hold hnot
  · obtain ⟨s, hs, -, hp⟩ := Registry.accept?_eq_some_iff.1 ha
    have hport : HasPort i ((ofSettings settings).run early) := by
      rw [HasPort, Registry.isRegistered, ← hi, hs]
      rfl
    exact ⟨early, late, p, rfl, hdelivers, hi, hp,
      .cons hport (hall.mono fun _ => Registry.isRegistered_of_neighbor?)⟩

/-- **A neighbour comes from the session's own capture unless its packet outlived the
session before.**  Whatever a port remembers was said by a packet that the dispatcher
took while the port was registered, as it has been ever since.  That packet, like any
other on its way, was read through a capture opened since the port was registered
exactly if it was not on its way at any time when the port was not. -/
theorem neighbor_is_attributed (settings : Settings) (moves : List Move) :
    let s := ofSettings settings
    (∀ i n, (s.run moves).station.registry.neighbor? i = some n →
      ∃ early late p, moves = early ++ .task .dispatcher :: late ∧
        (s.run early).Delivers p ∧ p.ifIndex = i ∧ Neighbor.ofPacket p.bytes = .ok n ∧
        Always (HasPort i) (s.run early) (.task .dispatcher :: late) ∧
        (s.IsReadForSession early p ↔ ¬s.Outlives early p)) ∧
      ∀ p ∈ (s.run moves).station.inFlight,
        (s.IsReadForSession moves p ↔ ¬s.Outlives moves p) := by
  intro s
  have hiff : ∀ moves p, p ∈ (s.run moves).station.inFlight →
      (s.IsReadForSession moves p ↔ ¬s.Outlives moves p) :=
    fun moves p hp => ⟨fun hread hout => not_isReadForSession hout hread, isReadForSession hp⟩
  refine ⟨fun i n hn => ?_, hiff moves⟩
  obtain ⟨early, late, p, heq, hdelivers, hi, hp, hall⟩ := exists_delivery hn
  exact ⟨early, late, p, heq, hdelivers, hi, hp, hall,
    hiff early p (Station.mem_inFlight_of_items (List.mem_of_mem_head? hdelivers.first))⟩

end Runs

/-- A neighbour writes while port 1 is one interface, and the packet is passed on; then
port 1 becomes another interface. -/
def handover : List Move :=
  let ask (request : Request) : List Move :=
    [.submit operator request, .task .dispatcher, .collect operator]
  let read : List Move := List.replicate 7 (.task (.station (.capture 1)))
  ask (.add { ifIndex := 1, number := 1, name := "Ethernet0", mac := ⟨2, 0, 0, 0, 0, 1⟩ }) ++
    ask (.reportLink 1 .up) ++
    .links (·.inject "Ethernet0" [Ethernet.build Receiver.writer.source Receiver.writtenUnit]) ::
    read ++
    ask (.remove 1) ++
    ask (.add { ifIndex := 1, number := 1, name := "Ethernet4", mac := ⟨2, 0, 0, 0, 0, 5⟩ }) ++
    ask (.reportLink 1 .up)

/-- The packet that was passed on. -/
def stray : Inbound :=
  { ifIndex := 1, bytes := Ethernet.build Receiver.writer.source Receiver.writtenUnit,
    generation := 1 }

/-- Before port 1 is removed, the packet is its own. -/
theorem read_for_first :
    let s := ofSettings {}
    stray ∈ (s.run (handover.take 14)).station.inFlight ∧
      s.IsReadForSession (handover.take 14) stray := by
  intro s
  have hflight : stray ∈ (s.run (handover.take 14)).station.inFlight := by decide +kernel
  have hregistered : ∀ k < 15, stray ∈ (s.run (handover.take k)).station.inFlight →
      (s.run (handover.take k)).station.registry.isRegistered 1 = true := by decide +kernel
  refine ⟨hflight, ((neighbor_is_attributed {} (handover.take 14)).2 stray hflight).2 ?_⟩
  rintro ⟨early, late, heq, hport, hearly⟩
  have hlength : early.length < 15 := by
    have hsum := congrArg List.length heq
    rw [List.length_append] at hsum
    have htake : (handover.take 14).length = 14 := rfl
    omega
  have hsame : early = handover.take early.length := by
    have htake := congrArg (List.take early.length) heq
    rw [List.take_left, List.take_take, Nat.min_eq_left (by omega)] at htake
    exact htake.symm
  rw [hsame] at hport hearly
  exact hport (hregistered early.length hlength hearly)

/-- **A session learns what was read for another.**  The packet of the neighbour on the
first interface is taken to have come by the second. -/
theorem learned_by_successor :
    let s := ofSettings {}
    (s.run handover).Delivers stray ∧
      (s.run handover).station.registry.neighbor? 1 = none ∧
      ((s.run handover).station.registry.session? 1).map (·.port.name) = some "Ethernet4" ∧
      (s.run (handover ++ [.task .dispatcher])).station.registry.neighbor? 1 =
        some Receiver.writer ∧
      ¬s.IsReadForSession handover stray := by
  intro s
  have hdelivers : (s.run handover).Delivers stray :=
    ⟨by decide +kernel, by decide +kernel, by decide +kernel, by decide +kernel⟩
  have hsuccessor : ((s.run handover).station.registry.session? 1).map (·.port.name) =
      some "Ethernet4" := by decide +kernel
  have houtlives : s.Outlives handover stray := by
    have hflight : stray ∈ (s.run (handover.take 16)).station.inFlight := by decide +kernel
    have hgone : (s.run (handover.take 16)).station.registry.isRegistered 1 = false := by
      decide +kernel
    refine ⟨handover.take 16, handover.drop 16, (List.take_append_drop 16 handover).symm, ?_,
      hflight⟩
    rw [HasPort]
    show ¬(s.run (handover.take 16)).station.registry.isRegistered 1 = true
    rw [hgone]
    exact Bool.false_ne_true
  exact ⟨hdelivers, by decide +kernel, hsuccessor, by decide +kernel,
    not_isReadForSession houtlives⟩

end Service
end Lldp
