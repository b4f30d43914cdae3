/-
# A service in its routine

An act is a move in which others do with links only what they can do: frames arrive, and
opens and writes are made to fail.  Until the exit signal is given and unless the
dispatcher breaks down, each act is nothing to the station of the service, or one incident
of its routine (`act_cases`): the dispatcher meets a request, hands over the packet that
comes first, meets a request to transmit, lets an alarm go off or turns the wheel.  So
what routine keeps, a service keeps that is in its routine at the end: it was so all along
(`Live.of_act`), and its station is tended (`tended_perform`).

What the dispatcher hands over is what it takes out of the mailbox (`handed`).
-/

import Lldp.Proofs.Run
import Lldp.Proofs.Station.Listening

namespace Lldp

/-- What can happen to a service at once, where others do with links what they can do. -/
inductive Act where
  /-- A task makes its next step, if it is able to. -/
  | task (task : ServiceTask)
  /-- A client makes a request. -/
  | submit (number : Nat) (request : Request)
  /-- A client takes its answer. -/
  | collect (number : Nat)
  /-- A notification is left for the link-state controller. -/
  | post (notice : Notification)
  /-- No more notifications will be left. -/
  | close
  /-- Others do something with a link. -/
  | links (use : LinkUse)
  /-- Time passes. -/
  | pass (ms : Nat)
  /-- The exit signal is given. -/
  | exit

/-- The move that an act is. -/
def Act.move : Act → Move
  | .task t => .task t
  | .submit number request => .submit number request
  | .collect number => .collect number
  | .post notice => .post notice
  | .close => .close
  | .links use => .links (·.use use)
  | .pass ms => .pass ms
  | .exit => .exit

/-- The frames that arrive on the interface of a name. -/
def Act.injected (name : String) : Act → List Octets
  | .links use => Incident.injected name (.operation (.links use))
  | _ => []

namespace Service

variable {s : Service} {a : Act} {acts : List Act} {settings : Settings}

/-- A service after an act. -/
def act (s : Service) (a : Act) : Service := s.move a.move

/-- A service after several acts, the first of which comes first. -/
def perform (s : Service) (acts : List Act) : Service := acts.foldl act s

theorem perform_append (s : Service) (early late : List Act) :
    s.perform (early ++ late) = (s.perform early).perform late :=
  List.foldl_append

/-- The packets that an act hands over: the dispatcher takes the one that comes first, if
nobody asks it for anything. -/
def handed (s : Service) : Act → List Inbound
  | .task .dispatcher =>
    if s.running = true ∧ s.exiting = false ∧ s.commands.items = [] then
      s.station.inbound.items.take 1
    else []
  | _ => []

/-! ### In its routine -/

/-- The dispatcher is there, and has not been told to end. -/
structure Live (s : Service) : Prop where
  running : s.running = true
  staying : s.exiting = false

/-- **Only the dispatcher** ends itself. -/
theorem running_act (h : a ≠ .task .dispatcher) : (s.act a).running = s.running := by
  cases a with
  | task task =>
    cases task with
    | dispatcher => exact absurd rfl h
    | client number =>
      show (if s.clientReady number then s.clientStep number else s).running = _
      split_ifs
      · exact running_clientStep number
      · rfl
    | watch =>
      show (if s.watchReady then s.watchStep else s).running = _
      split_ifs
      · exact running_watchStep
      · rfl
    | station task => rfl
  | submit number request => exact running_submit number request
  | post notice =>
    show (s.post notice).2.running = _
    unfold post
    split_ifs <;> rfl
  | collect number => rfl
  | close => rfl
  | links use => rfl
  | pass ms => rfl
  | exit => rfl

/-- **A dispatcher that is there after an act** was there before it: who is gone does not
come back. -/
theorem running_of_act (h : (s.act a).running = true) : s.running = true := by
  by_cases hdispatcher : a = .task .dispatcher
  · subst hdispatcher
    have hstep : s.act (.task .dispatcher) = if s.dispatcherReady then s.dispatch else s := rfl
    rw [hstep] at h
    split_ifs at h with hready
    · exact running_of_dispatcherReady hready
    · exact h
  · exact (running_act hdispatcher).symm.trans h

theorem running_of_perform (h : (s.perform acts).running = true) : s.running = true := by
  induction acts generalizing s with
  | nil => exact h
  | cons a acts ih => exact running_of_act (ih h)

/-- **Who is in its routine after an act** was so before. -/
theorem Live.of_act (h : (s.act a).Live) : s.Live := by
  refine ⟨running_of_act h.running, ?_⟩
  have hstaying := h.staying
  cases a with
  | task task =>
    rw [← (step_keeps task s).1]
    exact hstaying
  | submit number request =>
    rw [← (spares_submit number request).2]
    exact hstaying
  | post notice =>
    have hsame : (s.post notice).2.exiting = s.exiting := by
      unfold post
      split_ifs <;> rfl
    exact hsame.symm.trans hstaying
  | collect number => exact hstaying
  | close => exact hstaying
  | links use => exact hstaying
  | pass ms => exact hstaying
  | exit => cases hstaying

theorem Live.of_perform (h : (s.perform acts).Live) : s.Live := by
  induction acts generalizing s with
  | nil => exact h
  | cons a acts ih => exact (ih h).of_act

/-- **What the dispatcher does in its routine** is one incident, unless it breaks down. -/
theorem dispatch_routine (h : s.station.registry.AlarmsAgree) (hlive : s.Live)
    (hthen : s.dispatch.running = true) :
    ∃ x : Incident, x.isRoutine = true ∧ s.dispatch.station = s.station.after x ∧
      s.handed (.task .dispatcher) = s.station.taken x ∧ ∀ name, x.injected name = [] := by
  have hexit : ¬s.exiting = true := by simp [hlive.staying]
  have hasked : s.commands.items ≠ [] → s.handed (.task .dispatcher) = [] := by
    intro hne
    rw [handed, if_neg fun hall => hne hall.2.2]
  have hunasked : s.commands.items = [] →
      s.handed (.task .dispatcher) = s.station.inbound.items.take 1 := by
    intro hnone
    rw [handed, if_pos ⟨hlive.running, hlive.staying, hnone⟩]
  unfold dispatch at hthen ⊢
  rw [if_neg hexit] at hthen ⊢
  cases hcommands : s.commands.take? with
  | some item =>
    obtain ⟨⟨number, request⟩, commands⟩ := item
    obtain ⟨rest, hitems, rfl⟩ := Mailbox.take?_eq_some_iff.1 hcommands
    refine ⟨.operation (.request request), rfl, rfl, hasked ?_, fun _ => rfl⟩
    rw [hitems]
    exact List.cons_ne_nil _ rest
  | none =>
    have hnobody := hunasked (Mailbox.items_of_take?_eq_none hcommands)
    rw [hcommands] at hthen
    cases hinbound : s.station.inbound.take? with
    | some item =>
      obtain ⟨p, inbound⟩ := item
      rw [hinbound] at hthen
      refine ⟨.packet true, rfl, ?_, hnobody, fun _ => rfl⟩
      dsimp only [deliver] at hthen ⊢
      split_ifs at hthen ⊢
      · cases hthen
      · rw [Station.after, hinbound]
        rfl
    | none =>
      have hempty : s.handed (.task .dispatcher) = [] := by
        rw [hnobody, Mailbox.items_of_take?_eq_none hinbound]
        rfl
      dsimp only
      cases htriggers : s.station.registry.triggers.take? with
      | some item =>
        refine ⟨.trigger true, rfl, ?_, hempty, fun _ => rfl⟩
        rw [Station.after, htriggers]
        rfl
      | none =>
        dsimp only
        cases hdue : s.station.registry.expireNext? s.station.now with
        | none => exact ⟨.turn, rfl, rfl, hempty, fun _ => rfl⟩
        | some fired =>
          obtain ⟨alarm, halarm, heq⟩ := Option.map_eq_some_iff.1 hdue
          obtain rfl := heq
          refine ⟨.operation (.fire alarm.ifIndex), rfl, ?_, hempty, fun _ => rfl⟩
          -- A port has one alarm, so this is its first that is due.
          have hmem := List.mem_of_find?_eq_some halarm
          have hcome : alarm.deadline ≤ s.station.now := by simpa using List.find?_some halarm
          have hfirst : s.station.registry.alarms.dueOf? s.station.now alarm.ifIndex =
              some alarm := by
            cases hfind : s.station.registry.alarms.dueOf? s.station.now alarm.ifIndex with
            | none =>
              have hnot := List.find?_eq_none.1 hfind alarm hmem
              simp [hcome] at hnot
            | some b =>
              have hb : b.ifIndex = alarm.ifIndex ∧ b.deadline ≤ s.station.now := by
                simpa using List.find?_some hfind
              rw [h.eq_of_ifIndex (List.mem_of_find?_eq_some hfind) hmem hb.1]
          simp only [Station.after, Registry.operate, hfirst, Option.elim_some]
          rfl

/-- What an act of anyone but the dispatcher is to the station, short of the exit signal:
nothing, or one incident of routine. -/
theorem act_others (hdispatcher : a ≠ .task .dispatcher) (hexit : a ≠ .exit) :
    ((s.act a).station = s.station ∧ s.handed a = [] ∧ ∀ name, a.injected name = []) ∨
      ∃ x : Incident, x.isRoutine = true ∧ (s.act a).station = s.station.after x ∧
        s.handed a = s.station.taken x ∧ ∀ name, a.injected name = x.injected name := by
  cases a with
  | task task =>
    cases task with
    | dispatcher => exact absurd rfl hdispatcher
    | client number =>
      refine Or.inl ⟨?_, rfl, fun _ => rfl⟩
      show (if s.clientReady number then s.clientStep number else s).station = _
      split_ifs
      · exact (spares_clientStep number).1
      · rfl
    | watch =>
      refine Or.inl ⟨?_, rfl, fun _ => rfl⟩
      show (if s.watchReady then s.watchStep else s).station = _
      split_ifs
      · exact spares_watchStep.1
      · rfl
    | station task => exact Or.inr ⟨.task task, rfl, rfl, rfl, fun _ => rfl⟩
  | submit number request => exact Or.inl ⟨(spares_submit number request).1, rfl, fun _ => rfl⟩
  | collect number => exact Or.inl ⟨rfl, rfl, fun _ => rfl⟩
  | post notice =>
    refine Or.inl ⟨?_, rfl, fun _ => rfl⟩
    show (s.post notice).2.station = s.station
    unfold post
    split_ifs <;> rfl
  | close => exact Or.inl ⟨rfl, rfl, fun _ => rfl⟩
  | links use => exact Or.inr ⟨.operation (.links use), rfl, rfl, rfl, fun _ => rfl⟩
  | pass ms => exact Or.inr ⟨.operation (.pass ms), rfl, rfl, rfl, fun _ => rfl⟩
  | exit => exact absurd rfl hexit

/-- **What an act is to the station of a service in its routine**: nothing, or one incident
of routine. -/
theorem act_cases (h : s.station.registry.AlarmsAgree) (hlive : (s.act a).Live) :
    ((s.act a).station = s.station ∧ s.handed a = [] ∧ ∀ name, a.injected name = []) ∨
      ∃ x : Incident, x.isRoutine = true ∧ (s.act a).station = s.station.after x ∧
        s.handed a = s.station.taken x ∧ ∀ name, a.injected name = x.injected name := by
  by_cases hexit : a = .exit
  · subst hexit
    cases hlive.staying
  by_cases hdispatcher : a = .task .dispatcher
  · subst hdispatcher
    have hstep : s.act (.task .dispatcher) = if s.dispatcherReady then s.dispatch else s := rfl
    by_cases hready : s.dispatcherReady = true
    · have hlive' := hlive.of_act
      rw [hstep, if_pos hready] at hlive ⊢
      obtain ⟨x, hx, heq, htaken, hnone⟩ := dispatch_routine h hlive' hlive.running
      exact Or.inr ⟨x, hx, heq, htaken, fun name => (hnone name).symm⟩
    · rw [hstep, if_neg hready]
      refine Or.inl ⟨rfl, ?_, fun _ => rfl⟩
      rw [handed]
      split_ifs with hall
      · obtain ⟨hrunning, hstaying, hcommands⟩ := hall
        have hempty : s.station.inbound.items = [] := by
          by_contra hne
          refine hready ?_
          unfold dispatcherReady
          simp [hrunning, hne]
        rw [hempty]
        rfl
      · rfl
  · exact act_others hdispatcher hexit

/-- **What an act is to the station of a service whose dispatcher is there**: nothing, one
incident of routine, or the exit signal. -/
theorem act_running_cases (h : s.station.registry.AlarmsAgree)
    (hrunning : (s.act a).running = true) :
    (s.act a).station = s.station ∨
      ∃ x : Incident, (x.isRoutine = true ∨ x = .exit) ∧ (s.act a).station = s.station.after x := by
  by_cases hexit : a = .exit
  · subst hexit
    exact Or.inr ⟨.exit, Or.inr rfl, rfl⟩
  by_cases hdispatcher : a = .task .dispatcher
  · subst hdispatcher
    have hstep : s.act (.task .dispatcher) = if s.dispatcherReady then s.dispatch else s := rfl
    by_cases hready : s.dispatcherReady = true
    · have hbefore := running_of_act hrunning
      rw [hstep, if_pos hready] at hrunning ⊢
      -- A dispatcher that has been told to end does so when its turn comes.
      have hstaying : s.exiting = false := by
        by_contra hexiting
        rw [dispatch, if_pos (by simpa using hexiting)] at hrunning
        cases hrunning
      obtain ⟨x, hx, heq, -⟩ := dispatch_routine h ⟨hbefore, hstaying⟩ hrunning
      exact Or.inr ⟨x, Or.inl hx, heq⟩
    · rw [hstep, if_neg hready]
      exact Or.inl rfl
  · rcases act_others hdispatcher hexit with ⟨heq, -⟩ | ⟨x, hx, heq, -⟩
    · exact Or.inl heq
    · exact Or.inr ⟨x, Or.inl hx, heq⟩

theorem tended_act (h : s.station.Tended) (hlive : (s.act a).Live) :
    (s.act a).station.Tended := by
  rcases act_cases h.sound.alarms hlive with ⟨heq, -⟩ | ⟨x, hx, heq, -⟩
  · rw [heq]
    exact h
  · rw [heq]
    exact h.after hx

/-- **A service in its routine** has a station that is tended. -/
theorem tended_perform (settings : Settings) (acts : List Act)
    (hlive : ((ofSettings settings).perform acts).Live) :
    ((ofSettings settings).perform acts).station.Tended := by
  induction acts using List.reverseRecOn with
  | nil => exact .ofSettings settings
  | append_singleton acts a ih =>
    rw [perform_append] at hlive ⊢
    have hbefore : ((ofSettings settings).perform acts).Live := hlive.of_perform
    exact tended_act (ih hbefore) hlive

end Service
end Lldp
