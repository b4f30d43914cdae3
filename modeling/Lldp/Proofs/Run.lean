/-
# Runs of a service

A move is the least that happens to a service at once: a task makes a step, a client
asks or takes its answer, a link is reported, time passes, others do something with
links, the exit signal is given.  A run is any sequence of moves, so what is proved
of every run holds however tasks are scheduled and however requests, packets and
alarms fall in between.

Nothing is done with a service that is not a run: to let all tasks come to a
standstill, to let time pass and to make a request and wait for the answer are runs
(`IsRunOf.settle`, `IsRunOf.sleep`, `IsRunOf.call`).
-/

import Lldp.Proofs.Service
import Lldp.Proofs.Trace

namespace Lldp

/-- What can happen to a service at once. -/
inductive Move where
  /-- A task makes its next step, if it is able to. -/
  | task (task : ServiceTask)
  /-- A client makes a request. -/
  | submit (number : Nat) (request : Request)
  /-- A client takes its answer. -/
  | collect (number : Nat)
  /-- A notification is left for the link-state controller. -/
  | post (notice : Notification)
  /-- No more notifications will be left. -/
  | close
  /-- Others do something with links. -/
  | links (change : Loopback → Loopback)
  /-- Time passes. -/
  | pass (ms : Nat)
  /-- The exit signal is given. -/
  | exit

namespace Service

variable {s : Service} {m : Move} {moves early late : List Move} {P : Service → Prop}

/-- A service after a move. -/
def move (s : Service) : Move → Service
  | .task task => s.step task
  | .submit number request => s.submit number request
  | .collect number => s.setClient number .idle
  | .post notice => (s.post notice).2
  | .close => s.sealNotices
  | .links change => s.onStation (·.onBackend change)
  | .pass ms => s.onStation fun st => { st with now := st.now + ms }
  | .exit => s.announceExit

/-- A service after several moves, the first of which comes first. -/
def run (s : Service) (moves : List Move) : Service := moves.foldl move s

/-- A run without a move leaves everything as it is. -/
@[simp] theorem run_nil (s : Service) : s.run [] = s := rfl

/-- A run may be cut in two. -/
theorem run_append (s : Service) (first rest : List Move) :
    s.run (first ++ rest) = (s.run first).run rest :=
  List.foldl_append

/-- The last move of a run comes last. -/
theorem run_concat (s : Service) (moves : List Move) (m : Move) :
    s.run (moves ++ [m]) = (s.run moves).move m :=
  run_append s moves [m]

/-- **What every move keeps, every run keeps.** -/
theorem run_invariant (step : ∀ s m, P s → P (s.move m)) (h : P s) : P (s.run moves) :=
  Trace.invariant step h

/-! ### All along a run -/

/-- Something holds before a run, after it and in between. -/
def Always (P : Service → Prop) (s : Service) (moves : List Move) : Prop :=
  ∀ early late, moves = early ++ late → P (s.run early)

namespace Always

/-- What holds all along a run holds before it. -/
theorem first (h : Always P s moves) : P s := Trace.Always.first h

/-- So does all that follows from it. -/
theorem mono {Q : Service → Prop} (himp : ∀ s, P s → Q s) (h : Always P s moves) :
    Always Q s moves :=
  Trace.Always.mono himp h

/-- Something holds from before a move if it does from after it. -/
theorem cons (hfirst : P s) (h : Always P (s.move m) moves) : Always P s (m :: moves) :=
  Trace.Always.cons hfirst h

/-- Two stretches of a run make one. -/
theorem append (h : Always P s early) (h' : Always P (s.run early) late) :
    Always P s (early ++ late) :=
  Trace.Always.append h h'

end Always

/-- **What holds after a run and did not before** came about by a move, and has held
since. -/
theorem exists_onset (hfirst : ¬P s) (h : P (s.run moves)) :
    ∃ before m after, moves = before ++ m :: after ∧ ¬P (s.run before) ∧
      Always P (s.run (before ++ [m])) after :=
  Trace.exists_onset hfirst h

/-! ### What is done with a service -/

/-- The service may come about by a run. -/
def IsRunOf (s s' : Service) : Prop := ∃ moves, s' = s.run moves

namespace IsRunOf

/-- To do nothing is a run. -/
theorem refl (s : Service) : s.IsRunOf s := ⟨[], rfl⟩

/-- A run may be gone on with. -/
theorem move {s' : Service} (h : s.IsRunOf s') (m : Move) : s.IsRunOf (s'.move m) := by
  obtain ⟨moves, rfl⟩ := h
  exact ⟨moves ++ [m], (run_concat s moves m).symm⟩

/-- **To come to a standstill** is a run. -/
theorem settle {s' : Service} (h : s.IsRunOf s') : s.IsRunOf s'.settle :=
  @Machine.settle_invariant Service ServiceTask _ (fun _ s' => s.IsRunOf s') machine 0
    (fun task _ h => h.move (.task task)) s' h

/-- **To let time pass is a run.** -/
theorem sleep {s' : Service} (h : s.IsRunOf s') (ms : Nat) : s.IsRunOf (s'.sleep ms) := by
  have hrun := machine.advance_invariant
    (P := fun clock s'' => s''.station.now = clock ∧ s.IsRunOf s'')
    (fun clock task s'' hs => ⟨(step_keeps task s'').2.trans hs.1, hs.2.move (.task task)⟩)
    (fun clock now s'' hle hs => ?_) (Nat.le_add_right s'.station.now ms) ⟨rfl, h⟩
  · exact hrun.2
  · have hpass := hs.2.move (.pass (now - clock))
    have hnow : s''.station.now + (now - clock) = now := by
      have hclock := hs.1
      omega
    unfold Service.move at hpass
    refine ⟨rfl, ?_⟩
    rw [show machine.setClock now s'' = s''.onStation fun st => { st with now } from rfl]
    simpa [onStation, hnow] using hpass

/-- **To make a request and wait for the answer is a run.** -/
theorem call {s' : Service} (h : s.IsRunOf s') (request : Request) :
    s.IsRunOf (s'.call request).2 := by
  have hmet := (h.move (.submit operator request)).settle
  unfold Service.call
  dsimp only
  split
  · exact hmet.move (.collect operator)
  · exact hmet

end IsRunOf

end Service
end Lldp
