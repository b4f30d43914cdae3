/-
# Running tasks to a standstill

A machine has a state, tasks that can each make a step when they are able to,
and timers.  This module runs one to the point where no task is able to do
anything, and lets time pass from timer to timer.

A task that is able to go on goes on; the others are served in the order in
which they became able.  Of tasks that become able by the same step, those
listed first by `able` come first.  Steps cost effort, and a task that has gone
on for so long that its next step would exceed its allowance rests: it is served
again when all others have come to a standstill, the last to rest before the
first, and with a new allowance.

Every run here is one of the many orders in which the steps could be taken;
nothing in the steps themselves knows of it.
-/

namespace Lldp

/-- States `σ` and tasks `τ`. -/
structure Machine (σ τ : Type) where
  /-- The tasks that can make a step. -/
  able : σ → List τ
  /-- The step of a task. -/
  step : τ → σ → σ
  /-- What the step of a task costs, one at the most. -/
  effort : τ → σ → Nat
  /-- More than the number of steps until no task is able to make one. -/
  workload : σ → Nat
  /-- The times at which something becomes able. -/
  timers : σ → List Nat
  /-- The same state at another time. -/
  setClock : Nat → σ → σ

namespace Machine

variable {σ τ : Type} [DecidableEq τ]

/-- What the steps of a task may cost before it rests. -/
def allowance : Nat := 128

/-- The tasks that wait to be served: those in the queue that are still able, in
order, and then those that are newly able.  A resting task does not wait. -/
def waiting (able queue resting : List τ) : List τ :=
  queue.filter (able.contains ·) ++
    able.filter fun task => !queue.contains task && !resting.contains task

/-- Makes at most `fuel` steps and rests.  `queue` holds the tasks that were
found able so far, in the order in which they were; the first of them has `left`
of its allowance.  `resting` holds those that rest, the last to do so first. -/
def serve (m : Machine σ τ) : Nat → Nat → List τ → List τ → σ → σ
  | 0, _, _, _, s => s
  | fuel + 1, left, queue, resting, s =>
    let able := m.able s
    match waiting able queue resting with
    | [] =>
      match resting.filter (able.contains ·) with
      | [] => s
      | rested => m.serve fuel allowance rested [] s
    | task :: rest =>
      let left := if queue.head? = some task then left else allowance
      if m.effort task s ≤ left then
        m.serve fuel (left - m.effort task s) (task :: rest) resting (m.step task s)
      else m.serve fuel allowance rest (task :: resting) s

/-- Runs until no task is able to make a step.  A task rests only after many
steps, so there are fewer rests than steps. -/
def settle (m : Machine σ τ) (s : σ) : σ :=
  m.serve (2 * m.workload s) allowance [] [] s

/-- The earliest of the times later than `clock`. -/
def earliest? (clock : Nat) (times : List Nat) : Option Nat :=
  (times.filter (clock < ·)).min?

/-- Lets time pass from `clock` to `target`, stopping at every timer on the way
to run what it makes able. -/
def advance (m : Machine σ τ) (clock target : Nat) (s : σ) : σ :=
  match earliest? clock (m.timers s) with
  | some due =>
    if clock < due ∧ due ≤ target then
      m.advance due target (m.settle (m.setClock due s))
    else m.setClock target s
  | none => m.setClock target s
termination_by target - clock

/-- Lets time pass until `count` timers have gone off or none is left, and gives
the time reached. -/
def runOut (m : Machine σ τ) : Nat → Nat → σ → Nat × σ
  | 0, clock, s => (clock, s)
  | count + 1, clock, s =>
    match earliest? clock (m.timers s) with
    | some due => m.runOut count due (m.settle (m.setClock due s))
    | none => (clock, s)

end Machine
end Lldp
