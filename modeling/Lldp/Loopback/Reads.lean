/-
# Reads that run together

Any number of reads started at one moment, and the clock run on until the last
of them has ended.
-/

import Lldp.Loopback
import Lldp.Machine

namespace Lldp

/-- What a read gave: a frame, or nothing for want of patience, or an error. -/
abbrev ReadResult := Except Error (Option Octets)

/-- How a read through a handle on `interface` shows a turn's end. -/
def ReadOutcome.result (interface : String) : ReadOutcome → ReadResult
  | .frame bytes => .ok (some bytes)
  | .nothing => .ok none
  | .gone => .error (.linkGone interface)

/-- Links on a clock, and the reads that have ended: ticket, end and time. -/
structure ReadRun where
  loopback : Loopback
  now : Nat
  ended : List (Nat × ReadOutcome × Nat) := []

namespace ReadRun

/-- Goes on with the read whose turn it is on a link. -/
def serve (run : ReadRun) (link : Nat) : ReadRun :=
  let done := run.loopback.serve link run.now
  { run with
    loopback := done.2
    ended := run.ended ++ (done.1.toList.map fun e => (e.1, e.2, run.now)) }

/-- Every link is a task: it goes on with the read whose turn it is. -/
def machine : Machine ReadRun Nat where
  able run := (List.range run.loopback.links.length).filter (run.loopback.canServe · run.now)
  step link run := run.serve link
  effort _ _ := 0
  workload run := 2 * (run.loopback.links.flatMap (·.readers)).length + 1
  timers run := run.loopback.deadlines
  setClock now run := { run with now }

end ReadRun

namespace Loopback

/-- Starts a read on every handle, in order; a refused one is over at once.
Gives the refusals by ticket. -/
def startReads (lo : Loopback) : Nat → List Nat → List (Nat × Error) × Loopback
  | _, [] => ([], lo)
  | ticket, handle :: rest =>
    match lo.queueRead handle ticket with
    | .error e =>
      let more := startReads lo (ticket + 1) rest
      ((ticket, e) :: more.1, more.2)
    | .ok lo => startReads lo (ticket + 1) rest

/-- Reads all handles together, beginning at `now`.  Gives for each, in the
order given, what was read and when; then the time and the links at the end. -/
def readAll (lo : Loopback) (now : Nat) (handles : List Nat) :
    List (ReadResult × Nat) × Nat × Loopback :=
  let (refused, started) := lo.startReads 0 handles
  let first := ReadRun.machine.settle { loopback := started, now }
  let (finish, last) := ReadRun.machine.runOut handles.length now first
  let results := handles.zipIdx.map fun (handle, ticket) =>
    match refused.lookup ticket with
    | some e => (.error e, now)
    | none =>
      match last.ended.lookup ticket with
      | some (outcome, time) =>
        (outcome.result ((lo.handles[handle]?.map Handle.interface).getD ""), time)
      | none => (.ok none, finish)
  (results, finish, last.loopback)

end Loopback
end Lldp
