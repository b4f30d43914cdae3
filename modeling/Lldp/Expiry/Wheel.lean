/-
# The wheel that wakes the reader of alarms

The wheel holds a peg for every alarm that has yet to come due, on one of six
rings of 64 slots.  A slot of the innermost ring lasts a millisecond, a slot of
any other ring as long as the ring inside it takes to turn.  A peg that the wheel
reaches drops to the ring inside; from the innermost it drops out.

The wheel is turned only when something on it is to be reached, so the time it
has been turned to may lie far behind the clock.  A peg has a place no more than
`span` milliseconds after that time: to set one beyond breaks the wheel.

Which alarms have gone off does not depend on the wheel.  It tells when to look
at them, and by breaking that there is nobody to do so any more.
-/

namespace Lldp

/-- The place of an alarm on the wheel. -/
structure Peg where
  /-- The key of the alarm. -/
  key : Nat
  deadline : Nat
  /-- The ring, counted from the innermost. -/
  ring : Nat
deriving DecidableEq, Repr

/-- How long a slot of a ring lasts, in milliseconds. -/
def slotLength (ring : Nat) : Nat := Nat.pow 64 ring

/-- When the slot of a peg begins. -/
def Peg.slotStart (p : Peg) : Nat := p.deadline / slotLength p.ring * slotLength p.ring

/-- The pegs, and how far they have been turned. -/
structure Wheel where
  pegs : List Peg := []
  /-- The time that the wheel has been turned to. -/
  reached : Nat := 0
  /-- When it is to be turned next. -/
  wake : Option Nat := none
  /-- A peg was set beyond the wheel. -/
  broken : Bool := false
deriving DecidableEq, Repr

namespace Wheel

/-- How far ahead of the time reached a peg has a place. -/
def span : Nat := Nat.pow 64 6 - 1

/-- The ring for a peg: the outermost on which its slot is another than that of
the time reached. -/
def ringOf (reached deadline : Nat) : Nat :=
  ([5, 4, 3, 2, 1].find? fun ring =>
    reached / slotLength ring ≠ deadline / slotLength ring).getD 0

/-- The peg whose slot begins first; of several, the one farthest out. -/
def first? (w : Wheel) : Option Peg :=
  w.pegs.foldl (fun best p =>
    match best with
    | none => some p
    | some b =>
      if p.slotStart < b.slotStart ∨ (p.slotStart = b.slotStart ∧ b.ring < p.ring) then some p
      else some b) none

/-- When the first slot with a peg begins. -/
def next? (w : Wheel) : Option Nat := w.first?.map Peg.slotStart

/-- Whether an alarm has a peg. -/
def holds (w : Wheel) (key : Nat) : Bool := w.pegs.any (·.key = key)

/-- Takes the peg of an alarm off. -/
def erase (w : Wheel) (key : Nat) : Wheel :=
  { w with pegs := w.pegs.filter (·.key ≠ key) }

/-- Sets a peg.  An alarm that is already due gets none. -/
def put (w : Wheel) (key deadline : Nat) : Wheel :=
  if deadline ≤ w.reached then w
  else if w.reached + span < deadline then { w with broken := true }
  else { w with pegs := w.pegs ++ [⟨key, deadline, ringOf w.reached deadline⟩] }

/-- A new alarm is set: the wheel is to be turned at its deadline, unless that is
to be done before. -/
def arm (w : Wheel) (key deadline : Nat) : Wheel :=
  let due := max w.reached deadline
  { w.put key deadline with
    wake := if w.wake.all fun wake => due < max w.reached wake then some due else w.wake }

/-- An alarm gets another deadline: the wheel is to be turned when its first slot
begins. -/
def move (w : Wheel) (key deadline : Nat) : Wheel :=
  let moved := (w.erase key).put key deadline
  { moved with wake := if w.wake.isSome && moved.next?.isSome then moved.next? else w.wake }

/-- An alarm is taken away. -/
def remove (w : Wheel) (key : Nat) : Wheel :=
  let rest := w.erase key
  { rest with wake := if rest.next? ≠ w.next? then rest.next? else w.wake }

/-- Does one thing of those to be done by `time`: lets the first peg drop a ring
or out, or finds that none is to. -/
def turnOnce (w : Wheel) (time : Nat) : Wheel :=
  match w.first? with
  | none => { w with reached := max w.reached time, wake := none }
  | some p =>
    if time < p.slotStart then { w with reached := max w.reached time, wake := some p.slotStart }
    else if p.ring = 0 then
      let rest := w.erase p.key
      { rest with wake := rest.next? }
    else
      { w.erase p.key with
        pegs := { p with ring := p.ring - 1 } :: (w.erase p.key).pegs
        reached := max w.reached p.slotStart }

/-- Turns the wheel by at most `count` things to be done by `now`. -/
def turnUpTo (now : Nat) : Nat → Wheel → Wheel
  | 0, w => w
  | count + 1, w =>
    match w.wake.or w.next? with
    | none => w
    | some time =>
      if time ≤ now then turnUpTo now count ({ w with wake := some time }.turnOnce time)
      else { w with wake := some time }

/-- Turns the wheel as far as it is to be turned by `now`.  Every peg drops at
most six times, and before each drop the wheel is at most once found to have
nothing to do. -/
def turn (w : Wheel) (now : Nat) : Wheel :=
  turnUpTo now (12 * w.pegs.length + 2) w

end Wheel
end Lldp
