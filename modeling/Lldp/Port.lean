/-
# Ports

What a station knows of a physical port before any frame has passed, the state
of its link, and what is counted on it afterwards.
-/

import Lldp.Error

namespace Lldp

/-- The stable number of an interface. -/
abbrev IfIndex := Int

/-- Whether the link of a port carries traffic. -/
inductive LinkState where
  | down
  | up
deriving DecidableEq, Repr

namespace LinkState

/-- The word that notifications use. -/
def text : LinkState → String
  | down => "DOWN"
  | up => "UP"

/-- Reads a notification's word, in any letter case. -/
def parse (s : String) : Except Error LinkState :=
  let word := s.toList.map Char.toLower
  if word = ['u', 'p'] then .ok up
  else if word = ['d', 'o', 'w', 'n'] then .ok down
  else .error (.linkStateText s)

end LinkState

/-- A physical port.  Its name is what it calls itself to the neighbour, and its
address is what the station calls itself there. -/
structure Port where
  ifIndex : IfIndex
  number : Nat
  name : String
  mac : Mac
deriving DecidableEq, Repr

/-- What happened on a port since it was registered. -/
structure Counters where
  /-- Frames taken in. -/
  received : Nat := 0
  /-- Packets refused. -/
  discarded : Nat := 0
  /-- Frames written. -/
  sent : Nat := 0
  /-- Frames that could not be built or written. -/
  sendFailures : Nat := 0
  /-- Neighbours forgotten for their silence. -/
  ageouts : Nat := 0
deriving DecidableEq, Repr

end Lldp
