/-
# The link-state controller

Turns notifications of link states into requests.  Only a state that was applied
is remembered, so a port whose interface could not be opened is not taken for
up, and the next notification tries again.  A notification that says what is
remembered anyway is passed on like any other.
-/

import Lldp.Port

namespace Lldp

/-- News of a link, as it arrives. -/
structure Notification where
  ifIndex : IfIndex
  state : String
deriving DecidableEq, Repr

/-- The states that were applied. -/
structure LinkController where
  states : List (IfIndex × LinkState) := []
deriving DecidableEq, Repr

namespace LinkController

/-- The state applied last to a port. -/
def state? (c : LinkController) (i : IfIndex) : Option LinkState :=
  c.states.lookup i

/-- Remembers a state that was applied. -/
def record (c : LinkController) (i : IfIndex) (state : LinkState) : LinkController :=
  { states := (i, state) :: c.states.filter (·.1 ≠ i) }

/-- What a notification asks for. -/
def interpret (n : Notification) : Except Error (IfIndex × LinkState) :=
  match LinkState.parse n.state with
  | .error e => .error e
  | .ok state => .ok (n.ifIndex, state)

/-- Takes the outcome of a request to heart. -/
def conclude (c : LinkController) (i : IfIndex) (state : LinkState)
    (outcome : Except Error Unit) : LinkController :=
  match outcome with
  | .ok () => c.record i state
  | .error _ => c

end LinkController
end Lldp
