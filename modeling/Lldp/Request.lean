/-
# Requests

What clients may ask of a running station, and what they are told.
-/

import Lldp.Registry

namespace Lldp

/-- A request of a client. -/
inductive Request where
  | add (port : Port)
  | remove (ifIndex : IfIndex)
  | reportLink (ifIndex : IfIndex) (state : LinkState)
  | neighbors (start count : Nat)
  | counters (ifIndex : IfIndex)
  | apply (change : Change)
deriving DecidableEq, Repr

/-- What a request comes to. -/
inductive Reply where
  | done (result : Except Error Unit)
  | page (page : NeighborPage)
  | counted (result : Except Error Counters)

/-- What a client gets: a reply, or the news that there is nobody to give
one. -/
abbrev Answer := Except Error Reply

/-- A reply that says no more than whether a request was met. -/
def Answer.result : Answer → Except Error Unit
  | .error e => .error e
  | .ok (.done result) => result
  | .ok _ => .ok ()

/-- A reply that holds a page. -/
def Answer.page : Answer → Except Error NeighborPage
  | .error e => .error e
  | .ok (.page page) => .ok page
  | .ok _ => .ok {}

/-- A reply that holds what was counted. -/
def Answer.counters : Answer → Except Error Counters
  | .error e => .error e
  | .ok (.counted result) => result
  | .ok _ => .ok {}

/-- Does what is asked. -/
def Registry.execute (request : Request) (r : Registry) : Reply × Registry :=
  match request with
  | .add port => let done := r.add port; (.done done.1, done.2)
  | .remove i => let done := r.remove i; (.done done.1, done.2)
  | .reportLink i state => let done := r.reportLink i state; (.done done.1, done.2)
  | .neighbors start count => (.page (r.neighbors start count), r)
  | .counters i => (.counted (r.counters i), r)
  | .apply change => let done := r.apply change; (.done done.1, done.2)

end Lldp
