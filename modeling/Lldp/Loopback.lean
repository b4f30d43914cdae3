/-
# Loopback links

Captures without a network.  A link is known by the name of its interface; what
is injected on it is read through handles in the order of injection, and what is
written through handles is recorded.  Links come into being when they are first
used, and any number of handles may share one.

Reads of one link take turns, first come, first served, across its handles.  A
read's patience begins to run only when its turn has come, and a frame that is
there counts for more than patience that has run out.  A closed handle is
refused before it queues for a turn; one closed later still has its turn.
-/

import Lldp.Error
import Lldp.Octets

namespace Lldp

/-- A read that has queued for its turn. -/
structure Reader where
  /-- Tells the read from others. -/
  ticket : Nat
  /-- How long it will wait, in milliseconds, once its turn has come. -/
  patience : Nat
  /-- When its patience runs out, if its turn has come. -/
  deadline : Option Nat := none
deriving DecidableEq, Repr

/-- How a turn ended. -/
inductive ReadOutcome where
  /-- A frame was there. -/
  | frame (bytes : Octets)
  /-- Patience ran out. -/
  | nothing
  /-- Nothing can come any more. -/
  | gone
deriving DecidableEq, Repr

/-- A link and what has happened on it. -/
structure Link where
  name : String
  /-- Frames injected and not yet read, oldest first. -/
  unread : List Octets := []
  /-- Frames written, oldest first. -/
  sent : List Octets := []
  failWrites : Bool := false
  /-- The filter of the handle opened last. -/
  filter : Option String := none
  /-- How many handles were opened. -/
  opens : Nat := 0
  /-- The link is cut off: no name leads to it any more. -/
  gone : Bool := false
  /-- The reads that queue; the first has its turn. -/
  readers : List Reader := []
deriving DecidableEq, Repr

namespace Link

/-- Whether the read whose turn it is has something to do. -/
def canServe (l : Link) (now : Nat) : Bool :=
  match l.readers with
  | [] => false
  | r :: _ => !l.unread.isEmpty || l.gone || r.deadline.all (· ≤ now)

/-- Goes on with the read whose turn it is.  If that ends its turn, gives its
ticket and how it ended. -/
def serve (l : Link) (now : Nat) : Option (Nat × ReadOutcome) × Link :=
  match l.readers with
  | [] => (none, l)
  | r :: rest =>
    match l.unread with
    | bytes :: more => (some (r.ticket, .frame bytes), { l with unread := more, readers := rest })
    | [] =>
      if l.gone then (some (r.ticket, .gone), { l with readers := rest })
      else
        let deadline := r.deadline.getD (now + r.patience)
        if deadline ≤ now then (some (r.ticket, .nothing), { l with readers := rest })
        else (none, { l with readers := { r with deadline := some deadline } :: rest })

end Link

/-- Access to a link. -/
structure Handle where
  /-- The position of the link. -/
  link : Nat
  interface : String
  /-- The patience of its reads, in milliseconds. -/
  patience : Nat
  closed : Bool := false
deriving DecidableEq, Repr

/-- All links and handles there ever were. -/
structure Loopback where
  links : List Link := []
  handles : List Handle := []
  /-- Interfaces that cannot be opened. -/
  failingOpens : List String := []
deriving DecidableEq, Repr

namespace Loopback

/-- The position of the link that a name leads to. -/
def find? (lo : Loopback) (name : String) : Option Nat :=
  lo.links.findIdx? fun l => l.name = name && !l.gone

/-- The link that a name leads to. -/
def link? (lo : Loopback) (name : String) : Option Link :=
  lo.links.find? fun l => l.name = name && !l.gone

/-- Changes the link that a name leads to; if there is none, a new one. -/
def onLink (lo : Loopback) (name : String) (change : Link → Link) : Nat × Loopback :=
  match lo.find? name with
  | some i => (i, { lo with links := lo.links.modify i change })
  | none => (lo.links.length, { lo with links := lo.links ++ [change { name }] })

/-- Frames arrive on a link. -/
def inject (lo : Loopback) (name : String) (frames : List Octets) : Loopback :=
  (lo.onLink name fun l => { l with unread := l.unread ++ frames }).2

/-- What was written on a link. -/
def sent (lo : Loopback) (name : String) : List Octets :=
  match lo.link? name with
  | some l => l.sent
  | none => []

/-- How many handles were opened on a link. -/
def opens (lo : Loopback) (name : String) : Nat :=
  match lo.link? name with
  | some l => l.opens
  | none => 0

/-- The filter of the handle opened last on a link. -/
def filter (lo : Loopback) (name : String) : Option String :=
  (lo.link? name).bind Link.filter

/-- Whether an interface cannot be opened. -/
def setFailOpen (lo : Loopback) (name : String) (fail : Bool) : Loopback :=
  let others := lo.failingOpens.filter (· ≠ name)
  { lo with failingOpens := if fail then name :: others else others }

/-- Whether writes on a link fail. -/
def setFailWrite (lo : Loopback) (name : String) (fail : Bool) : Loopback :=
  (lo.onLink name fun l => { l with failWrites := fail }).2

/-- Opens a handle and gives its number. -/
def openHandle (lo : Loopback) (name : String) (patience : Nat) (filter : String) :
    Except Error (Nat × Loopback) :=
  if name ∈ lo.failingOpens then .error (.openFailed name)
  else
    let (link, lo) := lo.onLink name fun l =>
      { l with opens := l.opens + 1, filter := some filter }
    .ok (lo.handles.length,
      { lo with handles := lo.handles ++ [{ link, interface := name, patience }] })

/-- Closes a handle.  Closing it again changes nothing. -/
def close (lo : Loopback) (handle : Nat) : Loopback :=
  { lo with handles := lo.handles.modify handle fun h => { h with closed := true } }

/-- An open handle with its link.  There is no such handle as one never opened;
it counts as closed. -/
def access (lo : Loopback) (handle : Nat) : Except Error (Handle × Link) :=
  match lo.handles[handle]? with
  | none => .error (.captureClosed "")
  | some h =>
    if h.closed then .error (.captureClosed h.interface)
    else
      match lo.links[h.link]? with
      | none => .error (.linkGone h.interface)
      | some l => .ok (h, l)

/-- Writes a frame. -/
def write (lo : Loopback) (handle : Nat) (bytes : Octets) : Except Error Loopback :=
  match lo.access handle with
  | .error e => .error e
  | .ok (h, l) =>
    if l.failWrites then .error (.writeFailed h.interface)
    else
      .ok { lo with links := lo.links.modify h.link fun l => { l with sent := l.sent ++ [bytes] } }

/-- Queues a read for its turn, whether or not the handle is open. -/
def queueReader (lo : Loopback) (handle ticket : Nat) : Loopback :=
  match lo.handles[handle]? with
  | none => lo
  | some h =>
    { lo with links := lo.links.modify h.link fun l =>
      { l with readers := l.readers ++ [{ ticket, patience := h.patience }] } }

/-- Queues a read for its turn if the handle is open. -/
def queueRead (lo : Loopback) (handle ticket : Nat) : Except Error Loopback :=
  (lo.access handle).map fun _ => lo.queueReader handle ticket

/-- Whether the read whose turn it is on a link has something to do. -/
def canServe (lo : Loopback) (link now : Nat) : Bool :=
  lo.links[link]?.any (·.canServe now)

/-- Goes on with the read whose turn it is on a link. -/
def serve (lo : Loopback) (link now : Nat) : Option (Nat × ReadOutcome) × Loopback :=
  match lo.links[link]? with
  | none => (none, lo)
  | some l =>
    let done := l.serve now
    (done.1, { lo with links := lo.links.set link done.2 })

/-- The ticket of the read whose turn it is on a link. -/
def turn? (lo : Loopback) (link : Nat) : Option Nat :=
  (lo.links[link]?.bind (·.readers.head?)).map Reader.ticket

/-- When patience runs out on any link. -/
def deadlines (lo : Loopback) : List Nat :=
  lo.links.filterMap fun l => l.readers.head?.bind Reader.deadline

/-- Cuts every link off.  Handles still reach what they were opened on. -/
def detach (lo : Loopback) : Loopback :=
  { lo with links := lo.links.map fun l => { l with gone := true }, failingOpens := [] }

end Loopback
end Lldp
