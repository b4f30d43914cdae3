/-
# Mailboxes

A bounded queue between tasks.  A sender that finds no room waits, and those who
wait are served first come, first served: an item may be dropped into the box
from outside only if there is room for it beyond what the waiting senders are
entitled to.  A sender that gives up takes its item along.  When the reader goes
away, what lies in the box is lost and nothing can be sent any more.
-/

namespace Lldp

/-- Items of type `α` from senders of type `σ`. -/
structure Mailbox (σ α : Type) where
  capacity : Nat
  /-- What the reader has yet to take, oldest first. -/
  items : List α := []
  /-- Senders without room and what they hold, in the order in which they came. -/
  waiting : List (σ × α) := []
  closed : Bool := false
deriving Repr

/-- How an attempt to send ended. -/
inductive Sending (σ α : Type) where
  /-- There is no reader. -/
  | refused
  /-- The item is in the box. -/
  | sent (box : Mailbox σ α)
  /-- The sender waits for room. -/
  | blocked (box : Mailbox σ α)

namespace Mailbox

variable {σ α : Type} [DecidableEq σ]

/-- An empty box; one without any room would be of no use. -/
def ofCapacity (capacity : Nat) : Mailbox σ α :=
  { capacity := max capacity 1 }

/-- The most room that a box can have. -/
def maxCapacity : Nat := Nat.pow 2 61 - 1

/-- An empty box with just the room that is asked for, if a box can have that. -/
def ofCapacity? (capacity : Nat) : Option (Mailbox σ α) :=
  if 0 < capacity ∧ capacity ≤ maxCapacity then some { capacity } else none

/-- Places that no item takes. -/
def room (b : Mailbox σ α) : Nat := b.capacity - b.items.length

/-- Whether there is room beyond what the waiting senders are entitled to. -/
def hasSpareRoom (b : Mailbox σ α) : Bool := b.waiting.length < b.room

/-- Puts an item into the box. -/
def push (b : Mailbox σ α) (item : α) : Mailbox σ α :=
  { b with items := b.items ++ [item] }

/-- Leaves an item if that can be done at once. -/
def offer (b : Mailbox σ α) (item : α) : Mailbox σ α :=
  if !b.closed && b.hasSpareRoom then b.push item else b

/-- Sends an item, waiting for room if there is none. -/
def send (b : Mailbox σ α) (sender : σ) (item : α) : Sending σ α :=
  if b.closed then .refused
  else if b.hasSpareRoom then .sent (b.push item)
  else .blocked { b with waiting := b.waiting ++ [(sender, item)] }

/-- Whether a waiting sender can end its wait: there is room for all who came
before it and for itself, or no reader any more. -/
def canSettle (b : Mailbox σ α) (sender : σ) : Bool :=
  b.closed || (b.waiting.take b.room).any (·.1 = sender)

/-- A sender gives up. -/
def withdraw (b : Mailbox σ α) (sender : σ) : Mailbox σ α :=
  { b with waiting := b.waiting.filter (·.1 ≠ sender) }

/-- A waiting sender ends its wait: its item goes into the box, unless there is
no reader any more. -/
def settle (b : Mailbox σ α) (sender : σ) : Mailbox σ α :=
  match b.waiting.find? (·.1 = sender) with
  | some (_, item) =>
    if b.closed then b.withdraw sender else (b.withdraw sender).push item
  | none => b

/-- Takes the oldest item. -/
def take? (b : Mailbox σ α) : Option (α × Mailbox σ α) :=
  match b.items with
  | [] => none
  | item :: rest => some (item, { b with items := rest })

/-- The reader goes away. -/
def close (b : Mailbox σ α) : Mailbox σ α :=
  { b with items := [], closed := true }

end Mailbox
end Lldp
