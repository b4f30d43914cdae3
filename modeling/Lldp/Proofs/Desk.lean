/-
# Where requests are handed in

A request passes from the client that makes it to the mailbox, once there is room, and from
there to the dispatcher, which does what is asked and answers at once.  What passes between
clients and the service in a move is said by `Service.said`.

What moves do to the mailbox and the clients is said once (`Service.Deals`): a client asks,
comes to have room or takes its answer, the dispatcher meets the request that comes first,
or there is no dispatcher any more; everything else leaves requests alone
(`Service.deals_move`).
-/

import Lldp.Proofs.InFlight
import Lldp.Proofs.Run

namespace Lldp

/-- What passes between a client and a service. -/
inductive Word where
  /-- The client makes a request. -/
  | asks (request : Request)
  /-- The dispatcher does what the client asked, and this comes of it. -/
  | met (request : Request) (reply : Reply)
  /-- The client takes its answer. -/
  | told (answer : Answer)

/-- What a client is told when there is nobody to answer: its request had entered the
mailbox or not. -/
def closedError (entered : Bool) : Error := if entered then .replyDropped else .commandsClosed

namespace Service

/-! ### What is said -/

/-- The answer that a client has yet to take. -/
def answer? (s : Service) (k : Nat) : Option Answer :=
  match s.client k with
  | .answered answer => some answer
  | _ => none

/-- The request that the dispatcher meets next, with its client. -/
def serves? (s : Service) : Option (Nat × Request) :=
  if s.running && !s.exiting then s.commands.items.head? else none

/-- The request that the link-state controller makes next. -/
def notified? (s : Service) : Option Request :=
  if s.watch.alive && !s.watch.exiting then
    s.watch.notices.items.head?.bind fun notice =>
      (LinkController.interpret notice).toOption.map fun x => .reportLink x.1 x.2
  else none

/-- What passes in a move between a client and the service. -/
def said (s : Service) : Move → List (Nat × Word)
  | .submit k q => [(k, .asks q)]
  | .collect k => (s.answer? k).toList.map fun answer => (k, .told answer)
  | .task .dispatcher =>
    s.serves?.toList.map fun x => (x.1, .met x.2 (s.station.registry.execute x.2).1)
  | .task .watch =>
    match s.watch.pending with
    | none => s.notified?.toList.map fun q => (watcher, .asks q)
    | some _ =>
      if s.watch.alive then (s.answer? watcher).toList.map fun answer => (watcher, .told answer)
      else []
  | _ => []

/-- Whether a move is one that clients make in their turn: who has no request under way may
ask, and who has been answered may take the answer.  The controller's task acts for the
client that it is. -/
def Admits (s : Service) : Move → Prop
  | .submit k _ => k ≠ watcher ∧ k < s.clients.length ∧ s.client k = .idle
  | .collect k => k ≠ watcher ∧ (s.answer? k).isSome = true
  | _ => True

/-! ### What moves do to requests -/

/-- The mailbox and the clients are the same, and there is a dispatcher or not as before. -/
structure SameDesk (s s' : Service) : Prop where
  commands : s'.commands = s.commands
  clients : s'.clients = s.clients
  running : s'.running = s.running

section

variable {s s' : Service} {m : Move} {k : Nat} {q : Request}

/-- Where nothing happens, requests lie where they lay. -/
theorem SameDesk.refl (s : Service) : s.SameDesk s := ⟨rfl, rfl, rfl⟩

/-- At the same desk, every client stands where it stood. -/
theorem SameDesk.client (h : s.SameDesk s') (k : Nat) : s'.client k = s.client k := by
  unfold Service.client
  rw [h.clients]

end

/-- **What a move may do to the mailbox and the clients**, and what is said by it. -/
inductive Deals (s : Service) : List (Nat × Word) → Service → Prop where
  | rests {s' : Service} (h : s.SameDesk s') : Deals s [] s'
  /-- A client asks. -/
  | asks {s' : Service} {k : Nat} {q : Request} (hk : k < s.clients.length)
      (hidle : s.client k = .idle) (h : (s.submit k q).SameDesk s') : Deals s [(k, .asks q)] s'
  /-- A client that waited for room need wait no more. -/
  | enters {s' : Service} {k : Nat} (hready : s.clientReady k = true)
      (h : (s.clientStep k).SameDesk s') : Deals s [] s'
  /-- The dispatcher meets the request that comes first. -/
  | meets {s' : Service} {k : Nat} {q : Request} {commands : Mailbox Nat (Nat × Request)}
      {reply : Reply} (hrunning : s.running = true)
      (htake : s.commands.take? = some ((k, q), commands))
      (h : ({ s with commands }.setClient k (.answered (.ok reply))).SameDesk s') :
      Deals s [(k, .met q reply)] s'
  /-- A client takes its answer. -/
  | tells {s' : Service} {k : Nat} {answer : Answer} (hanswer : s.client k = .answered answer)
      (h : (s.setClient k .idle).SameDesk s') : Deals s [(k, .told answer)] s'
  /-- There is no dispatcher any more. -/
  | vacates {s' : Service} (hrunning : s.running = true) (h : s.vacate.SameDesk s') :
      Deals s [] s'

variable {s s' : Service} {m : Move} {k : Nat} {q : Request}

/-- The answer that a client can take is the one that it was given. -/
theorem answer?_eq_some_iff {answer : Answer} :
    s.answer? k = some answer ↔ s.client k = .answered answer := by
  unfold answer?
  split <;> simp_all

/-- A dispatcher that serves no request leaves requests alone or ends. -/
theorem deals_dispatch_of_none (hrunning : s.running = true)
    (h : s.exiting = true ∨ s.commands.items = []) : s.Deals [] s.dispatch := by
  unfold dispatch
  by_cases hexit : s.exiting = true
  · rw [if_pos hexit]
    exact .vacates hrunning ⟨rfl, rfl, rfl⟩
  · rw [if_neg hexit]
    have hempty : s.commands.take? = none := by
      unfold Mailbox.take?
      rw [h.resolve_left hexit]
    rw [hempty]
    dsimp only
    cases s.station.inbound.take? with
    | some item =>
      dsimp only [deliver]
      split_ifs
      · exact .vacates hrunning ⟨rfl, rfl, rfl⟩
      · exact .rests ⟨rfl, rfl, rfl⟩
    | none =>
      cases s.station.registry.triggers.take? with
      | some item => exact .rests ⟨rfl, rfl, rfl⟩
      | none =>
        dsimp only
        cases s.station.registry.expireNext? s.station.now <;> exact .rests ⟨rfl, rfl, rfl⟩

/-- The dispatcher meets the request that comes first, unless it has ended or is about to. -/
theorem serves?_eq_some_iff {x : Nat × Request} :
    s.serves? = some x ↔ s.running = true ∧ s.exiting = false ∧
      ∃ commands, s.commands.take? = some (x, commands) := by
  unfold serves? Mailbox.take?
  cases s.running <;> cases s.exiting <;> cases s.commands.items <;> simp

/-- The dispatcher meets the request that comes first. -/
theorem dispatch_of_take? {commands : Mailbox Nat (Nat × Request)} (hexit : s.exiting = false)
    (htake : s.commands.take? = some ((k, q), commands)) :
    s.dispatch = { s with commands }.executeNext k q := by
  unfold dispatch
  rw [if_neg (by simp [hexit]), htake]

/-- **The dispatcher** meets a request, ends, or leaves requests alone. -/
theorem deals_dispatcher : s.Deals (s.said (.task .dispatcher)) (s.step .dispatcher) := by
  have hstep : s.step .dispatcher = if s.dispatcherReady then s.dispatch else s := rfl
  rw [hstep]
  cases hserves : s.serves? with
  | some x =>
    obtain ⟨k, q⟩ := x
    obtain ⟨hrunning, hexit, commands, htake⟩ := serves?_eq_some_iff.1 hserves
    have hitems := (Mailbox.of_take?_eq_some htake).1
    have hready : s.dispatcherReady = true := by simp [dispatcherReady, hrunning, hitems]
    rw [if_pos hready, dispatch_of_take? hexit htake, said, hserves]
    exact .meets hrunning htake ⟨rfl, rfl, rfl⟩
  | none =>
    rw [said, hserves]
    show s.Deals [] _
    split_ifs with hready
    · have hrunning : s.running = true := running_of_dispatcherReady hready
      refine deals_dispatch_of_none hrunning ?_
      by_contra hnot
      obtain ⟨hexit, hne⟩ := not_or.1 hnot
      obtain ⟨x, rest, hitems⟩ := List.exists_cons_of_ne_nil hne
      simp [serves?, hrunning, hexit, hitems] at hserves
    · exact .rests (.refl s)

/-- The controller has no request under way while the client that it is has none. -/
theorem deals_watch (hknown : watcher < s.clients.length)
    (hidle : s.watch.pending = none → s.client watcher = .idle) :
    s.Deals (s.said (.task .watch)) (s.step .watch) := by
  have hstep : s.step .watch = if s.watchReady then s.watchStep else s := rfl
  rw [hstep]
  cases hpending : s.watch.pending with
  | some report =>
    cases hanswer : s.client watcher with
    | answered answer =>
      cases halive : s.watch.alive with
      | true =>
        have hready : s.watchReady = true := by simp [watchReady, halive, hpending, hanswer]
        rw [if_pos hready]
        simp only [said, hpending, halive, answer?, hanswer, watchStep]
        exact .tells hanswer ⟨rfl, rfl, rfl⟩
      | false =>
        have hready : s.watchReady = false := by simp [watchReady, halive]
        simp only [said, hpending, halive, hready]
        exact .rests (.refl s)
    | _ =>
      have hready : s.watchReady = false := by simp [watchReady, hpending, hanswer]
      simp only [said, hpending, hready, answer?, hanswer, Option.toList_none, List.map_nil,
        ite_self]
      exact .rests (.refl s)
  | none =>
    simp only [said, hpending]
    by_cases hon : s.watch.alive = true ∧ s.watch.exiting = false
    · obtain ⟨halive, hexiting⟩ := hon
      cases hitems : s.watch.notices.items with
      | nil =>
        have hnone : s.notified? = none := by simp [notified?, hitems]
        simp only [hnone, Option.toList_none, List.map_nil]
        split_ifs
        · simp only [watchStep, hpending, hexiting, Mailbox.take?, hitems]
          split_ifs <;> exact .rests ⟨rfl, rfl, rfl⟩
        · exact .rests (.refl s)
      | cons notice rest =>
        have hready : s.watchReady = true := by simp [watchReady, halive, hpending, hitems]
        rw [if_pos hready]
        cases hinterpret : LinkController.interpret notice with
        | error e =>
          simp only [notified?, halive, hexiting, hitems, List.head?_cons, Option.bind_some,
            hinterpret, watchStep, hpending, Mailbox.take?]
          exact .rests ⟨rfl, rfl, rfl⟩
        | ok report =>
          simp only [notified?, halive, hexiting, hitems, List.head?_cons, Option.bind_some,
            hinterpret, watchStep, hpending, Mailbox.take?]
          refine .asks hknown (hidle hpending) ?_
          unfold submit
          dsimp only
          cases s.commands.send watcher (watcher, .reportLink report.1 report.2) <;>
            exact ⟨rfl, rfl, rfl⟩
    · have hnone : s.notified? = none := by
        unfold notified?
        rw [if_neg]
        simpa using hon
      simp only [hnone, Option.toList_none, List.map_nil]
      split_ifs with hready
      · have hexiting : s.watch.exiting = true := by
          have halive : s.watch.alive = true := by
            unfold watchReady at hready
            exact (Bool.and_eq_true _ _ ▸ hready).1
          by_contra hne
          exact hon ⟨halive, by simpa using hne⟩
        simp only [watchStep, hpending, hexiting]
        exact .rests ⟨rfl, rfl, rfl⟩
      · exact .rests (.refl s)

/-- **What each move does to requests.** -/
theorem deals_move (hknown : watcher < s.clients.length)
    (hidle : s.watch.pending = none → s.client watcher = .idle) (hadmits : s.Admits m) :
    s.Deals (s.said m) (s.move m) := by
  cases m with
  | task task =>
    cases task with
    | dispatcher => exact deals_dispatcher
    | client k =>
      show s.Deals [] (if s.clientReady k then s.clientStep k else s)
      split_ifs with hready
      · exact .enters hready (.refl _)
      · exact .rests (.refl s)
    | watch => exact deals_watch hknown hidle
    | station task => exact .rests ⟨rfl, rfl, rfl⟩
  | submit k q => exact .asks hadmits.2.1 hadmits.2.2 (.refl _)
  | collect k =>
    obtain ⟨answer, hanswer⟩ := Option.isSome_iff_exists.1 hadmits.2
    rw [said, hanswer]
    exact .tells (answer?_eq_some_iff.1 hanswer) (.refl _)
  | post notice =>
    refine .rests ?_
    show s.SameDesk (s.post notice).2
    unfold post
    split_ifs <;> exact ⟨rfl, rfl, rfl⟩
  | close => exact .rests ⟨rfl, rfl, rfl⟩
  | links change => exact .rests ⟨rfl, rfl, rfl⟩
  | pass ms => exact .rests ⟨rfl, rfl, rfl⟩
  | exit => exact .rests ⟨rfl, rfl, rfl⟩

end Service
end Lldp
