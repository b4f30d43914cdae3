/-
# Requests and their answers

Any number of clients make requests of a running service, each waiting for its answer before
it makes the next.  A run is told by what passes between clients and the service
(`Service.journal`), by what enters the mailbox (`Service.entries`), and by what happens to
the station (`Service.deeds`): the dispatcher meets a request, or something else is done
that has nothing to do with requests.

What a client hears falls into whole exchanges (`Exchange`), each of which is met once and
told what came of it, or is not met and told that there is nobody to do so.  The requests
that are met are met in the order in which they entered the mailbox, and the station is what
comes of them and of the deeds in between: the run can be done over without clients and
mailbox (`Service.bare_run`).  So a request that is not met has no effect.  All this is put
together in `Service.answers_truthful`; what one move does is `Service.deals_move`.
-/

import Lldp.Proofs.Desk.Standing

namespace Lldp

/-- What happens to a station in a move. -/
inductive Deed where
  /-- The dispatcher meets a request. -/
  | meets (request : Request)
  /-- Anything else. -/
  | other (move : Move)

/-- The request that is met. -/
def Deed.request? : Deed → Option Request
  | .meets q => some q
  | .other _ => none

/-- The request that is met, if one is. -/
def Word.met? : Word → Option Request
  | .met q _ => some q
  | _ => none

/-- The requests that are met, with their clients. -/
def metIn (words : List (Nat × Word)) : List (Nat × Request) :=
  words.filterMap fun w => w.2.met?.map (w.1, ·)

theorem metIn_append (early late : List (Nat × Word)) :
    metIn (early ++ late) = metIn early ++ metIn late :=
  List.filterMap_append

theorem kind_closedError (entered : Bool) : (closedError entered).kind = .channelClosed := by
  cases entered <;> rfl

namespace Service

variable {s s' : Service} {m : Move} {moves early late : List Move} {k : Nat} {q : Request}
  {ws : List (Nat × Word)} {so : List Word}

/-- A service with clients beside its operator and the link-state controller. -/
def withClients (settings : Settings) (others : Nat) : Service :=
  { ofSettings settings with clients := List.replicate (others + 2) .idle }

/-- Clients keep to their turns all along a run. -/
def Courteous : Service → List Move → Prop
  | _, [] => True
  | s, m :: moves => s.Admits m ∧ (s.move m).Courteous moves

/-- What passes between clients and the service in a run. -/
def journal (s : Service) (moves : List Move) : List (Nat × Word) :=
  Trace.outputs move said s moves

/-- The requests that a move puts in the mailbox. -/
def entered (s : Service) (m : Move) : List (Nat × Request) :=
  (s.move m).commands.items.drop s.commands.items.length

/-- The requests that a run puts in the mailbox, in their order. -/
def entries (s : Service) (moves : List Move) : List (Nat × Request) :=
  Trace.outputs move entered s moves

/-- A service without clients, controller and mailbox. -/
def bare (s : Service) : Service :=
  { station := s.station, running := s.running, exiting := s.exiting
    commands := { capacity := 0 }, clients := [] }

/-- What a move is to the station. -/
def deed (s : Service) : Move → Deed
  | .task .dispatcher => s.serves?.elim (.other (.task .dispatcher)) fun x => .meets x.2
  | m => .other m

/-- What a run is to the station. -/
def deeds (s : Service) (moves : List Move) : List Deed :=
  Trace.outputs move (fun s m => [s.deed m]) s moves

/-- A service without clients after a deed. -/
def undergo (s : Service) : Deed → Service
  | .meets q => s.onRegistry fun r => (r.execute q).2
  | .other m => (s.move m).bare

/-! ### One move -/

theorem running_deals (h : s.Deals ws s') (hoff : s.running = false) :
    s'.running = false ∧ metIn ws = [] := by
  cases h with
  | rests hsame => exact ⟨hsame.running.trans hoff, rfl⟩
  | @asks _ j q _ _ hsame => exact ⟨hsame.running.trans ((running_submit j q).trans hoff), rfl⟩
  | enters _ hsame => exact ⟨hsame.running.trans ((running_clientStep _).trans hoff), rfl⟩
  | meets hrunning => cases hrunning.symm.trans hoff
  | tells _ hsame => exact ⟨hsame.running.trans hoff, rfl⟩
  | vacates hrunning => cases hrunning.symm.trans hoff

/-- Nothing is met by the move with which the dispatcher goes. -/
theorem metIn_of_ended (h : s.Deals ws s') (hoff : s'.running = false) : metIn ws = [] := by
  cases h with
  | meets hon _ hsame => cases hon.symm.trans (hsame.running.symm.trans hoff)
  | _ => rfl

/-- **First come, first served**: what is met comes out of the mailbox at its head, and what
enters it is added at its end. -/
theorem items_deals (h : s.Deals ws s') (hrunning : s'.running = true) :
    s.commands.items ++ s'.commands.items.drop s.commands.items.length =
      metIn ws ++ s'.commands.items := by
  have hnew : ∀ {ws}, metIn ws = [] → s.commands.items <+: s'.commands.items →
      s.commands.items ++ s'.commands.items.drop s.commands.items.length =
        metIn ws ++ s'.commands.items := by
    intro ws hnone hbegins
    rw [hnone, List.prefix_iff_eq_append.1 hbegins]
    rfl
  cases h with
  | rests hsame => exact hnew rfl (hsame.commands ▸ List.prefix_rfl)
  | @asks _ j q _ _ hsame =>
    refine hnew rfl ?_
    rw [hsame.commands]
    rcases submit_cases s j q with ⟨-, heq⟩ | ⟨-, heq⟩ | ⟨-, heq⟩ <;> rw [heq]
    · exact List.prefix_rfl
    · exact List.prefix_append _ _
    · exact List.prefix_rfl
  | @enters _ j _ hsame =>
    refine hnew rfl ?_
    have hstep : (s.clientStep j).commands = s.commands.settle j := by
      unfold clientStep
      dsimp only
      split_ifs <;> rfl
    rw [hsame.commands, hstep]
    exact Mailbox.settle_keeps.2.2
  | @meets _ j q commands reply _ htake hsame =>
    have hitems := (Mailbox.of_take?_eq_some htake).1
    have hafter : s'.commands.items = commands.items := congrArg Mailbox.items hsame.commands
    have hdrop : commands.items.drop ((j, q) :: commands.items).length = [] :=
      List.drop_eq_nil_of_le (by simp)
    rw [hafter, hitems, hdrop, List.append_nil]
    rfl
  | tells _ hsame => exact hnew rfl (hsame.commands ▸ List.prefix_rfl)
  | vacates _ hsame => cases hsame.running.symm.trans hrunning

/-- A client that has a reply without a dispatcher's being there had it before. -/
theorem client_of_deals {reply : Reply} (h : s.Deals ws s') (hoff : s.running = false)
    (hanswer : s'.client k = .answered (.ok reply)) :
    s.client k = .answered (.ok reply) := by
  -- Where the client is moved, it is moved to another place than this.
  have hset : ∀ (t : Service) (j : Nat) (phase : ClientPhase), t.clients = s.clients →
      (t.setClient j phase).client k = .answered (.ok reply) →
      phase ≠ .answered (.ok reply) → s.client k = .answered (.ok reply) := by
    intro t j phase hsame hafter hphase
    have hbefore : t.client k = s.client k := by rw [client, client, hsame]
    by_cases hne : k = j
    · subst hne
      by_cases hlt : k < t.clients.length
      · exact absurd ((client_setClient hlt).symm.trans hafter) hphase
      · rw [client, setClient, List.getElem?_eq_none (by simpa using hlt)] at hafter
        cases hafter
    · rw [client_setClient_of_ne hne] at hafter
      exact hbefore.symm.trans hafter
  cases h with
  | rests hsame => exact (hsame.client k).symm.trans hanswer
  | @asks _ j q _ _ hsame =>
    rw [hsame.client] at hanswer
    rcases submit_cases s j q with ⟨-, heq⟩ | ⟨-, heq⟩ | ⟨-, heq⟩ <;> rw [heq] at hanswer <;>
      exact hset _ j _ (by rfl) hanswer (by simp)
  | @enters _ j _ hsame =>
    rw [hsame.client] at hanswer
    unfold clientStep at hanswer
    dsimp only at hanswer
    split_ifs at hanswer <;> exact hset _ j _ (by rfl) hanswer (by simp)
  | meets hrunning => cases hrunning.symm.trans hoff
  | tells _ hsame =>
    rw [hsame.client] at hanswer
    exact hset _ _ _ rfl hanswer (by simp)
  | vacates hrunning => cases hrunning.symm.trans hoff

theorem bare_deliver (s : Service) (packet : Inbound) :
    (s.deliver packet).bare = (s.bare.deliver packet).bare := by
  have hsame : ∀ t : Service, (t.deliver packet).bare =
      if (t.station.registry.handleInbound t.station.now packet).alarms.wheel.broken then
        (t.onRegistry (·.handleInbound t.station.now packet)).breakDown.bare
      else (t.onRegistry (·.handleInbound t.station.now packet)).bare := fun t => apply_ite bare ..
  rw [hsame, hsame]
  rfl

/-- A dispatcher that serves no request does what it would do without clients. -/
theorem bare_dispatch (h : s.serves? = none) :
    (s.step .dispatcher).bare = (s.bare.step .dispatcher).bare := by
  show (if s.dispatcherReady then s.dispatch else s).bare =
    (if s.bare.dispatcherReady then s.bare.dispatch else s.bare).bare
  by_cases hidle : s.running = true ∧ s.exiting = false
  · obtain ⟨hrunning, hexit⟩ := hidle
    have hempty : s.commands.items = [] := by
      by_contra hne
      obtain ⟨x, rest, hitems⟩ := List.exists_cons_of_ne_nil hne
      simp [serves?, hrunning, hexit, hitems] at h
    have htake : s.commands.take? = none := by rw [Mailbox.take?, hempty]
    have hready : s.bare.dispatcherReady = s.dispatcherReady := by
      simp [dispatcherReady, bare, hempty]
    have hon : ¬s.exiting = true := by simp [hexit]
    have hbare : s.bare.commands.take? = none ∧ ¬s.bare.exiting = true := ⟨rfl, hon⟩
    rw [hready]
    split_ifs
    · unfold dispatch
      rw [if_neg hon, if_neg hbare.2, htake, hbare.1]
      -- Both look at the same station from here on.
      cases hinbound : s.station.inbound.take? with
      | some item =>
        have hinbound' : s.bare.station.inbound.take? = some item := hinbound
        rw [hinbound']
        exact bare_deliver _ item.1
      | none =>
        have hinbound' : s.bare.station.inbound.take? = none := hinbound
        rw [hinbound']
        cases htriggers : s.station.registry.triggers.take? with
        | some item =>
          have htriggers' : s.bare.station.registry.triggers.take? = some item := htriggers
          rw [htriggers']
          rfl
        | none =>
          have htriggers' : s.bare.station.registry.triggers.take? = none := htriggers
          rw [htriggers']
          cases hdue : s.station.registry.expireNext? s.station.now with
          | some fired =>
            have hdue' : s.bare.station.registry.expireNext? s.bare.station.now = some fired := hdue
            rw [hdue']
            rfl
          | none =>
            have hdue' : s.bare.station.registry.expireNext? s.bare.station.now = none := hdue
            rw [hdue']
            rfl
    · rfl
  · obtain ⟨station, running, exiting, commands, clients, watch⟩ := s
    cases running with
    | false => rfl
    | true =>
      cases exiting with
      | true => rfl
      | false => exact absurd ⟨rfl, rfl⟩ hidle

/-- **A move that meets no request does to the station what it would do without clients**, and
one that meets a request does what is asked and nothing else. -/
theorem bare_move (s : Service) (m : Move) : (s.move m).bare = s.bare.undergo (s.deed m) := by
  cases m with
  | task task =>
    cases task with
    | dispatcher =>
      cases hserves : s.serves? with
      | some x =>
        obtain ⟨k, q⟩ := x
        obtain ⟨hrunning, hexit, commands, htake⟩ := serves?_eq_some_iff.1 hserves
        have hitems := (Mailbox.of_take?_eq_some htake).1
        have hready : s.dispatcherReady = true := by simp [dispatcherReady, hrunning, hitems]
        show (if s.dispatcherReady then s.dispatch else s).bare = _
        rw [if_pos hready, dispatch_of_take? hexit htake, deed, hserves]
        rfl
      | none =>
        rw [deed, hserves]
        exact bare_dispatch hserves
    | client k =>
      show (if s.clientReady k then s.clientStep k else s).bare =
        (if s.bare.clientReady k then s.bare.clientStep k else s.bare).bare
      unfold clientStep
      dsimp only
      split_ifs <;> rfl
    | watch =>
      show (if s.watchReady then s.watchStep else s).bare = s.bare.bare
      split_ifs
      · obtain ⟨hstation, hexit⟩ := spares_watchStep (s := s)
        simp only [bare, hstation, hexit, running_watchStep]
      · rfl
    | station task => rfl
  | submit k q =>
    show (s.submit k q).bare = (s.bare.submit k q).bare
    unfold submit
    split <;> split <;> rfl
  | post notice =>
    show (s.post notice).2.bare = (s.bare.post notice).2.bare
    unfold post
    split_ifs <;> rfl
  | _ => rfl

/-! ### Runs -/

theorem Orderly.run (h : s.Orderly) (hturns : s.Courteous moves) : (s.run moves).Orderly := by
  induction moves generalizing s with
  | nil => exact h
  | cons m moves ih => exact ih (h.move hturns.1) hturns.2

theorem Orderly.deals (h : s.Orderly) (hadmits : s.Admits m) : s.Deals (s.said m) (s.move m) :=
  deals_move h.known h.notified hadmits

/-- **The run can be done over** without clients and mailbox. -/
theorem bare_run (s : Service) (moves : List Move) :
    (s.run moves).bare = (s.deeds moves).foldl undergo s.bare := by
  induction moves generalizing s with
  | nil => rfl
  | cons m moves ih =>
    show ((s.move m).run moves).bare = ((s.move m).deeds moves).foldl undergo _
    rw [ih, bare_move]

/-- What is met is what is said to be met. -/
theorem request?_deeds (s : Service) (moves : List Move) :
    (s.deeds moves).filterMap Deed.request? = (metIn (s.journal moves)).map Prod.snd := by
  induction moves generalizing s with
  | nil => rfl
  | cons m moves ih =>
    have hfirst : [s.deed m].filterMap Deed.request? = (metIn (s.said m)).map Prod.snd := by
      cases m with
      | task task =>
        cases task with
        | dispatcher =>
          rw [deed, said]
          cases s.serves? <;> rfl
        | watch =>
          rw [said]
          cases s.watch.pending with
          | none =>
            dsimp only
            cases s.notified? <;> rfl
          | some report =>
            dsimp only
            split_ifs
            · cases s.answer? watcher <;> rfl
            · rfl
        | _ => rfl
      | collect k =>
        rw [said]
        cases s.answer? k <;> rfl
      | _ => rfl
    show ([s.deed m] ++ (s.move m).deeds moves).filterMap Deed.request? =
      (metIn (s.said m ++ (s.move m).journal moves)).map Prod.snd
    rw [List.filterMap_append, metIn_append, List.map_append, hfirst, ih]

/-- Without a dispatcher there will be none, and no request is met. -/
theorem running_run (h : s.Orderly) (hturns : s.Courteous moves) (hoff : s.running = false) :
    (s.run moves).running = false ∧ metIn (s.journal moves) = [] := by
  induction moves generalizing s with
  | nil => exact ⟨hoff, rfl⟩
  | cons m moves ih =>
    obtain ⟨hstill, hfirst⟩ := running_deals (h.deals hturns.1) hoff
    obtain ⟨hend, hrest⟩ := ih (h.move hturns.1) hturns.2 hstill
    refine ⟨hend, ?_⟩
    show metIn (s.said m ++ (s.move m).journal moves) = []
    rw [metIn_append, hfirst, hrest]
    rfl

/-- **Requests are met in the order in which they entered the mailbox**, and while there is a
dispatcher those that entered it and were not met are in it. -/
theorem metIn_run (h : s.Orderly) (hturns : s.Courteous moves) :
    metIn (s.journal moves) <+: s.commands.items ++ s.entries moves ∧
      ((s.run moves).running = true → s.commands.items ++ s.entries moves =
        metIn (s.journal moves) ++ (s.run moves).commands.items) := by
  induction moves generalizing s with
  | nil => exact ⟨List.nil_prefix, fun _ => List.append_nil _⟩
  | cons m moves ih =>
    have hdeals := h.deals hturns.1
    obtain ⟨hbegins, hall⟩ := ih (h.move hturns.1) hturns.2
    have hjournal : metIn (s.journal (m :: moves)) =
        metIn (s.said m) ++ metIn ((s.move m).journal moves) := metIn_append _ _
    have hentries : s.entries (m :: moves) =
        (s.move m).commands.items.drop s.commands.items.length ++ (s.move m).entries moves := rfl
    rw [hjournal, hentries]
    cases hrunning : (s.move m).running with
    | true =>
      have hstep := items_deals hdeals hrunning
      rw [← List.append_assoc, hstep, List.append_assoc]
      exact ⟨(List.prefix_append_right_inj _).2 hbegins, fun hend => by
        rw [hall hend, List.append_assoc]
        rfl⟩
    | false =>
      obtain ⟨hend, hrest⟩ := running_run (h.move hturns.1) hturns.2 hrunning
      rw [metIn_of_ended hdeals hrunning, hrest]
      refine ⟨List.nil_prefix, fun hon => ?_⟩
      cases hend.symm.trans hon

/-- **What a client hears in a run** are whole exchanges, and what belongs to where it
stands. -/
theorem heardBy_run (h : s.Orderly) (hturns : s.Courteous moves) (hso : s.Standing k so) :
    ∃ (finished : List Exchange) (so' : List Word),
      so ++ heardBy k (s.journal moves) = finished.flatMap Exchange.words ++ so' ∧
        (s.run moves).Standing k so' := by
  induction moves generalizing s so with
  | nil => exact ⟨[], so, List.append_nil so, hso⟩
  | cons m moves ih =>
    obtain ⟨first, so₁, hfirst, hso₁⟩ := (h.deals hturns.1).standing h hso
    obtain ⟨rest, so₂, hrest, hso₂⟩ := ih (h.move hturns.1) hturns.2 hso₁
    refine ⟨first ++ rest, so₂, ?_, hso₂⟩
    calc so ++ heardBy k (s.said m ++ (s.move m).journal moves)
        = (so ++ heardBy k (s.said m)) ++ heardBy k ((s.move m).journal moves) := by
          rw [heardBy_append, List.append_assoc]
      _ = first.flatMap Exchange.words ++ (so₁ ++ heardBy k ((s.move m).journal moves)) := by
          rw [hfirst, List.append_assoc]
      _ = (first ++ rest).flatMap Exchange.words ++ so₂ := by
          rw [hrest, List.flatMap_append, List.append_assoc]

/-- Who takes a reply after the dispatcher is gone had it before. -/
theorem client_of_told (h : s.Orderly) (hturns : s.Courteous moves) (hoff : s.running = false)
    {reply : Reply} (htold : (k, .told (.ok reply)) ∈ s.journal moves) :
    s.client k = .answered (.ok reply) := by
  induction moves generalizing s with
  | nil => cases htold
  | cons m moves ih =>
    have hdeals := h.deals hturns.1
    rcases List.mem_append.1 htold with hfirst | hrest
    · generalize s.move m = s' at hdeals
      generalize s.said m = ws at hdeals hfirst
      cases hdeals with
      | tells hanswer _ =>
        cases List.mem_singleton.1 hfirst
        exact hanswer
      | asks _ _ _ => cases List.mem_singleton.1 hfirst
      | meets _ _ _ => cases List.mem_singleton.1 hfirst
      | _ => cases hfirst
    · exact client_of_deals hdeals hoff
        (ih (h.move hturns.1) hturns.2 (running_deals hdeals hoff).1 hrest)

/-! ### Answers -/

theorem client_withClients (settings : Settings) (others k : Nat) :
    (withClients settings others).client k = .idle := by
  rw [client, withClients, List.getElem?_replicate]
  split_ifs <;> rfl

theorem orderly_withClients (settings : Settings) (others : Nat) :
    (withClients settings others).Orderly := by
  have hidle := client_withClients settings others
  exact ⟨fun k => ⟨[], .idle (hidle k) rfl rfl⟩, rfl, fun _ => rfl, by simp [withClients, watcher],
    fun _ => hidle watcher⟩

/-- A request that is met is met by the dispatcher, which gives the reply that there is to
it at that time, and leaves the registry that comes of it. -/
theorem of_met {reply : Reply} (h : (k, .met q reply) ∈ s.said m) :
    reply = (s.station.registry.execute q).1 ∧
      (s.move m).station = { s.station with registry := (s.station.registry.execute q).2 } := by
  cases m with
  | task task =>
    cases task with
    | dispatcher =>
      obtain ⟨x, hx, heq⟩ := List.mem_map.1 h
      obtain ⟨hrunning, hexit, commands, htake⟩ := serves?_eq_some_iff.1 (Option.mem_toList.1 hx)
      obtain ⟨rfl, hword⟩ := Prod.mk.inj heq
      obtain ⟨rfl, rfl⟩ := Word.met.inj hword
      have hitems := (Mailbox.of_take?_eq_some htake).1
      have hready : s.dispatcherReady = true := by simp [dispatcherReady, hrunning, hitems]
      refine ⟨rfl, ?_⟩
      show (if s.dispatcherReady then s.dispatch else s).station = _
      rw [if_pos hready, dispatch_of_take? hexit htake]
      rfl
    | watch =>
      rw [said] at h
      cases hpending : s.watch.pending with
      | none =>
        rw [hpending] at h
        obtain ⟨x, -, heq⟩ := List.mem_map.1 h
        cases congrArg Prod.snd heq
      | some report =>
        rw [hpending] at h
        dsimp only at h
        split_ifs at h
        · obtain ⟨x, -, heq⟩ := List.mem_map.1 h
          cases congrArg Prod.snd heq
        · cases h
    | _ => cases h
  | collect k =>
    obtain ⟨x, -, heq⟩ := List.mem_map.1 h
    cases congrArg Prod.snd heq
  | submit k q => cases List.mem_singleton.1 h
  | _ => cases h

/-- Where a client stands when there is no dispatcher any more: it does not wait for an
answer, and if it waits for room, or asks anew, it is told that there is nobody to ask. -/
theorem client_of_ended (h : s.Orderly) (hoff : s.running = false) (k : Nat) :
    s.client k ≠ .awaiting ∧
      (s.client k = .sending → (s.move (.task (.client k))).client k =
        .answered (.error (closedError false))) ∧
      (k < s.clients.length → ∀ q, (s.submit k q).client k =
        .answered (.error (closedError false))) := by
  have hclosed : s.commands.closed = true := by rw [h.closed, hoff]; rfl
  obtain ⟨so, hso⟩ := h.standing k
  have hlength : ∀ {phase : ClientPhase}, s.client k = phase → phase ≠ .idle →
      k < s.clients.length := by
    intro phase hphase hbusy
    by_contra hlt
    rw [client, List.getElem?_eq_none (Nat.le_of_not_lt hlt)] at hphase
    exact hbusy hphase.symm
  refine ⟨fun hawaiting => ?_, fun hsending => ?_, fun hk q => ?_⟩
  · obtain ⟨q, -, hqueued, -⟩ := hso.of_awaiting hawaiting
    rw [queued, h.emptied hoff] at hqueued
    cases hqueued
  · have hready : s.clientReady k = true := by
      simp [clientReady, hsending, Mailbox.canSettle, hclosed]
    show (if s.clientReady k then s.clientStep k else s).client k = _
    rw [if_pos hready, clientStep, if_pos hclosed]
    exact client_setClient (hlength hsending (by simp))
  · rcases submit_cases s k q with ⟨-, heq⟩ | ⟨hopen, -⟩ | ⟨hopen, -⟩
    · rw [heq]
      exact client_setClient hk
    · cases hclosed.symm.trans hopen
    · cases hclosed.symm.trans hopen

/-- **Answers are true.**  Any number of clients make requests, each in its turn, in any run
of a service.  Requests are met one at a time, in the order in which they entered the
mailbox, and while there is a dispatcher the others that entered it are in it.  What becomes
of the station is what comes of the requests that are met, in their order, and of what else
is done, with no client and no request in sight.  A client hears whole exchanges and the
beginning of one: a request of its is met once at the most, and then it is told exactly what
came of it at that time; it is told that there is nobody to meet it if it is not met, and
only then.  The dispatcher goes as soon as it looks after the exit signal.  From then on no
request is met, nobody waits for an answer, who waits for room or asks is told that there is
nobody to ask, and who is given a reply had it before. -/
theorem answers_truthful (settings : Settings) (others : Nat) (moves : List Move)
    (hturns : (withClients settings others).Courteous moves) :
    let s := withClients settings others
    let s' := s.run moves
    let journal := s.journal moves
    (metIn journal <+: s.entries moves ∧
        (s'.running = true → s.entries moves = metIn journal ++ s'.commands.items)) ∧
      (s'.bare = (s.deeds moves).foldl undergo s.bare ∧
        (s.deeds moves).filterMap Deed.request? = (metIn journal).map Prod.snd) ∧
      (∀ early m late k q reply, moves = early ++ m :: late →
        (k, .met q reply) ∈ (s.run early).said m →
        let st := (s.run early).station
        reply = (st.registry.execute q).1 ∧
          (s.run (early ++ [m])).station = { st with registry := (st.registry.execute q).2 }) ∧
      (∀ k, ∃ (finished : List Exchange) (so : List Word),
        heardBy k journal = finished.flatMap Exchange.words ++ so ∧ s'.Standing k so) ∧
      (s'.running = true → s'.exiting = true →
        (s'.move (.task .dispatcher)).running = false ∧ s'.said (.task .dispatcher) = []) ∧
      (s'.running = false →
        (∀ k, s'.client k ≠ .awaiting ∧
          (s'.client k = .sending → (s'.move (.task (.client k))).client k =
            .answered (.error (closedError false))) ∧
          (k < s'.clients.length → ∀ q, (s'.submit k q).client k =
            .answered (.error (closedError false)))) ∧
        ∀ later, s'.Courteous later →
          (s'.run later).running = false ∧ metIn (s'.journal later) = [] ∧
            ∀ k reply, (k, .told (.ok reply)) ∈ s'.journal later →
              s'.client k = .answered (.ok reply)) ∧
      ∀ entered, (closedError entered).kind = .channelClosed := by
  intro s s' journal
  have hstart : s.Orderly := orderly_withClients settings others
  have hend : s'.Orderly := hstart.run hturns
  refine ⟨metIn_run hstart hturns, ⟨bare_run s moves, request?_deeds s moves⟩, ?_, fun k => ?_,
    fun hrunning hexit => ?_, fun hoff => ⟨client_of_ended hend hoff, fun later hlater => ?_⟩,
    kind_closedError⟩
  · rintro early m late k q reply - hmet
    rw [run_concat]
    exact of_met hmet
  · exact heardBy_run hstart hturns (.idle (client_withClients settings others k) rfl rfl)
  · have hready : s'.dispatcherReady = true := by simp [dispatcherReady, hrunning, hexit]
    constructor
    · show (if s'.dispatcherReady then s'.dispatch else s').running = false
      rw [if_pos hready, dispatch, if_pos hexit]
      rfl
    · simp [said, serves?, hexit]
  · obtain ⟨hstill, hnone⟩ := running_run hend hlater hoff
    exact ⟨hstill, hnone, fun k reply => client_of_told hend hlater hoff⟩

/-- A mailbox with room for one request, and three clients: the first registers a port, the
third has to wait for room to ask about it, and the exit signal is given once it has asked. -/
def crowded : List Move :=
  [.submit 0 (.add { ifIndex := 1, number := 1, name := "Ethernet0", mac := Mac.zero }),
    .submit 2 (.counters 1), .task .dispatcher, .task (.client 2), .exit, .task .dispatcher,
    .collect 2, .collect 0]

/-- The third client's request entered the mailbox and was not met, and it is told so. -/
theorem answers_truthful_crowded :
    let s := withClients { capacity := 1 } 1
    s.Courteous crowded ∧ (s.run crowded).running = false ∧
      (2, .counters 1) ∈ s.entries crowded ∧ (2, .counters 1) ∉ metIn (s.journal crowded) ∧
      ∃ (finished : List Exchange) (so : List Word),
        heardBy 2 (s.journal crowded) = finished.flatMap Exchange.words ++ so ∧
          (s.run crowded).Standing 2 so := by
  intro s
  have hturns : s.Courteous crowded :=
    ⟨⟨by decide, by decide, rfl⟩, ⟨by decide, by decide, rfl⟩, trivial, trivial, trivial, trivial,
      ⟨by decide, by decide +kernel⟩, ⟨by decide, by decide +kernel⟩, trivial⟩
  obtain ⟨-, -, -, hheard, -⟩ := answers_truthful { capacity := 1 } 1 crowded hturns
  exact ⟨hturns, by decide +kernel, by decide +kernel, by decide +kernel, hheard 2⟩

end Service
end Lldp
