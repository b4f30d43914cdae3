/-
# Where clients stand

While its request is under way, a client stands where the request is: it waits for room, or
for the answer, or it has been answered.  So what a client has asked and not yet been told
can be read off the service (`Service.Standing`), and whatever a move does to requests takes
a client from one such place to the next or to the end of an exchange
(`Service.Deals.standing`).

This needs a service in order (`Service.Orderly`), and every move leaves it so as long as
clients keep to their turns (`Service.Orderly.move`).
-/

import Lldp.Proofs.Desk
import Lldp.Proofs.Station.Follow

namespace Lldp
namespace Service

variable {s s' : Service} {m : Move} {k j : Nat} {q : Request} {ws : List (Nat × Word)}

/-! ### Where a client stands -/

/-- The requests of a client that lie in the mailbox. -/
def queued (s : Service) (k : Nat) : List (Nat × Request) := s.commands.items.filter (·.1 = k)

/-- The requests of a client for which there is no room. -/
def held (s : Service) (k : Nat) : List (Nat × Nat × Request) :=
  s.commands.waiting.filter (·.1 = k)

/-- **Where a client stands**, and what has passed since it last had nothing under way. -/
inductive Standing (s : Service) (k : Nat) : List Word → Prop where
  | idle (hphase : s.client k = .idle) (hqueued : s.queued k = []) (hheld : s.held k = []) :
      Standing s k []
  | sending {q : Request} (hphase : s.client k = .sending) (hqueued : s.queued k = [])
      (hheld : s.held k = [(k, k, q)]) : Standing s k [.asks q]
  | awaiting {q : Request} (hphase : s.client k = .awaiting) (hqueued : s.queued k = [(k, q)])
      (hheld : s.held k = []) : Standing s k [.asks q]
  | met {q : Request} {reply : Reply} (hphase : s.client k = .answered (.ok reply))
      (hqueued : s.queued k = []) (hheld : s.held k = []) : Standing s k [.asks q, .met q reply]
  | closed {q : Request} {entered : Bool}
      (hphase : s.client k = .answered (.error (closedError entered)))
      (hqueued : s.queued k = []) (hheld : s.held k = []) : Standing s k [.asks q]

variable {so so' : List Word}

/-- Where a client stands depends on the mailbox and on its phase. -/
theorem Standing.congr (h : s.Standing k so) (hphase : s'.client k = s.client k)
    (hqueued : s'.queued k = s.queued k) (hheld : s'.held k = s.held k) :
    s'.Standing k so := by
  cases h with
  | idle h₁ h₂ h₃ => exact .idle (hphase.trans h₁) (hqueued.trans h₂) (hheld.trans h₃)
  | sending h₁ h₂ h₃ => exact .sending (hphase.trans h₁) (hqueued.trans h₂) (hheld.trans h₃)
  | awaiting h₁ h₂ h₃ => exact .awaiting (hphase.trans h₁) (hqueued.trans h₂) (hheld.trans h₃)
  | met h₁ h₂ h₃ => exact .met (hphase.trans h₁) (hqueued.trans h₂) (hheld.trans h₃)
  | closed h₁ h₂ h₃ => exact .closed (hphase.trans h₁) (hqueued.trans h₂) (hheld.trans h₃)

theorem Standing.of_same (h : s.Standing k so) (hsame : s.SameDesk s') :
    s'.Standing k so :=
  h.congr (hsame.client k) (by rw [queued, hsame.commands, queued])
    (by rw [held, hsame.commands, held])

/-- A client that has nothing under way has no request anywhere. -/
theorem Standing.of_idle (h : s.Standing k so) (hidle : s.client k = .idle) :
    so = [] ∧ s.queued k = [] ∧ s.held k = [] := by
  cases h with
  | idle hphase hqueued hheld => exact ⟨rfl, hqueued, hheld⟩
  | _ hphase => cases hidle.symm.trans hphase

theorem Standing.of_sending (h : s.Standing k so) (hsending : s.client k = .sending) :
    ∃ q, so = [.asks q] ∧ s.queued k = [] ∧ s.held k = [(k, k, q)] := by
  cases h with
  | sending hphase hqueued hheld => exact ⟨_, rfl, hqueued, hheld⟩
  | _ hphase => cases hsending.symm.trans hphase

theorem Standing.of_awaiting (h : s.Standing k so) (hawaiting : s.client k = .awaiting) :
    ∃ q, so = [.asks q] ∧ s.queued k = [(k, q)] ∧ s.held k = [] := by
  cases h with
  | awaiting hphase hqueued hheld => exact ⟨_, rfl, hqueued, hheld⟩
  | _ hphase => cases hawaiting.symm.trans hphase

/-- A client whose request lies in the mailbox waits for the answer. -/
theorem Standing.of_queued (h : s.Standing k so) (hq : (k, q) ∈ s.commands.items) :
    s.client k = .awaiting ∧ so = [.asks q] ∧ s.queued k = [(k, q)] ∧ s.held k = [] := by
  have hmem : (k, q) ∈ s.queued k := List.mem_filter.2 ⟨hq, by simp⟩
  cases h with
  | awaiting hphase hqueued hheld =>
    rw [hqueued] at hmem
    obtain rfl : q = _ := congrArg Prod.snd (List.mem_singleton.1 hmem)
    exact ⟨hphase, rfl, hqueued, hheld⟩
  | _ hphase hqueued =>
    rw [hqueued] at hmem
    cases hmem

/-- A client that has been answered has no request anywhere.  Either its request was met,
and this is the reply, or there is nobody to meet it. -/
theorem Standing.of_answered {answer : Answer} (h : s.Standing k so)
    (hanswer : s.client k = .answered answer) : s.queued k = [] ∧ s.held k = [] ∧
      ∃ q, (∃ reply, answer = .ok reply ∧ so = [.asks q, .met q reply]) ∨
        ∃ entered, answer = .error (closedError entered) ∧ so = [.asks q] := by
  cases h with
  | @met q reply hphase hqueued hheld =>
    obtain rfl := ClientPhase.answered.inj (hanswer.symm.trans hphase)
    exact ⟨hqueued, hheld, q, Or.inl ⟨reply, rfl, rfl⟩⟩
  | @closed q entered hphase hqueued hheld =>
    obtain rfl := ClientPhase.answered.inj (hanswer.symm.trans hphase)
    exact ⟨hqueued, hheld, q, Or.inr ⟨entered, rfl, rfl⟩⟩
  | _ hphase => cases hanswer.symm.trans hphase

/-! ### What a whole exchange is -/

/-- What passes between a client and the service over one request, from its being made to
the answer's being taken. -/
inductive Exchange where
  /-- The request is met, and the client told what came of it. -/
  | met (request : Request) (reply : Reply)
  /-- The request is not met, and the client told that there is nobody to do so. -/
  | closed (request : Request) (entered : Bool)

/-- The words of an exchange. -/
def Exchange.words : Exchange → List Word
  | .met q reply => [.asks q, .met q reply, .told (.ok reply)]
  | .closed q entered => [.asks q, .told (.error (closedError entered))]

/-- What a client has to do with of what is said. -/
def heardBy (k : Nat) (words : List (Nat × Word)) : List Word :=
  (words.filter (·.1 = k)).map Prod.snd

theorem heardBy_append (k : Nat) (early late : List (Nat × Word)) :
    heardBy k (early ++ late) = heardBy k early ++ heardBy k late := by
  rw [heardBy, List.filter_append, List.map_append]
  rfl

theorem heardBy_self (k : Nat) (w : Word) : heardBy k [(k, w)] = [w] := by simp [heardBy]

theorem heardBy_of_ne (h : j ≠ k) (w : Word) : heardBy k [(j, w)] = [] := by simp [heardBy, h]

/-! ### How a client gets from one place to the next -/

/-- A client that is not spoken of stands where it stood if the mailbox has the same of
it. -/
theorem Standing.of_ne {commands : Mailbox Nat (Nat × Request)} {phase : ClientPhase}
    (h : s.Standing k so) (hne : k ≠ j)
    (hsame : ({ s with commands }.setClient j phase).SameDesk s')
    (hitems : commands.items.filter (·.1 = k) = s.queued k)
    (hwaiting : commands.waiting.filter (·.1 = k) = s.held k) : s'.Standing k so := by
  refine h.congr ?_ ?_ ?_
  · exact (hsame.client k).trans (client_setClient_of_ne hne)
  · rw [queued, hsame.commands]
    exact hitems
  · rw [held, hsame.commands]
    exact hwaiting

/-- What a client comes to by making a request. -/
theorem submit_cases (s : Service) (k : Nat) (q : Request) :
    (s.commands.closed = true ∧
        s.submit k q = s.setClient k (.answered (.error (closedError false)))) ∨
      (s.commands.closed = false ∧
        s.submit k q = { s with commands := s.commands.push (k, q) }.setClient k .awaiting) ∨
      (s.commands.closed = false ∧
        s.submit k q = { s with
          commands := { s.commands with
            waiting := s.commands.waiting ++ [(k, k, q)] } }.setClient k .sending) := by
  cases hclosed : s.commands.closed with
  | true => exact Or.inl ⟨rfl, by simp only [submit, Mailbox.send, hclosed]; rfl⟩
  | false =>
    refine Or.inr ?_
    cases hroom : s.commands.hasSpareRoom with
    | true => exact Or.inl ⟨rfl, by simp [submit, Mailbox.send, hclosed, hroom]⟩
    | false => exact Or.inr ⟨rfl, by simp [submit, Mailbox.send, hclosed, hroom]⟩

theorem client_ready (h : s.clientReady k = true) : s.client k = .sending := by
  unfold clientReady at h
  split at h
  · assumption
  · cases h

theorem Standing.asks (h : s.Standing k so) (hk : j < s.clients.length)
    (hidle : s.client j = .idle) (hsame : (s.submit j q).SameDesk s') :
    s'.Standing k (so ++ heardBy k [(j, .asks q)]) := by
  rcases submit_cases s j q with ⟨hclosed, heq⟩ | ⟨hclosed, heq⟩ | ⟨hclosed, heq⟩ <;>
    rw [heq] at hsame <;> by_cases hne : k = j
  · subst hne
    obtain ⟨rfl, hqueued, hheld⟩ := h.of_idle hidle
    rw [heardBy_self]
    exact Standing.of_same (.closed (client_setClient hk) hqueued hheld) hsame
  · rw [heardBy_of_ne (Ne.symm hne), List.append_nil]
    exact h.of_ne hne hsame rfl rfl
  · subst hne
    obtain ⟨rfl, hqueued, hheld⟩ := h.of_idle hidle
    rw [heardBy_self]
    refine Standing.of_same (.awaiting ?_ ?_ ?_) hsame
    · exact client_setClient hk
    · show (s.commands.items ++ [(k, q)]).filter (·.1 = k) = _
      rw [List.filter_append, ← queued, hqueued]
      simp
    · exact hheld
  · rw [heardBy_of_ne (Ne.symm hne), List.append_nil]
    refine h.of_ne hne hsame ?_ rfl
    show (s.commands.items ++ [(j, q)]).filter (·.1 = k) = _
    simp [List.filter_append, queued, Ne.symm hne]
  · subst hne
    obtain ⟨rfl, hqueued, hheld⟩ := h.of_idle hidle
    rw [heardBy_self]
    refine Standing.of_same (.sending ?_ ?_ ?_) hsame
    · exact client_setClient hk
    · exact hqueued
    · show (s.commands.waiting ++ [(k, k, q)]).filter (·.1 = k) = _
      rw [List.filter_append, ← held, hheld]
      simp
  · rw [heardBy_of_ne (Ne.symm hne), List.append_nil]
    refine h.of_ne hne hsame rfl ?_
    show (s.commands.waiting ++ [(j, j, q)]).filter (·.1 = k) = _
    simp [List.filter_append, held, Ne.symm hne]

/-- **A client for which there is room** has its request in the mailbox, or is told that
there is no reader. -/
theorem Standing.enters (h : s.Standing k so) (hready : s.clientReady j = true)
    (hj : ∃ so', s.Standing j so') (hsame : (s.clientStep j).SameDesk s') :
    s'.Standing k so := by
  have hsending := client_ready hready
  have hlength : j < s.clients.length := by
    by_contra hlt
    rw [client, List.getElem?_eq_none (Nat.le_of_not_lt hlt)] at hsending
    cases hsending
  obtain ⟨q, -, hqueued, hheld⟩ := hj.choose_spec.of_sending hsending
  unfold clientStep at hsame
  by_cases hclosed : s.commands.closed = true
  · rw [if_pos hclosed] at hsame
    have hitems : (s.commands.settle j).items = s.commands.items :=
      Mailbox.items_settle_of_closed hclosed
    by_cases hne : k = j
    · subst hne
      obtain ⟨q', rfl, -, -⟩ := h.of_sending hsending
      refine (@Standing.closed _ k q' false ?_ ?_ ?_).of_same hsame
      · exact client_setClient hlength
      · show (s.commands.settle k).items.filter (·.1 = k) = []
        rw [hitems]
        exact hqueued
      · exact Mailbox.waiting_settle_self
    · exact h.of_ne hne hsame (by rw [hitems]; rfl) (Mailbox.waiting_settle_of_ne hne)
  · rw [if_neg hclosed] at hsame
    have hsettle : s.commands.settle j = (s.commands.withdraw j).push (j, q) :=
      Mailbox.settle_of_waiting hheld (by simpa using hclosed)
    by_cases hne : k = j
    · subst hne
      obtain ⟨q', rfl, -, hheld'⟩ := h.of_sending hsending
      obtain rfl : q = q' := by
        have heq := hheld.symm.trans hheld'
        simp only [List.cons.injEq, Prod.mk.injEq, true_and, and_true] at heq
        exact heq
      refine (@Standing.awaiting _ k q ?_ ?_ ?_).of_same hsame
      · exact client_setClient hlength
      · show (s.commands.settle k).items.filter (·.1 = k) = _
        rw [hsettle]
        show (s.commands.items ++ [(k, q)]).filter (·.1 = k) = _
        rw [List.filter_append, ← queued, hqueued]
        simp
      · exact Mailbox.waiting_settle_self
    · refine h.of_ne hne hsame ?_ (Mailbox.waiting_settle_of_ne hne)
      rw [hsettle]
      show (s.commands.items ++ [(j, q)]).filter (·.1 = k) = _
      simp [List.filter_append, queued, Ne.symm hne]

/-- A client whose request is met has its answer. -/
theorem Standing.meets {commands : Mailbox Nat (Nat × Request)} {reply : Reply}
    (h : s.Standing k so) (hj : j < s.clients.length)
    (htake : s.commands.take? = some ((j, q), commands))
    (hsame : ({ s with commands }.setClient j (.answered (.ok reply))).SameDesk s') :
    s'.Standing k (so ++ heardBy k [(j, .met q reply)]) := by
  obtain ⟨hitems, hwaiting⟩ := Mailbox.of_take?_eq_some htake
  by_cases hne : k = j
  · subst hne
    obtain ⟨-, rfl, hqueued, hheld⟩ := h.of_queued (hitems ▸ List.mem_cons_self)
    rw [queued, hitems, List.filter_cons_of_pos (by simp), List.cons.injEq] at hqueued
    rw [heardBy_self]
    refine (@Standing.met _ k q reply ?_ ?_ ?_).of_same hsame
    · exact client_setClient hj
    · exact hqueued.2
    · show commands.waiting.filter (·.1 = k) = []
      rw [hwaiting]
      exact hheld
  · rw [heardBy_of_ne (Ne.symm hne), List.append_nil]
    refine h.of_ne hne hsame ?_ (by rw [hwaiting]; rfl)
    rw [queued, hitems, List.filter_cons_of_neg (by simp [Ne.symm hne])]

/-- **A client that takes its answer** has come to the end of an exchange. -/
theorem Standing.tells {answer : Answer} (h : s.Standing k so)
    (hanswer : s.client j = .answered answer) (hsame : (s.setClient j .idle).SameDesk s') :
    ∃ (finished : List Exchange) (so' : List Word), so ++ heardBy k [(j, .told answer)] =
      finished.flatMap Exchange.words ++ so' ∧ s'.Standing k so' := by
  by_cases hne : k = j
  · subst hne
    have hlength : k < s.clients.length := by
      by_contra hlt
      rw [client, List.getElem?_eq_none (Nat.le_of_not_lt hlt)] at hanswer
      cases hanswer
    obtain ⟨hqueued, hheld, q, hmet⟩ := h.of_answered hanswer
    have hidle : s'.Standing k [] :=
      Standing.of_same (.idle (client_setClient hlength) hqueued hheld) hsame
    rw [heardBy_self]
    rcases hmet with ⟨reply, rfl, rfl⟩ | ⟨entered, rfl, rfl⟩
    · exact ⟨[.met q reply], [], rfl, hidle⟩
    · exact ⟨[.closed q entered], [], rfl, hidle⟩
  · rw [heardBy_of_ne (Ne.symm hne), List.append_nil]
    exact ⟨[], so, rfl, Standing.of_ne h hne hsame rfl rfl⟩

theorem client_vacate (k : Nat) :
    s.vacate.client k = match s.client k with
      | .awaiting => .answered (.error (closedError true))
      | phase => phase := by
  unfold client vacate
  rw [List.getElem?_map]
  cases s.clients[k]? with
  | none => rfl
  | some phase => cases phase <;> rfl

/-- **When the dispatcher is gone**, who waited for its answer is told so, and who waits
for room goes on waiting. -/
theorem Standing.vacates (h : s.Standing k so) (hsame : s.vacate.SameDesk s') :
    s'.Standing k so := by
  have hphase := (hsame.client k).trans (client_vacate k)
  have hqueued : s'.queued k = [] := by
    rw [queued, hsame.commands]
    rfl
  have hheld : s'.held k = s.held k := by
    rw [held, hsame.commands]
    rfl
  cases h with
  | idle h₁ h₂ h₃ => exact .idle (by rw [hphase, h₁]) hqueued (hheld.trans h₃)
  | sending h₁ h₂ h₃ => exact .sending (by rw [hphase, h₁]) hqueued (hheld.trans h₃)
  | awaiting h₁ h₂ h₃ =>
    exact @Standing.closed _ k _ true (by rw [hphase, h₁]) hqueued (hheld.trans h₃)
  | met h₁ h₂ h₃ => exact .met (by rw [hphase, h₁]) hqueued (hheld.trans h₃)
  | closed h₁ h₂ h₃ => exact .closed (by rw [hphase, h₁]) hqueued (hheld.trans h₃)

/-! ### Services in order -/

/-- Clients stand where their requests are, the mailbox is closed once there is no
dispatcher, and the controller is a client that has no request under way while its task has
none. -/
structure Orderly (s : Service) : Prop where
  standing : ∀ k, ∃ so, s.Standing k so
  closed : s.commands.closed = !s.running
  emptied : s.running = false → s.commands.items = []
  known : watcher < s.clients.length
  notified : s.watch.pending = none → s.client watcher = .idle

/-- A client whose request lies in the mailbox is one of the service's. -/
theorem Orderly.lt_of_mem (h : s.Orderly) (hq : (k, q) ∈ s.commands.items) :
    k < s.clients.length := by
  obtain ⟨so, hso⟩ := h.standing k
  obtain ⟨hphase, -⟩ := hso.of_queued hq
  by_contra hlt
  rw [client, List.getElem?_eq_none (Nat.le_of_not_lt hlt)] at hphase
  cases hphase

/-- **What a client has heard**, whatever is done with requests: whole exchanges, and what
belongs to where it stands. -/
theorem Deals.standing (h : s.Deals ws s') (horderly : s.Orderly) (hso : s.Standing k so) :
    ∃ (finished : List Exchange) (so' : List Word),
      so ++ heardBy k ws = finished.flatMap Exchange.words ++ so' ∧ s'.Standing k so' := by
  have hnone : so ++ heardBy k [] = so := List.append_nil so
  cases h with
  | rests hsame => exact ⟨[], so, hnone, hso.of_same hsame⟩
  | asks hk hidle hsame => exact ⟨[], _, rfl, hso.asks hk hidle hsame⟩
  | enters hready hsame =>
    exact ⟨[], so, hnone, hso.enters hready (horderly.standing _) hsame⟩
  | meets hrunning htake hsame =>
    have hmem := (Mailbox.of_take?_eq_some htake).1 ▸ List.mem_cons_self
    exact ⟨[], _, rfl, hso.meets (horderly.lt_of_mem hmem) htake hsame⟩
  | tells hanswer hsame => exact hso.tells hanswer hsame
  | vacates hrunning hsame => exact ⟨[], so, hnone, hso.vacates hsame⟩

/-- A client that has nothing under way gets nothing under way but by asking. -/
theorem Deals.idle (h : s.Deals ws s') (horderly : s.Orderly) (hidle : s.client k = .idle)
    (hquiet : ∀ q, (k, .asks q) ∉ ws) : s'.client k = .idle := by
  obtain ⟨so, hso⟩ := horderly.standing k
  cases h with
  | rests hsame => exact (hsame.client k).trans hidle
  | @asks _ j q hj hidle' hsame =>
    have hne : k ≠ j := by
      rintro rfl
      exact hquiet q List.mem_cons_self
    rw [hsame.client]
    rcases submit_cases s j q with ⟨-, heq⟩ | ⟨-, heq⟩ | ⟨-, heq⟩ <;> rw [heq] <;>
      exact (client_setClient_of_ne hne).trans hidle
  | @enters _ j hready hsame =>
    have hne : k ≠ j := by
      rintro rfl
      cases hidle.symm.trans (client_ready hready)
    rw [hsame.client]
    unfold clientStep
    dsimp only
    split_ifs <;> exact (client_setClient_of_ne hne).trans hidle
  | @meets _ j q commands reply hrunning htake hsame =>
    have hne : k ≠ j := by
      rintro rfl
      have hmem := (Mailbox.of_take?_eq_some htake).1 ▸ List.mem_cons_self
      cases hidle.symm.trans (hso.of_queued hmem).1
    exact (hsame.client k).trans ((client_setClient_of_ne hne).trans hidle)
  | @tells _ j answer hanswer hsame =>
    have hne : k ≠ j := by
      rintro rfl
      cases hidle.symm.trans hanswer
    exact (hsame.client k).trans ((client_setClient_of_ne hne).trans hidle)
  | vacates hrunning hsame => rw [hsame.client, client_vacate, hidle]

/-- There is a dispatcher exactly while the mailbox is open, whatever is done with
requests; without one it is empty, and so it stays. -/
theorem Deals.closed (h : s.Deals ws s') (horderly : s.Orderly) :
    s'.commands.closed = (!s'.running) ∧ (s'.running = false → s'.commands.items = []) := by
  have hclosed := horderly.closed
  cases h with
  | rests hsame => rw [hsame.commands, hsame.running]; exact ⟨hclosed, horderly.emptied⟩
  | @asks _ j q hj hidle hsame =>
    rw [hsame.commands, hsame.running]
    rcases submit_cases s j q with ⟨-, heq⟩ | ⟨hopen, heq⟩ | ⟨hopen, heq⟩ <;> rw [heq]
    · exact ⟨hclosed, horderly.emptied⟩
    · refine ⟨hclosed, fun hrunning => ?_⟩
      have hoff : s.running = false := hrunning
      rw [hopen, hoff] at hclosed
      cases hclosed
    · exact ⟨hclosed, horderly.emptied⟩
  | @enters _ j hready hsame =>
    have hstep : (s.clientStep j).commands = s.commands.settle j ∧
        (s.clientStep j).running = s.running := by
      unfold clientStep
      dsimp only
      split_ifs <;> exact ⟨rfl, rfl⟩
    rw [hsame.commands, hsame.running, hstep.1, hstep.2]
    refine ⟨Mailbox.settle_keeps.1.trans hclosed, fun hoff => ?_⟩
    rw [Mailbox.items_settle_of_closed (by rw [hclosed, hoff]; rfl)]
    exact horderly.emptied hoff
  | @meets _ j q commands reply hrunning htake hsame =>
    have hkept : commands.closed = s.commands.closed := by
      unfold Mailbox.take? at htake
      split at htake
      · cases htake
      · rw [← (Prod.mk.inj (Option.some.inj htake)).2]
    rw [hsame.commands, hsame.running]
    refine ⟨hkept.trans hclosed, fun hoff => ?_⟩
    cases hrunning.symm.trans hoff
  | tells hanswer hsame => rw [hsame.commands, hsame.running]; exact ⟨hclosed, horderly.emptied⟩
  | vacates hrunning hsame => rw [hsame.commands, hsame.running]; exact ⟨rfl, fun _ => rfl⟩

/-- No client comes or goes. -/
theorem Deals.length_clients (h : s.Deals ws s') : s'.clients.length = s.clients.length := by
  have hset : ∀ (t : Service) (j : Nat) (phase : ClientPhase),
      (t.setClient j phase).clients.length = t.clients.length :=
    fun t j phase => List.length_set
  cases h with
  | rests hsame => rw [hsame.clients]
  | @asks _ j q hj hidle hsame =>
    rw [hsame.clients]
    rcases submit_cases s j q with ⟨-, heq⟩ | ⟨-, heq⟩ | ⟨-, heq⟩ <;> rw [heq] <;> exact hset _ _ _
  | enters hready hsame =>
    rw [hsame.clients]
    unfold clientStep
    dsimp only
    split_ifs <;> exact hset _ _ _
  | meets hrunning htake hsame => rw [hsame.clients]; exact hset _ _ _
  | tells hanswer hsame => rw [hsame.clients]; exact hset _ _ _
  | vacates hrunning hsame => rw [hsame.clients]; exact List.length_map ..

/-- A move that is no step of the controller's task leaves what that task has under way, and
makes no request in its name. -/
theorem pending_move (hm : m ≠ .task .watch) (hadmits : s.Admits m) :
    (s.move m).watch.pending = s.watch.pending ∧ ∀ q, (watcher, .asks q) ∉ s.said m := by
  cases m with
  | task task =>
    cases task with
    | dispatcher =>
      refine ⟨?_, fun q hq => ?_⟩
      · show (if s.dispatcherReady then s.dispatch else s).watch.pending = _
        unfold dispatch
        split_ifs
        · rfl
        · cases s.commands.take? with
          | some item => rfl
          | none =>
            cases s.station.inbound.take? with
            | some item =>
              dsimp only [deliver]
              split_ifs <;> rfl
            | none =>
              cases s.station.registry.triggers.take? with
              | some item => rfl
              | none =>
                dsimp only
                cases s.station.registry.expireNext? s.station.now <;> rfl
        · rfl
      · obtain ⟨x, -, hx⟩ := List.mem_map.1 hq
        exact absurd (congrArg Prod.snd hx) nofun
    | client k =>
      refine ⟨?_, fun q hq => by cases hq⟩
      show (if s.clientReady k then s.clientStep k else s).watch.pending = _
      unfold clientStep
      dsimp only
      split_ifs <;> rfl
    | watch => exact absurd rfl hm
    | station task => exact ⟨rfl, fun q hq => by cases hq⟩
  | submit k q =>
    refine ⟨?_, fun q' hq => ?_⟩
    · show (s.submit k q).watch.pending = _
      unfold submit
      split <;> rfl
    · cases List.mem_singleton.1 hq
      exact hadmits.1 rfl
  | collect k =>
    refine ⟨rfl, fun q hq => ?_⟩
    obtain ⟨answer, -, hx⟩ := List.mem_map.1 hq
    cases hx
  | post notice =>
    refine ⟨?_, fun q hq => by cases hq⟩
    show (s.post notice).2.watch.pending = _
    unfold post
    split_ifs <;> rfl
  | _ => exact ⟨rfl, fun q hq => by cases hq⟩

/-- The controller's task has nothing under way after a step only if it had nothing and
still has not, or it has been told. -/
theorem notified_watch (h : s.Orderly) (hpending : (s.step .watch).watch.pending = none) :
    (s.step .watch).client watcher = .idle := by
  have hstep : s.step .watch = if s.watchReady then s.watchStep else s := rfl
  rw [hstep] at hpending ⊢
  split_ifs at hpending ⊢ with hready
  · unfold watchStep at hpending ⊢
    cases hbefore : s.watch.pending with
    | some report =>
      rw [hbefore] at hpending
      dsimp only at hpending ⊢
      split at hpending
      · exact client_setClient h.known
      · cases hbefore.symm.trans hpending
    | none =>
      have hidle := h.notified hbefore
      rw [hbefore] at hpending
      dsimp only at hpending ⊢
      by_cases hexit : s.watch.exiting = true
      · rw [if_pos hexit]
        exact hidle
      · rw [if_neg hexit] at hpending ⊢
        cases htake : s.watch.notices.take? with
        | none =>
          dsimp only
          split_ifs <;> exact hidle
        | some item =>
          rw [htake] at hpending
          dsimp only at hpending ⊢
          cases hinterpret : LinkController.interpret item.1 with
          | error e => exact hidle
          | ok report =>
            rw [hinterpret] at hpending
            dsimp only [submit] at hpending
            split at hpending <;> cases hpending
  · exact h.notified hpending

/-- **Every move leaves a service in order**, as long as clients keep to their turns. -/
theorem Orderly.move (h : s.Orderly) (hadmits : s.Admits m) : (s.move m).Orderly := by
  have hdeals := deals_move h.known h.notified hadmits
  obtain ⟨hclosed, hemptied⟩ := hdeals.closed h
  refine ⟨fun k => ?_, hclosed, hemptied, ?_, fun hpending => ?_⟩
  · obtain ⟨so, hso⟩ := h.standing k
    obtain ⟨finished, so', -, hso'⟩ := hdeals.standing h hso
    exact ⟨so', hso'⟩
  · rw [hdeals.length_clients]
    exact h.known
  · by_cases hm : m = .task .watch
    · subst hm
      exact notified_watch h hpending
    · obtain ⟨hkept, hquiet⟩ := pending_move hm hadmits
      exact hdeals.idle h (h.notified (hkept.symm.trans hpending)) hquiet

end Service
end Lldp
