/-
# The schedule of a ticker

A ticker that is started at a time asks at most once a period from then on, whoever else
uses the mailbox and however late it is served.  The argument follows the time at which the
next tick is due (`Ticker.nextAt`): a tick comes no sooner, and puts the next one a period
after the time it was due, or a period after itself but for a little grace
(`Ticker.Turn.nextAt`).  So a floor under the next tick rises by a period with every tick
(`Beacon.Awaits.after`), and a tick is itself such a floor.

Ticks come exactly when they should where nothing delays them: the ticker never waits for
room, and time passes only while it has nothing to do and not beyond its next tick
(`Beacon.isPrompt`, `Beacon.Paces.run`).
-/

import Lldp.Proofs.Ticker
import Lldp.Proofs.Trace
import Lldp.Transmitter.Beacon

namespace Lldp

namespace Beacon

variable {b : Beacon} {t : Ticker} {i : IfIndex} {period floor : Nat}

/-- What can happen to a beacon that keeps its ticker. -/
inductive Move where
  /-- The ticker is served, if it has something to do. -/
  | serve
  | pass (ms : Nat)
  | report (link : LinkState)
  /-- The reader of the mailbox and others who use it leave it so. -/
  | others (triggers : Triggers)
  /-- Packets are built and timing is adopted. -/
  | use (transmitter : Transmitter)

/-- Whether the ticker has something to do. -/
def isReady (b : Beacon) : Bool := b.transmitter.ticker.any (·.isReady b.now b.triggers)

def after (b : Beacon) : Move → Beacon
  | .serve => if b.isReady then b.tick else b
  | .pass ms => { b with now := b.now + ms }
  | .report link => { b with link }
  | .others triggers => { b with triggers }
  | .use transmitter =>
    { b with transmitter := { transmitter with ticker := b.transmitter.ticker } }

def run (b : Beacon) (moves : List Move) : Beacon := moves.foldl after b

/-- Whether the ticker waits for room in the mailbox. -/
def isBlocked (b : Beacon) : Bool := b.transmitter.ticker.any (·.isBlocked)

/-- The tick that a move is: its time, and the state of the link. -/
def ticked (b : Beacon) : Move → List (Nat × LinkState)
  | .serve => if b.transmitter.ticker.any (·.isDue b.now) then [(b.now, b.link)] else []
  | _ => []

/-- What the ticker leaves in the mailbox by a move, and when. -/
def asked (b : Beacon) : Move → List (Nat × IfIndex)
  | .serve =>
    ((b.after .serve).triggers.items.drop b.triggers.items.length).map (b.now, ·)
  | _ => []

def ticks (b : Beacon) (moves : List Move) : List (Nat × LinkState) :=
  Trace.outputs after ticked b moves

def asks (b : Beacon) (moves : List Move) : List (Nat × IfIndex) :=
  Trace.outputs after asked b moves

/-- **A ticker that is served**, or has nothing to do. -/
theorem serve_cases (ht : b.transmitter.ticker = some t) :
    t.isReady b.now b.triggers = false ∧ b.after .serve = b ∧ t.isDue b.now = false ∨
      t.isReady b.now b.triggers = true ∧
      ∃ done, t.Turn b.now b.stamp b.link b.triggers done ∧
        b.after .serve = { b with
          transmitter := { b.transmitter with ticker := some done.1 }
          triggers := done.2
          stamp := b.stamp + 1 } := by
  have hready : b.isReady = t.isReady b.now b.triggers := by
    rw [isReady, ht, Option.any_some]
  cases h : t.isReady b.now b.triggers with
  | false => exact Or.inl ⟨rfl, by simp [after, hready, h], Ticker.isDue_of_isReady _ h⟩
  | true =>
    refine Or.inr ⟨rfl, _, Ticker.turn_step b.stamp b.link h, ?_⟩
    simp only [after, hready, h, if_true, tick, ht]

/-- Without a ticker there is nothing to serve. -/
theorem serve_of_none (ht : b.transmitter.ticker = none) : b.after .serve = b := by
  simp [after, isReady, ht]

/-! ### Never too soon -/

/-- The ticker, if there is one, has a period, and its next tick comes no sooner than a
time. -/
def Awaits (b : Beacon) (period floor : Nat) : Prop :=
  ∀ t, b.transmitter.ticker = some t →
    t.period = period ∧ (t.phase ≠ .finished → floor ≤ t.nextAt b.now)

/-- **A floor under the next tick** stays where it is or there is a tick; and then there are
two floors under the one after it, a period above this floor and nearly a period after the
tick. -/
theorem Awaits.after (h : b.Awaits period floor) (m : Move) :
    b.ticked m = [] ∧ (b.after m).Awaits period floor ∨
      b.ticked m = [(b.now, b.link)] ∧ floor ≤ b.now ∧
        (b.after m).Awaits period (floor + period) ∧
        (b.after m).Awaits period (b.now + period - Ticker.grace) := by
  cases m with
  | pass ms =>
    refine Or.inl ⟨rfl, fun t ht => ?_⟩
    obtain ⟨hperiod, hfloor⟩ := h t ht
    exact ⟨hperiod, fun hruns =>
      Nat.le_trans (hfloor hruns) (Ticker.nextAt_mono (Nat.le_add_right _ _))⟩
  | report link => exact Or.inl ⟨rfl, h⟩
  | others triggers => exact Or.inl ⟨rfl, h⟩
  | use transmitter => exact Or.inl ⟨rfl, h⟩
  | serve =>
    cases ht : b.transmitter.ticker with
    | none => exact Or.inl ⟨by simp [ticked, ht], by rwa [serve_of_none ht]⟩
    | some t =>
      obtain ⟨hperiod, hfloor⟩ := h t ht
      rcases serve_cases ht with ⟨-, hrests, hdue⟩ | ⟨-, done, hturn, hserve⟩
      · exact Or.inl ⟨by simp [ticked, ht, hdue], by rwa [hrests]⟩
      have hawaits : ∀ {floor'}, (done.1.phase ≠ .finished → floor' ≤ done.1.nextAt b.now) →
          (b.after .serve).Awaits period floor' := by
        intro floor' hfloor' t' ht'
        rw [hserve] at ht' ⊢
        obtain rfl := Option.some.inj ht'
        exact ⟨hturn.keeps.2.trans hperiod, hfloor'⟩
      cases hdue : t.isDue b.now with
      | false =>
        refine Or.inl ⟨by simp [ticked, ht, hdue], hawaits fun hruns => ?_⟩
        rw [hturn.nextAt hruns, hdue]
        exact hfloor hturn.running
      | true =>
        have hnow := Ticker.nextAt_le_of_isDue hdue
        have hle := hfloor (Ticker.running_of_isDue hdue)
        refine Or.inr ⟨by simp [ticked, ht, hdue], Nat.le_trans hle hnow,
          hawaits fun hruns => ?_, hawaits fun hruns => ?_⟩
        · rw [hturn.nextAt hruns, if_pos hdue, hperiod]
          exact Nat.le_trans (Nat.add_le_add_right hle _) Ticker.due_add_period_le_nextDue
        · rw [hturn.nextAt hruns, if_pos hdue, hperiod]
          exact Nat.sub_le_of_le_add Ticker.now_add_period_le_nextDue

/-- **The ticks to come** are each a period above the floor under the one before. -/
theorem Awaits.getElem?_ticks (h : b.Awaits period floor) {moves : List Move} {k : Nat}
    {tick : Nat × LinkState} (hk : (b.ticks moves)[k]? = some tick) :
    floor + k * period ≤ tick.1 := by
  induction moves generalizing b floor k with
  | nil => cases hk
  | cons m moves ih =>
    rw [ticks, Trace.outputs] at hk
    rcases h.after m with ⟨hnone, hlater⟩ | ⟨hone, hfloor, hlater, -⟩
    · rw [hnone, List.nil_append] at hk
      exact ih hlater hk
    · rw [hone] at hk
      cases k with
      | zero =>
        obtain rfl := Option.some.inj hk
        simpa using hfloor
      | succ k =>
        have hnext := ih hlater hk
        rw [Nat.succ_mul]
        omega

/-- **There is no burst of ticks**: two that follow one another are a period apart, but for
a little grace. -/
theorem Awaits.spaced (h : b.Awaits period floor) {moves : List Move} {k : Nat}
    {tick next : Nat × LinkState} (hk : (b.ticks moves)[k]? = some tick)
    (hnext : (b.ticks moves)[k + 1]? = some next) :
    tick.1 + period ≤ next.1 + Ticker.grace := by
  induction moves generalizing b floor k with
  | nil => cases hk
  | cons m moves ih =>
    rw [ticks, Trace.outputs] at hk hnext
    rcases h.after m with ⟨hnone, hlater⟩ | ⟨hone, -, hlater, hapart⟩
    · rw [hnone, List.nil_append] at hk hnext
      exact ih hlater hk hnext
    · rw [hone] at hk hnext
      cases k with
      | zero =>
        obtain rfl := Option.some.inj hk
        have hle := hapart.getElem?_ticks hnext
        omega
      | succ k => exact ih hlater hk hnext

theorem now_tick (b : Beacon) : b.tick.now = b.now := by
  unfold tick
  split <;> rfl

theorem now_le_after (b : Beacon) (m : Move) : b.now ≤ (b.after m).now := by
  cases m with
  | serve =>
    rw [after]
    split_ifs
    · exact Nat.le_of_eq (now_tick b).symm
    · exact Nat.le_refl _
  | pass ms => exact Nat.le_add_right _ _
  | report | others | use => exact Nat.le_refl _

theorem now_le_run (b : Beacon) (moves : List Move) : b.now ≤ (b.run moves).now :=
  Trace.invariant (P := fun s => b.now ≤ s.now)
    (fun s m h => Nat.le_trans h (now_le_after s m)) (Nat.le_refl _)

/-- A tick is over when the run is. -/
theorem tick_le_now {moves : List Move} {tick : Nat × LinkState} (h : tick ∈ b.ticks moves) :
    tick.1 ≤ (b.run moves).now := by
  induction moves generalizing b with
  | nil => cases h
  | cons m moves ih =>
    rcases List.mem_append.1 h with hfirst | hlater
    · have hnow : tick.1 = b.now := by
        unfold ticked at hfirst
        split at hfirst
        · split_ifs at hfirst
          · rw [List.mem_singleton.1 hfirst]
          · cases hfirst
        · cases hfirst
      rw [hnow]
      exact Nat.le_trans (now_le_after b m) (now_le_run _ moves)
    · exact ih hlater

/-- **No more ticks than whole periods** have gone by since a period below the floor. -/
theorem Awaits.length_ticks_le {start : Nat} (h : b.Awaits period (start + period))
    (hperiod : 0 < period) (moves : List Move) :
    (b.ticks moves).length ≤ ((b.run moves).now - start) / period := by
  rw [Nat.le_div_iff_mul_le hperiod]
  cases hlength : (b.ticks moves).length with
  | zero => simp
  | succ n =>
    obtain ⟨tick, htick⟩ : ∃ tick, (b.ticks moves)[n]? = some tick :=
      ⟨_, List.getElem?_eq_getElem (by omega)⟩
    have hlow := h.getElem?_ticks htick
    have hhigh := tick_le_now (List.mem_of_getElem? htick)
    rw [Nat.succ_mul]
    omega

/-! ### What is asked for -/

/-- What a ticker leaves that is served. -/
theorem asked_serve {done : Ticker × Triggers} {added : List IfIndex}
    (hserve : (b.after .serve).triggers = done.2)
    (hitems : done.2.items = b.triggers.items ++ added) :
    b.asked .serve = added.map (b.now, ·) := by
  rw [asked, hserve, hitems, List.drop_left]

/-- **At most one request for a tick** while the link is up, but for one that the ticker
waits with. -/
theorem length_asked_le (b : Beacon) (m : Move) :
    (b.asked m).length + (b.after m).isBlocked.toNat ≤
      ((b.ticked m).filter (·.2 = .up)).length + b.isBlocked.toNat := by
  have hsame : ∀ {m}, b.asked m = [] → (b.after m).isBlocked = b.isBlocked →
      (b.asked m).length + (b.after m).isBlocked.toNat ≤
        ((b.ticked m).filter (·.2 = .up)).length + b.isBlocked.toNat := by
    intro m hnone hblocked
    rw [hnone, hblocked, List.length_nil]
    omega
  cases m with
  | pass | report | others | use => exact hsame rfl rfl
  | serve =>
    have hrests : b.after .serve = b → b.asked .serve = [] := fun heq => by
      rw [asked, heq, List.drop_length, List.map_nil]
    cases ht : b.transmitter.ticker with
    | none => exact hsame (hrests (serve_of_none ht)) (by rw [serve_of_none ht])
    | some t =>
      rcases serve_cases ht with ⟨-, heq, -⟩ | ⟨-, done, hturn, hserve⟩
      · exact hsame (hrests heq) (by rw [heq])
      obtain ⟨added, hitems, hle⟩ := hturn.items
      have hblocked : (b.after .serve).isBlocked = done.1.isBlocked := by
        simp [isBlocked, hserve]
      have hbefore : b.isBlocked = t.isBlocked := by
        simp [isBlocked, ht]
      have hticked : ((b.ticked .serve).filter (·.2 = .up)).length =
          (t.isDue b.now && b.link = .up).toNat := by
        simp only [ticked, ht, Option.any_some]
        cases t.isDue b.now <;> cases b.link <;> rfl
      rw [asked_serve (by rw [hserve]) hitems, List.length_map, hblocked, hbefore, hticked]
      exact hle

/-- **No more requests than ticks** while the link is up. -/
theorem length_asks_le (b : Beacon) (moves : List Move) :
    (b.asks moves).length + (b.run moves).isBlocked.toNat ≤
      ((b.ticks moves).filter (·.2 = .up)).length + b.isBlocked.toNat := by
  induction moves generalizing b with
  | nil => exact Nat.le_refl _
  | cons m moves ih =>
    have hfirst := length_asked_le b m
    have hrest := ih (b.after m)
    rw [asks, Trace.outputs, ticks, Trace.outputs, List.filter_append, List.length_append,
      List.length_append]
    rw [asks, ticks] at hrest
    have hrun : b.run (m :: moves) = (b.after m).run moves := rfl
    rw [hrun]
    omega

/-- When the next tick is due. -/
def nextTick (b : Beacon) : Option Nat := b.transmitter.ticker.map (·.nextAt b.now)

/-- **A tick is due when the one before it leaves it due**, whatever the link. -/
theorem nextTick_of_ticked (h : b.ticked .serve ≠ []) (hopen : b.triggers.closed = false) :
    ∃ t, b.transmitter.ticker = some t ∧
      (b.after .serve).nextTick = some (Ticker.nextDue (t.nextAt b.now) b.now t.period) := by
  cases ht : b.transmitter.ticker with
  | none => simp [ticked, ht] at h
  | some t =>
    have hdue : t.isDue b.now = true := by
      by_contra hnot
      simp [ticked, ht, hnot] at h
    rcases serve_cases ht with ⟨-, -, hnot⟩ | ⟨-, done, hturn, hserve⟩
    · cases hnot.symm.trans hdue
    refine ⟨t, rfl, ?_⟩
    rw [nextTick, hserve]
    exact congrArg some ((hturn.nextAt (hturn.running_of_isDue hdue hopen)).trans (if_pos hdue))

/-- **A tick while the link is not up** asks for nothing. -/
theorem serve_of_down (h : b.ticked .serve ≠ []) (hlink : b.link ≠ .up) :
    (b.after .serve).triggers = b.triggers ∧ b.asked .serve = [] := by
  cases ht : b.transmitter.ticker with
  | none => simp [ticked, ht] at h
  | some t =>
    have hdue : t.isDue b.now = true := by
      by_contra hnot
      simp [ticked, ht, hnot] at h
    rcases serve_cases ht with ⟨-, -, hnot⟩ | ⟨-, done, hturn, hserve⟩
    · cases hnot.symm.trans hdue
    have hbox : (b.after .serve).triggers = b.triggers := by
      rw [hserve]
      exact (hturn.of_down hdue hlink).1
    exact ⟨hbox, by rw [asked, hbox, List.drop_length, List.map_nil]⟩

/-! ### Just in time -/

/-- Whether the ticker has nothing to do for so long. -/
def idles (b : Beacon) (ms : Nat) : Bool :=
  b.transmitter.ticker.all fun t =>
    !t.isReady b.now b.triggers && t.wake?.all (b.now + ms ≤ ·)

/-- Whether a move delays no tick. -/
def allows (b : Beacon) : Move → Bool
  | .pass ms => b.idles ms
  | _ => true

/-- Whether time passes only while the ticker has nothing to do. -/
def isPrompt : Beacon → List Move → Bool
  | _, [] => true
  | b, m :: moves => b.allows m && isPrompt (b.after m) moves

/-- The ticker of a port has not missed a tick, and its next one is due at a time, unless
the clock cannot count so far. -/
def Paces (b : Beacon) (i : IfIndex) (period due : Nat) : Prop :=
  ∃ t, b.transmitter.ticker = some t ∧ t.ifIndex = i ∧ t.period = period ∧
    (t.phase = .finished ∧ Ticker.reachable due = false ∨
      t.phase ≠ .finished ∧ t.nextAt b.now = due ∧ b.now ≤ due)

/-- Time that is allowed to pass does not go beyond the next tick. -/
theorem Paces.pass {due ms : Nat} (h : b.Paces i period due) (hfree : b.isBlocked = false)
    (hidles : b.idles ms = true) : (b.after (.pass ms)).Paces i period due := by
  obtain ⟨t, ht, hown, hperiod, hstands⟩ := h
  refine ⟨t, ht, hown, hperiod, hstands.imp id ?_⟩
  rintro ⟨hruns, hdue, -⟩
  rw [idles, ht, Option.all_some, Bool.and_eq_true, Bool.not_eq_true'] at hidles
  rw [isBlocked, ht, Option.any_some] at hfree
  obtain ⟨due', stamp, hphase, -⟩ := Ticker.sleeps hidles.1 hfree hruns
  have hsame : ∀ now, t.nextAt now = due' := fun now => by rw [Ticker.nextAt, hphase]
  rw [hsame] at hdue
  refine ⟨hruns, (hsame _).trans hdue, ?_⟩
  have hle : b.now + ms ≤ due := by
    simpa [Ticker.wake?, hphase, hdue] using hidles.2
  exact hle

/-- **A turn of a ticker that is not delayed**: it is no tick, or one that comes when it is due
and asks if the link is up. -/
theorem Paces.serve {due : Nat} (h : b.Paces i period due) (hopen : b.triggers.closed = false)
    (hbefore : b.isBlocked = false) (hafter : (b.after .serve).isBlocked = false) :
    b.ticked .serve = [] ∧ b.asked .serve = [] ∧ (b.after .serve).Paces i period due ∨
      b.ticked .serve = [(due, b.link)] ∧
        b.asked .serve = (if b.link = .up then [(due, i)] else []) ∧
        (b.after .serve).Paces i period (due + period) := by
  obtain ⟨t, ht, hown, hperiod, hstands⟩ := h
  rw [isBlocked, ht, Option.any_some] at hbefore
  rcases serve_cases ht with ⟨-, heq, hnot⟩ | ⟨-, done, hturn, hserve⟩
  · refine Or.inl ⟨by simp [ticked, ht, hnot], ?_, ?_⟩
    · rw [asked, heq, List.drop_length, List.map_nil]
    · rw [heq]
      exact ⟨t, ht, hown, hperiod, hstands⟩
  rw [isBlocked, hserve, Option.any_some] at hafter
  obtain ⟨hown', hkeeps⟩ := hturn.keeps
  obtain ⟨hdue, hnow⟩ : t.nextAt b.now = due ∧ b.now ≤ due :=
    hstands.elim (fun hfinished => absurd hfinished.1 hturn.running) And.right
  obtain ⟨hbox, hends⟩ := hturn.of_unblocked hopen hbefore hafter
  have hticker : (b.after .serve).transmitter.ticker = some done.1 := by
    rw [hserve]
  have hclock : (b.after .serve).now = b.now := by
    rw [hserve]
  cases hticks : t.isDue b.now with
  | false =>
    refine Or.inl ⟨by simp [ticked, ht, hticks], ?_, done.1, hticker, hown'.trans hown,
      hkeeps.trans hperiod, ?_⟩
    · have hitems : done.2.items = b.triggers.items ++ [] := by simp [hbox, hticks]
      rw [asked_serve (by rw [hserve]) hitems]
      rfl
    · rcases eq_or_ne done.1.phase .finished with hphase | hphase
      · exact Or.inl ⟨hphase, hdue ▸ hends hphase⟩
      · refine Or.inr ⟨hphase, ?_, hclock ▸ hnow⟩
        rw [hclock, hturn.nextAt hphase, hticks, ← hdue]
        rfl
  | true =>
    obtain rfl : due = b.now :=
      Nat.le_antisymm (hdue ▸ Ticker.nextAt_le_of_isDue hticks) hnow
    have hphase := hturn.running_of_isDue hticks hopen
    refine Or.inr ⟨by simp [ticked, ht, hticks], ?_, done.1, hticker, hown'.trans hown,
      hkeeps.trans hperiod, Or.inr ⟨hphase, ?_, ?_⟩⟩
    · rw [hticks, Bool.true_and] at hbox
      have hitems : done.2.items =
          b.triggers.items ++ if b.link = .up then [t.ifIndex] else [] := by
        rw [hbox]
        cases b.link <;> simp [Mailbox.push]
      rw [asked_serve (by rw [hserve]) hitems, hown]
      split_ifs <;> rfl
    · rw [hclock, hturn.nextAt hphase, if_pos hticks, hdue, hperiod, Ticker.nextDue_self]
    · rw [hclock]
      exact Nat.le_add_right _ _

/-- **A ticker that is not delayed**: there is no tick, or it comes when it is due, and asks
if the link is up. -/
theorem Paces.after {due : Nat} (h : b.Paces i period due) (m : Move)
    (hopen : b.triggers.closed = false) (hbefore : b.isBlocked = false)
    (hafter : (b.after m).isBlocked = false) (hallowed : b.allows m = true) :
    b.ticked m = [] ∧ b.asked m = [] ∧ (b.after m).Paces i period due ∨
      b.ticked m = [(due, b.link)] ∧
        b.asked m = (if b.link = .up then [(due, i)] else []) ∧
        (b.after m).Paces i period (due + period) := by
  cases m with
  | report | others | use => exact Or.inl ⟨rfl, rfl, h⟩
  | pass ms => exact Or.inl ⟨rfl, rfl, h.pass hbefore hallowed⟩
  | serve => exact h.serve hopen hbefore hafter

/-- **A run without delay**: the ticks are a period apart, and each asks if the link is
up. -/
theorem Paces.run {due : Nat} (h : b.Paces i period due) {moves : List Move}
    (hfree : Trace.Always Beacon.after
      (fun b => b.triggers.closed = false ∧ b.isBlocked = false) b moves)
    (hprompt : b.isPrompt moves = true) :
    (∀ k tick, (b.ticks moves)[k]? = some tick → tick.1 = due + k * period) ∧
      b.asks moves = ((b.ticks moves).filter (·.2 = .up)).map (·.1, i) ∧
      (b.run moves).Paces i period (due + (b.ticks moves).length * period) := by
  induction moves generalizing b due with
  | nil =>
    exact ⟨by simp [ticks, Trace.outputs], rfl,
      by simpa [ticks, Trace.outputs, Beacon.run] using h⟩
  | cons m moves ih =>
    have hticks : b.ticks (m :: moves) = b.ticked m ++ (b.after m).ticks moves := rfl
    have hasks : b.asks (m :: moves) = b.asked m ++ (b.after m).asks moves := rfl
    have hrun : b.run (m :: moves) = (b.after m).run moves := rfl
    rw [hticks, hasks, hrun]
    rw [isPrompt, Bool.and_eq_true] at hprompt
    rcases h.after m hfree.first.1 hfree.first.2 hfree.tail.first.2 hprompt.1 with
      ⟨hnone, hnothing, hlater⟩ | ⟨hone, hasked, hlater⟩
    · rw [hnone, hnothing]
      exact ih hlater hfree.tail hprompt.2
    · obtain ⟨hall, hmore, hlast⟩ := ih hlater hfree.tail hprompt.2
      rw [hone, hasked]
      refine ⟨fun k tick hk => ?_, ?_, ?_⟩
      · cases k with
        | zero =>
          obtain rfl := Option.some.inj hk
          simp
        | succ k =>
          rw [hall k tick hk, Nat.succ_mul]
          omega
      · rw [hmore]
        cases b.link <;> rfl
      · rw [List.length_append, List.length_singleton, Nat.add_mul, Nat.one_mul, ← Nat.add_assoc]
        exact hlast

/-- **As many ticks as whole periods** have gone by when the ticker has nothing to do. -/
theorem Paces.length_eq {start n : Nat}
    (h : b.Paces i period (start + period + n * period)) (hfree : b.isBlocked = false)
    (hready : b.isReady = false) (hreach : Ticker.reachable b.now = true)
    (hle : n ≤ (b.now - start) / period) (hperiod : 0 < period) :
    n = (b.now - start) / period := by
  obtain ⟨t, ht, -, -, hstands⟩ := h
  rw [isReady, ht, Option.any_some] at hready
  rw [isBlocked, ht, Option.any_some] at hfree
  have hsoon : b.now < start + period + n * period := by
    rcases hstands with ⟨-, hunreached⟩ | ⟨hruns, hdue, -⟩
    · by_contra hlate
      have hsecs := Nat.div_le_div_right (c := 1000) (Nat.not_lt.1 hlate)
      simp only [Ticker.reachable, decide_eq_true_eq, decide_eq_false_iff_not] at hreach hunreached
      omega
    · obtain ⟨due', stamp, hphase, hlater⟩ := Ticker.sleeps hready hfree hruns
      have hsame : t.nextAt b.now = due' := by rw [Ticker.nextAt, hphase]
      omega
  refine Nat.le_antisymm hle (Nat.lt_succ_iff.1 ((Nat.div_lt_iff_lt_mul hperiod).2 ?_))
  rw [Nat.succ_mul]
  omega

/-! ### The schedule -/

theorem ticker_start (b : Beacon) (i : IfIndex) :
    (b.start i).transmitter.ticker =
        some { ifIndex := i, period := b.transmitter.timing.period } ∧
      (b.start i).now = b.now ∧ (b.start i).triggers = b.stop.triggers := by
  unfold start stop
  split <;> exact ⟨rfl, rfl, rfl⟩

/-- **A ticker that is stopped** takes what it waits with along. -/
theorem stop_of_ticker (ht : b.transmitter.ticker = some t) :
    b.stop.transmitter.ticker = none ∧ b.stop.triggers.items = b.triggers.items ∧
      b.stop.triggers.held t.ifIndex = [] := by
  rw [stop, ht]
  exact ⟨rfl, rfl, Mailbox.held_withdraw_self⟩

/-- Without a ticker there are no ticks. -/
theorem silent_of_none (ht : b.transmitter.ticker = none) (moves : List Move) :
    b.ticks moves = [] ∧ b.asks moves = [] := by
  induction moves generalizing b with
  | nil => exact ⟨rfl, rfl⟩
  | cons m moves ih =>
    have hfirst : b.ticked m = [] ∧ b.asked m = [] ∧
        (b.after m).transmitter.ticker = none := by
      cases m with
      | pass | report | others | use => exact ⟨rfl, rfl, ht⟩
      | serve =>
        refine ⟨by simp [ticked, ht], ?_, by rwa [serve_of_none ht]⟩
        rw [asked, serve_of_none ht, List.drop_length, List.map_nil]
    obtain ⟨hticks, hasks⟩ := ih hfirst.2.2
    exact ⟨by rw [ticks, Trace.outputs, hfirst.1]; exact hticks,
      by rw [asks, Trace.outputs, hfirst.2.1]; exact hasks⟩

/-- A ticker stays the ticker of its port. -/
theorem ticker_run (h : ∃ t, b.transmitter.ticker = some t ∧ t.ifIndex = i) (moves : List Move) :
    ∃ t, (b.run moves).transmitter.ticker = some t ∧ t.ifIndex = i := by
  refine Trace.invariant (P := fun s : Beacon => ∃ t, s.transmitter.ticker = some t ∧ t.ifIndex = i)
    (fun s m h => ?_) h
  obtain ⟨t, ht, hown⟩ := h
  cases m with
  | pass | report | others | use => exact ⟨t, ht, hown⟩
  | serve =>
    rcases serve_cases ht with ⟨-, heq, -⟩ | ⟨-, done, hturn, hserve⟩
    · exact ⟨t, by rw [heq, ht], hown⟩
    · exact ⟨done.1, by rw [hserve], hturn.keeps.1.trans hown⟩

theorem period_pos (timing : Timing) : 0 < timing.period :=
  Nat.mul_pos timing.interval_pos (by decide)

/-- A ticker that is started first ticks a period later. -/
theorem awaits_start (b : Beacon) (i : IfIndex) :
    (b.start i).Awaits b.transmitter.timing.period (b.now + b.transmitter.timing.period) := by
  obtain ⟨hticker, hnow, -⟩ := ticker_start b i
  intro t ht
  obtain rfl := Option.some.inj (hticker.symm.trans ht)
  exact ⟨rfl, fun _ => by rw [hnow]; exact Nat.le_refl _⟩

/-- **No more requests than whole periods** have gone by since the ticker was started. -/
theorem length_asks_start_le (b : Beacon) (i : IfIndex) (moves : List Move) :
    ((b.start i).asks moves).length ≤
      (((b.start i).run moves).now - b.now) / b.transmitter.timing.period := by
  have hasks := length_asks_le (b.start i) moves
  have hup := List.length_filter_le (fun tick => decide (tick.2 = .up)) ((b.start i).ticks moves)
  have hticks := (awaits_start b i).length_ticks_le (period_pos _) moves
  have hfree : (b.start i).isBlocked = false := by
    rw [isBlocked, (ticker_start b i).1]
    rfl
  rw [hfree, Bool.toNat_false] at hasks
  omega

/-- **The schedule of a ticker** that is started at a time with a period, whatever its
reader, its link and others do, and however late it is served.

Its k-th tick comes no sooner than k periods later, so that at most so many requests are left
as whole periods have gone by.  A tick while the link is not up leaves none, and the next tick
is due when it would have been.  If the ticker never has to wait for room and is never late,
the k-th tick comes just k periods later and a request is left by each that finds the link up;
and no tick is missing when the ticker has nothing to do.  No two ticks are less than a period
apart, but for a little grace.  And when the ticker is stopped, or another is started in its
place, it leaves nothing any more, and what it waited with is gone. -/
theorem keeps_schedule (b : Beacon) (i : IfIndex) (moves : List Move) :
    let period := b.transmitter.timing.period
    let first := b.start i
    let ticks := first.ticks moves
    let last := first.run moves
    (∀ k tick, ticks[k]? = some tick → b.now + (k + 1) * period ≤ tick.1) ∧
      (first.asks moves).length ≤ (last.now - b.now) / period ∧
      (last.ticked .serve ≠ [] → last.link ≠ .up →
        (last.after .serve).triggers = last.triggers ∧ last.asked .serve = []) ∧
      (last.ticked .serve ≠ [] → last.triggers.closed = false → ∀ link,
        ({ last with link }.after .serve).nextTick = (last.after .serve).nextTick) ∧
      (Trace.Always after (fun s => s.triggers.closed = false ∧ s.isBlocked = false) first moves →
        first.isPrompt moves = true →
        (∀ k tick, ticks[k]? = some tick → tick.1 = b.now + (k + 1) * period) ∧
        first.asks moves = (ticks.filter (·.2 = .up)).map (·.1, i) ∧
        (last.isReady = false → Ticker.reachable last.now = true →
          ticks.length = (last.now - b.now) / period)) ∧
      (∀ k tick next, ticks[k]? = some tick → ticks[k + 1]? = some next →
        tick.1 + period ≤ next.1 + Ticker.grace) ∧
      (last.stop.triggers.items = last.triggers.items ∧ last.stop.triggers.held i = [] ∧
        ∀ later, last.stop.ticks later = [] ∧ last.stop.asks later = []) ∧
      ∀ j, (last.start j).triggers = last.stop.triggers ∧
        ∀ later, ((last.start j).asks later).length ≤
          (((last.start j).run later).now - last.now) / last.transmitter.timing.period := by
  intro period first ticks last
  have hawaits := awaits_start b i
  obtain ⟨hticker, hnow, -⟩ := ticker_start b i
  refine ⟨fun k tick hk => ?_, length_asks_start_le b i moves, serve_of_down,
    fun hticked hopen link => ?_, fun hfree hprompt => ?_, fun _ _ _ => hawaits.spaced, ?_,
    fun j => ⟨(ticker_start last j).2.2, length_asks_start_le last j⟩⟩
  · have hle := hawaits.getElem?_ticks hk
    rwa [Nat.add_assoc, Nat.add_comm _ (k * _), ← Nat.add_one_mul] at hle
  · obtain ⟨t, ht, hnext⟩ := nextTick_of_ticked hticked hopen
    have hticked' : ({ last with link } : Beacon).ticked .serve ≠ [] := by
      unfold ticked at hticked ⊢
      split_ifs at hticked ⊢
      · simp
      · exact hticked
    obtain ⟨t', ht', hnext'⟩ := nextTick_of_ticked hticked' hopen
    obtain rfl := Option.some.inj (ht.symm.trans ht')
    exact hnext'.trans hnext.symm
  · have hpaces : first.Paces i period (b.now + period) :=
      ⟨_, hticker, rfl, rfl, Or.inr ⟨by simp, by rw [hnow]; rfl, by rw [hnow]; omega⟩⟩
    obtain ⟨hall, hasks, hlast⟩ := hpaces.run hfree hprompt
    refine ⟨fun k tick hk => ?_, hasks, fun hready hreach => ?_⟩
    · rw [hall k tick hk, Nat.add_assoc, Nat.add_comm period, ← Nat.add_one_mul]
    · exact hlast.length_eq hfree.last.2 hready hreach
        (hawaits.length_ticks_le (period_pos _) moves) (period_pos _)
  · obtain ⟨t, ht, hown⟩ := ticker_run ⟨_, hticker, rfl⟩ moves
    obtain ⟨hnone, hitems, hheld⟩ := stop_of_ticker ht
    obtain rfl : t.ifIndex = i := hown
    exact ⟨hitems, hheld, silent_of_none hnone⟩

/-- A ticker with a period of two seconds asks after two and six seconds, if the link is down
in between and its mailbox of one place is emptied. -/
theorem keeps_schedule_in_time :
    let b : Beacon := { (ofTiming ⟨2, 3, by decide, by decide⟩ 1) with now := 500 }
    let moves : List Move :=
      [.serve, .pass 2000, .serve, .others (.ofCapacity 1), .report .down, .pass 2000, .serve,
        .report .up, .pass 2000, .serve]
    Trace.Always after (fun s => s.triggers.closed = false ∧ s.isBlocked = false)
        (b.start 5) moves ∧
      (b.start 5).isPrompt moves = true ∧
      ((b.start 5).ticks moves).length = 3 ∧
      (b.start 5).asks moves = [(2500, 5), (6500, 5)] ∧
      (((b.start 5).run moves).stop.asks [.pass 2000, .serve]) = [] := by
  intro b moves
  have hfree : Trace.Always after (fun s => s.triggers.closed = false ∧ s.isBlocked = false)
      (b.start 5) moves := by decide
  have hprompt : (b.start 5).isPrompt moves = true := by decide
  obtain ⟨-, -, -, -, hexact, -, ⟨-, -, hstopped⟩, -⟩ := keeps_schedule b 5 moves
  obtain ⟨-, hasks, hlength⟩ := hexact hfree hprompt
  refine ⟨hfree, hprompt, ?_, ?_, (hstopped _).2⟩
  · rw [hlength (by decide) (by decide)]
    decide
  · rw [hasks]
    decide

end Beacon
end Lldp
