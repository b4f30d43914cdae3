/-
# The pace of requests to transmit

A ticker that is served when it is due asks once every period: it is due within a period at
all times, and when it asks, the next tick is a period away (`Ticker.IsOnTime.step`).  The
request lies in the mailbox, or the ticker waits for room with it, until it is met.

So as long as a port stays captured with its link up and its timing is left alone, what
happens to the station does one of three things to the next tick and to the requests that
are outstanding for the port (`Pace`, `Paced.after`): neither changes; or the tick is due
now, the next is a period later, and there is one more request; or a request is met.
-/

import Lldp.Proofs.Station.Prompting
import Lldp.Proofs.Station.Sending
import Lldp.Proofs.Station.Sparing

namespace Lldp

namespace Mailbox

variable {σ : Type} [DecidableEq σ] {b : Mailbox σ σ} {sender : σ}

/-- How many of its own requests a sender has in the box and outside. -/
def outstanding (b : Mailbox σ σ) (sender : σ) : Nat :=
  (b.items.filter (· = sender)).length + (b.held sender).length

theorem outstanding_push : (b.push sender).outstanding sender = b.outstanding sender + 1 := by
  have hheld : (b.push sender).held sender = b.held sender := rfl
  rw [outstanding, hheld, outstanding, push, List.filter_append]
  simp
  omega

theorem outstanding_wait :
    { b with waiting := b.waiting ++ [(sender, sender)] }.outstanding sender =
      b.outstanding sender + 1 := by
  simp [outstanding, held, Nat.add_assoc]

/-- A wait that ends leaves the request in the box. -/
theorem outstanding_settle (h : b.held sender = [(sender, sender)]) (hopen : b.closed = false) :
    (b.settle sender).outstanding sender = b.outstanding sender := by
  have hgone : (b.withdraw sender).outstanding sender + 1 = b.outstanding sender := by
    rw [outstanding, held_withdraw_self, outstanding, h]
    rfl
  rw [settle_of_waiting h hopen, outstanding_push, hgone]

/-- A request that is taken out is no longer outstanding. -/
theorem outstanding_take? {b' : Mailbox σ σ} {item : σ} (h : b.take? = some (item, b')) :
    b.outstanding sender = b'.outstanding sender + if item = sender then 1 else 0 := by
  obtain ⟨rest, hitems, rfl⟩ := take?_eq_some_iff.1 h
  have hheld : b.held sender = { b with items := rest }.held sender := rfl
  rw [outstanding, hheld, hitems, outstanding, List.filter_cons]
  simp only [decide_eq_true_eq]
  split_ifs
  · rw [List.length_cons]
    omega
  · rfl

end Mailbox

namespace Ticker

variable {t : Ticker} {box : Triggers} {now stamp : Nat}

/-- When the next tick is due. -/
def nextAt (t : Ticker) (now : Nat) : Nat :=
  match t.phase with
  | .sleeping due _ | .sending due => due
  | .starting | .finished => now + t.period

/-- A ticker that has been served whenever it was due. -/
structure IsOnTime (t : Ticker) (now : Nat) : Prop where
  running : t.phase ≠ .finished
  starts : t.phase = .starting → reachable (now + t.period) = true
  ahead : now ≤ t.nextAt now
  soon : t.nextAt now ≤ now + t.period

/-- **The step of a ticker that is on time** while its link is up: it begins or ends its
wait for room, and the next tick is due when it was; or it is due, and asks, and the next
tick is due a period later. -/
theorem IsOnTime.step (h : t.IsOnTime now) (hready : t.isReady now box = true)
    (hopen : box.closed = false) (hheld : box.held t.ifIndex = t.holds) (stamp : Nat) :
    (t.step now stamp .up box).1.IsOnTime now ∧
      ((t.step now stamp .up box).1.nextAt now = t.nextAt now ∧
        (t.step now stamp .up box).2.outstanding t.ifIndex = box.outstanding t.ifIndex ∨
      t.nextAt now = now ∧ (t.step now stamp .up box).1.nextAt now = now + t.period ∧
        (t.step now stamp .up box).2.outstanding t.ifIndex =
          box.outstanding t.ifIndex + 1) := by
  obtain ⟨i, period, phase⟩ := t
  cases phase with
  | starting =>
    have hstep : step ⟨i, period, .starting⟩ now stamp .up box =
        (⟨i, period, .sleeping (now + period) stamp⟩, box) := if_pos (h.starts rfl)
    rw [hstep]
    exact ⟨⟨by simp, by simp, Nat.le_add_right _ _, Nat.le_refl _⟩, Or.inl ⟨rfl, rfl⟩⟩
  | sleeping due stamp' =>
    have hdue : due = now := Nat.le_antisymm (of_decide_eq_true hready) h.ahead
    subst hdue
    have hnext : nextDue due due period = due + period :=
      if_neg (Nat.not_lt.2 (Nat.le_add_right _ _))
    by_cases hroom : box.hasSpareRoom = true
    · have hstep : step ⟨i, period, .sleeping due stamp'⟩ due stamp .up box =
          (⟨i, period, .sleeping (due + period) stamp⟩, box.push i) := by
        simp [step, Mailbox.send, hopen, hroom, hnext]
      rw [hstep]
      exact ⟨⟨by simp, by simp, Nat.le_add_right _ _, Nat.le_refl _⟩,
        Or.inr ⟨rfl, rfl, Mailbox.outstanding_push⟩⟩
    · have hstep : step ⟨i, period, .sleeping due stamp'⟩ due stamp .up box =
          (⟨i, period, .sending (due + period)⟩,
            { box with waiting := box.waiting ++ [(i, i)] }) := by
        simp [step, Mailbox.send, hopen, hroom, hnext]
      rw [hstep]
      exact ⟨⟨by simp, by simp, Nat.le_add_right _ _, Nat.le_refl _⟩,
        Or.inr ⟨rfl, rfl, Mailbox.outstanding_wait⟩⟩
  | sending due =>
    have hstep : step ⟨i, period, .sending due⟩ now stamp .up box =
        (⟨i, period, .sleeping due stamp⟩, box.settle i) := by
      simp [step, hopen]
    rw [hstep]
    exact ⟨⟨by simp, by simp, h.ahead, h.soon⟩,
      Or.inl ⟨rfl, Mailbox.outstanding_settle hheld hopen⟩⟩
  | finished => exact absurd rfl h.running

end Ticker

namespace Station

variable {st st' : Station} {i : IfIndex} {x : Incident} {port : Port} {timing : Timing}
  {starts : List IfIndex}

/-- Whether an incident is that a request to transmit is met on a port. -/
def meets (st : Station) (i : IfIndex) : Incident → Bool
  | .operation (.transmit j) => j = i
  | .trigger true => st.registry.triggers.items.head? = some i
  | _ => false

/-- Whether an incident takes no time, adopts no timing and loses no request for a port. -/
def sustains (st : Station) (i : IfIndex) : Incident → Bool
  | .operation (.pass _) => false
  | .operation (.request (.apply (.timing interval multiplier))) => interval = 0 || multiplier = 0
  | .trigger false => st.registry.triggers.items.head? ≠ some i
  | _ => true

/-- Whether a port is captured and its link up, and requests to transmit are read. -/
def isOnAir (st : Station) (i : IfIndex) : Bool :=
  (st.registry.session? i).any (fun s => s.isCapturing && s.link = .up) &&
    !st.registry.triggers.closed

/-- Whether nothing is to be done for a port for a while: no request is outstanding, and its
ticker sleeps until then. -/
def idles (st : Station) (i : IfIndex) (ms : Nat) : Bool :=
  st.registry.triggers.outstanding i = 0 &&
    (st.ticker? i).all fun t =>
      !t.isReady st.now st.registry.triggers && t.wake?.all (st.now + ms ≤ ·)

/-- When the next tick of a port is due. -/
def nextTick (st : Station) (i : IfIndex) : Nat :=
  (st.ticker? i).elim st.now (·.nextAt st.now)

/-- How many requests to transmit are outstanding for a port. -/
def outstanding (st : Station) (i : IfIndex) : Nat := st.registry.triggers.outstanding i

/-- A port is captured, and its ticker has been served whenever it was due. -/
structure Paced (i : IfIndex) (port : Port) (timing : Timing) (st : Station) : Prop where
  port : (st.registry.session? i).map (·.port) = some port
  isCapturing : st.registry.isCapturing i = true
  beat : ∃ t, st.registry.beat? i = some (t, timing) ∧ t.IsOnTime st.now
  agree : st.registry.TickersAgree
  current : st.registry.AllCurrent
  ordered : ∃ starts, st.registry.InOrder starts
  ranked : st.registry.Ranked

/-- **What happens to the next tick of a port** and to the requests that are outstanding. -/
inductive Pace (i : IfIndex) (timing : Timing) (st st' : Station) : Bool → Prop
  | rests (next : st'.nextTick i = st.nextTick i) (out : st'.outstanding i = st.outstanding i) :
      Pace i timing st st' false
  /-- The tick is due, and there is another request. -/
  | asks (due : st.nextTick i = st.now) (next : st'.nextTick i = st.now + timing.period)
      (out : st'.outstanding i = st.outstanding i + 1) : Pace i timing st st' false
  /-- A request is met, and one less may be outstanding. -/
  | meets (next : st'.nextTick i = st.nextTick i)
      (out : st.outstanding i ≤ st'.outstanding i + 1) : Pace i timing st st' true

/-- **Nothing takes time** but its passing. -/
theorem now_after (hx : ∀ ms, x ≠ .operation (.pass ms)) : (st.after x).now = st.now := by
  cases x with
  | task task => exact (drifts_step st task).now
  | operation o =>
    cases o with
    | pass ms => exact absurd rfl (hx ms)
    | _ => rfl
  | packet deliver =>
    unfold after
    cases st.inbound.take? with
    | none => rfl
    | some item => cases deliver <;> rfl
  | trigger deliver =>
    unfold after
    cases st.registry.triggers.take? <;> rfl
  | _ => rfl

theorem now_of_sustains (hx : st.sustains i x = true) : (st.after x).now = st.now :=
  now_after fun ms heq => by
    rw [heq] at hx
    cases hx

theorem ticker?_eq_beat? : st.ticker? i = (st.registry.beat? i).map Prod.fst := by
  unfold ticker? Registry.beat?
  cases st.registry.session? i with
  | none => rfl
  | some s => cases hticker : s.transmitter.ticker <;> simp [hticker]

theorem nextTick_of_beat? {t : Ticker} (h : st.registry.beat? i = some (t, timing)) :
    st.nextTick i = t.nextAt st.now := by
  rw [nextTick, ticker?_eq_beat?, h]
  rfl

theorem isCapturing_of_isOnAir (h : st.isOnAir i = true) : st.registry.isCapturing i = true := by
  rw [isOnAir, Bool.and_eq_true] at h
  obtain ⟨s, hs, hboth⟩ := (Option.any_eq_true ..).1 h.1
  rw [Bool.and_eq_true] at hboth
  exact (Option.any_eq_true ..).2 ⟨s, hs, hboth.1⟩

theorem closed_of_isOnAir (h : st.isOnAir i = true) : st.registry.triggers.closed = false := by
  rw [isOnAir, Bool.and_eq_true, Bool.not_eq_true'] at h
  exact h.2

/-- A request that is taken out of the mailbox, whether or not it is met, is all that is
changed of what has to do with requests. -/
theorem undisturbed_trigger {item : IfIndex × Triggers}
    (htake : st.registry.triggers.take? = some item) (deliver : Bool) (i : IfIndex) :
    ({ st.registry with triggers := item.2 } : Registry).Undisturbed
        (st.after (.trigger deliver)).registry i ∧
      (st.after (.trigger deliver)).now = st.now := by
  unfold after
  rw [htake]
  cases deliver with
  | true => exact ⟨Registry.Prompts.handleTransmit _ i item.1, rfl⟩
  | false => exact ⟨.refl _ i, rfl⟩

namespace Paced

/-- What holds of a station whatever has happened to it. -/
theorem carry (h : st.Paced i port timing) (x : Incident) :
    (st.after x).registry.TickersAgree ∧ (st.after x).registry.AllCurrent ∧
      (∃ starts, (st.after x).registry.InOrder starts) ∧ (st.after x).registry.Ranked := by
  obtain ⟨starts, horder⟩ := h.ordered
  exact ⟨tickersAgree_after h.agree horder h.ranked x, allCurrent_after h.current x,
    ⟨_, inOrder_after horder h.ranked x⟩, ranked_after h.ranked x⟩

/-- The port and its ticker are as they were. -/
theorem keep (h : st.Paced i port timing) (hnow : (st.after x).now = st.now)
    (hport : ((st.after x).registry.session? i).map (·.port) =
      (st.registry.session? i).map (·.port))
    (hcapturing : (st.after x).registry.isCapturing i = st.registry.isCapturing i)
    (hbeat : (st.after x).registry.beat? i = st.registry.beat? i) :
    (st.after x).Paced i port timing ∧ (st.after x).nextTick i = st.nextTick i := by
  obtain ⟨hagree, hcurrent, hordered, hranked⟩ := h.carry x
  obtain ⟨t, ht, htime⟩ := h.beat
  refine ⟨⟨hport.trans h.port, hcapturing.trans h.isCapturing, ⟨t, hbeat.trans ht, hnow ▸ htime⟩,
    hagree, hcurrent, hordered, hranked⟩, ?_⟩
  rw [nextTick_of_beat? (hbeat.trans ht), nextTick_of_beat? ht, hnow]

/-- **Where a port is left undisturbed**, its pace is. -/
theorem undisturbed (h : st.Paced i port timing) (hnow : (st.after x).now = st.now)
    (hsame : st.registry.Undisturbed (st.after x).registry i) :
    (st.after x).Paced i port timing ∧ (st.after x).nextTick i = st.nextTick i ∧
      (st.after x).outstanding i = st.outstanding i := by
  obtain ⟨hpaced, hnext⟩ := h.keep hnow (hsame.port h.isCapturing) hsame.isCapturing hsame.beat
  exact ⟨hpaced, hnext, congrArg₂ (· + ·) (congrArg List.length hsame.asked)
    (congrArg List.length hsame.held)⟩

/-- **The ticker of the port** makes a step. -/
theorem ticker (h : st.Paced i port timing) (hair : st.isOnAir i = true) :
    (st.step (.ticker i)).Paced i port timing ∧
      Pace i timing st (st.step (.ticker i)) false := by
  rcases step_ticker st i with heq | ⟨s, t, hs, ht, hready, heq⟩
  · rw [heq]
    exact ⟨h, .rests rfl rfl⟩
  have hlink : s.link = .up := by
    rw [isOnAir, hs, Option.any_some] at hair
    simp only [Bool.and_eq_true, decide_eq_true_eq] at hair
    exact hair.1.2
  have hbeat := Registry.beat?_of_session? hs ht
  obtain ⟨t', hbeat', htime⟩ := h.beat
  obtain ⟨rfl, rfl⟩ := Prod.mk.inj (Option.some.inj (hbeat.symm.trans hbeat'))
  obtain ⟨hown, hperiod, hheld⟩ := h.agree.own i t _ hbeat
  obtain ⟨htime', hcases⟩ :=
    htime.step hready (closed_of_isOnAir hair) (by rw [hown, hheld]) st.stamp
  rw [hlink] at heq
  have hsession : (st.step (.ticker i)).registry.session? i =
      some (s.withTicker (t.step st.now st.stamp .up st.registry.triggers).1) := by
    rw [heq]
    exact session?_withTicker.trans (by rw [if_pos rfl, hs]; rfl)
  have hnow : (st.step (.ticker i)).now = st.now := by rw [heq]
  have hafter : (st.step (.ticker i)).registry.beat? i =
      some ((t.step st.now st.stamp .up st.registry.triggers).1, s.transmitter.timing) := by
    rw [Registry.beat?, hsession]
    rfl
  have hout : (st.step (.ticker i)).outstanding i =
      (t.step st.now st.stamp .up st.registry.triggers).2.outstanding i := by
    rw [heq]
    rfl
  obtain ⟨hagree, hcurrent, hordered, hranked⟩ := h.carry (.task (.ticker i))
  refine ⟨⟨?_, ?_, ⟨_, hafter, hnow ▸ htime'⟩, hagree, hcurrent, hordered, hranked⟩, ?_⟩
  · rw [hsession, ← h.port, hs]
    rfl
  · rw [← h.isCapturing, Registry.isCapturing, hsession, Registry.isCapturing, hs]
    rfl
  · have hnext := nextTick_of_beat? hafter
    have hbefore := nextTick_of_beat? hbeat
    rw [hnow] at hnext
    rw [hown] at hcases
    rcases hcases with ⟨hsame, hsame'⟩ | ⟨hdue, hthen, hmore⟩
    · exact .rests (by rw [hnext, hsame, hbefore]) (hout.trans hsame')
    · exact .asks (hbefore.trans hdue) (by rw [hnext, hthen, hperiod]) (hout.trans hmore)

/-- **A request is taken out of the mailbox**, and met; or it is another port's. -/
theorem trigger (h : st.Paced i port timing) {deliver : Bool}
    (hx : st.sustains i (.trigger deliver) = true) :
    (st.after (.trigger deliver)).Paced i port timing ∧
      Pace i timing st (st.after (.trigger deliver)) (st.meets i (.trigger deliver)) := by
  have hmeets : st.meets i (.trigger deliver) =
      (deliver && st.registry.triggers.items.head? = some i) := by
    cases deliver <;> rfl
  rw [hmeets]
  cases htake : st.registry.triggers.take? with
  | none =>
    have hsame : st.after (.trigger deliver) = st := by rw [Station.after, htake]
    have hempty : st.registry.triggers.items = [] := Mailbox.take?_eq_none_iff.1 htake
    rw [hsame, hempty, List.head?_nil]
    simp only [reduceCtorEq, decide_false, Bool.and_false]
    exact ⟨h, .rests rfl rfl⟩
  | some item =>
    obtain ⟨hleft, hnow⟩ := undisturbed_trigger htake deliver i
    obtain ⟨hpaced, hnext⟩ :=
      h.keep hnow (hleft.port h.isCapturing) hleft.isCapturing hleft.beat
    have hafter : (st.after (.trigger deliver)).outstanding i = item.2.outstanding i :=
      congrArg₂ (· + ·) (congrArg List.length hleft.asked) (congrArg List.length hleft.held)
    have hbefore : st.outstanding i = item.2.outstanding i + if item.1 = i then 1 else 0 :=
      Mailbox.outstanding_take? htake
    obtain ⟨rest, hitems, -⟩ := Mailbox.take?_eq_some_iff.1 htake
    rw [hitems, List.head?_cons]
    refine ⟨hpaced, ?_⟩
    by_cases hi : item.1 = i
    · -- The port's own request is not lost.
      have hdeliver : deliver = true := by
        by_contra hlost
        simp [Station.sustains, hitems, hi, Bool.eq_false_iff.2 hlost] at hx
      subst hdeliver
      simp only [hi, decide_true, Bool.and_true]
      exact .meets hnext (Nat.le_of_eq (by rw [hbefore, hafter, if_pos hi]))
    · simp only [Option.some.injEq, hi, decide_false, Bool.and_false]
      exact .rests hnext (by rw [hbefore, hafter, if_neg hi, Nat.add_zero])

/-- **Whatever happens to a port that stays on the air** while its timing is left alone. -/
theorem after (h : st.Paced i port timing) (hx : st.sustains i x = true)
    (hair : st.isOnAir i = true) (hair' : (st.after x).isOnAir i = true) :
    (st.after x).Paced i port timing ∧ Pace i timing st (st.after x) (st.meets i x) := by
  have hrests : ∀ {x}, (st.after x).now = st.now →
      st.registry.Undisturbed (st.after x).registry i → st.meets i x = false →
      (st.after x).Paced i port timing ∧ Pace i timing st (st.after x) (st.meets i x) := by
    intro x hnow hsame hnot
    obtain ⟨hpaced, hnext, hout⟩ := h.undisturbed hnow hsame
    rw [hnot]
    exact ⟨hpaced, .rests hnext hout⟩
  by_cases hticker : ∃ j, x = .task (.ticker j)
  · obtain ⟨j, rfl⟩ := hticker
    by_cases hij : i = j
    · subst hij
      exact h.ticker hair
    · exact hrests (drifts_step st _).now (undisturbed_step_of_ne h.agree hij) rfl
  by_cases htrigger : ∃ deliver, x = .trigger deliver
  · obtain ⟨deliver, rfl⟩ := htrigger
    exact h.trigger hx
  have hclose : x ≠ .close := by
    rintro rfl
    cases closed_of_isOnAir hair'
  have hnow : (st.after x).now = st.now := now_of_sustains hx
  obtain ⟨starts, horder⟩ := h.ordered
  have hsame : st.registry.Undisturbed (st.after x).registry i := by
    rcases prompts_after horder h.ranked (fun j hj => hticker ⟨j, hj⟩)
      (fun deliver hd => htrigger ⟨deliver, hd⟩) hclose i with
      hsame | hbegun | hended | ⟨⟨o, rfl, change, rfl, interval, multiplier, rfl, hi, hm⟩, -, -, -⟩
    · exact hsame
    · cases hbegun.before.symm.trans h.isCapturing
    · cases hended.isCapturing.symm.trans (isCapturing_of_isOnAir hair')
    · simp [Station.sustains, hi, hm] at hx
  cases hmeets : st.meets i x with
  | false =>
    rw [← hmeets]
    exact hrests hnow hsame hmeets
  | true =>
    obtain ⟨hpaced, hnext, hout⟩ := h.undisturbed hnow hsame
    exact ⟨hpaced, .meets hnext (by rw [hout]; exact Nat.le_succ _)⟩

/-- **Time passes while nothing is to be done for the port**, and not beyond its next
tick. -/
theorem pass (h : st.Paced i port timing) {ms : Nat} (hidle : st.idles i ms = true) :
    (st.after (.operation (.pass ms))).Paced i port timing ∧
      (st.after (.operation (.pass ms))).nextTick i = st.nextTick i ∧
      (st.after (.operation (.pass ms))).outstanding i = 0 ∧ st.outstanding i = 0 ∧
      st.now + ms ≤ st.nextTick i := by
  obtain ⟨t, hbeat, htime⟩ := h.beat
  obtain ⟨hown, -, hheld⟩ := h.agree.own i t _ hbeat
  simp only [idles, ticker?_eq_beat?, hbeat, Option.map_some, Option.all_some, Bool.and_eq_true,
    decide_eq_true_eq, Bool.not_eq_true'] at hidle
  obtain ⟨hnone, hready, hwake⟩ := hidle
  have hasleep : ∃ due stamp, t.phase = .sleeping due stamp := by
    cases hphase : t.phase with
    | starting => simp [Ticker.isReady, hphase] at hready
    | sleeping due stamp => exact ⟨due, stamp, rfl⟩
    | sending due =>
      -- A ticker that waits for room has a request outside the mailbox.
      have hwaits : st.registry.triggers.held i = [(t.ifIndex, t.ifIndex)] := by
        rw [hheld, Ticker.holds, hphase]
      simp [Mailbox.outstanding, hwaits] at hnone
    | finished => exact absurd hphase htime.running
  obtain ⟨due, stamp, hphase⟩ := hasleep
  have hnext : ∀ now, t.nextAt now = due := fun now => by rw [Ticker.nextAt, hphase]
  have hdue : st.now + ms ≤ due := by
    simpa [Ticker.wake?, hphase] using hwake
  have htime' : t.IsOnTime (st.now + ms) := by
    refine ⟨htime.running, fun hstarts => ?_, by rw [hnext]; exact hdue, ?_⟩
    · rw [hphase] at hstarts
      cases hstarts
    · have hsoon := htime.soon
      rw [hnext] at hsoon ⊢
      omega
  obtain ⟨hagree, hcurrent, hordered, hranked⟩ := h.carry (.operation (.pass ms))
  have hbeat' : (st.after (.operation (.pass ms))).registry.beat? i = some (t, timing) := hbeat
  have hafter : (st.after (.operation (.pass ms))).nextTick i = due :=
    (nextTick_of_beat? hbeat').trans (hnext _)
  have hbefore : st.nextTick i = due := (nextTick_of_beat? hbeat).trans (hnext _)
  refine ⟨⟨h.port, h.isCapturing, ⟨t, hbeat, htime'⟩, hagree, hcurrent, hordered, hranked⟩,
    hafter.trans hbefore.symm, hnone, hnone, ?_⟩
  rw [hbefore]
  exact hdue

/-- The next tick is due within a period. -/
theorem nextTick_le (h : st.Paced i port timing) :
    st.nextTick i ≤ st.now + timing.period := by
  obtain ⟨t, hbeat, htime⟩ := h.beat
  obtain ⟨-, hperiod, -⟩ := h.agree.own i t _ hbeat
  rw [nextTick_of_beat? hbeat, ← hperiod]
  exact htime.soon

/-- **What the port writes** is the packet that its address, its name and its timing call
for. -/
theorem packet_of_written? (h : st.Paced i port timing) {bytes : Octets}
    (hw : st.registry.written? i = some bytes) :
    Transmitter.packet timing port.mac port.name = .ok bytes := by
  obtain ⟨s, hs, rfl⟩ := Option.map_eq_some_iff.1 h.port
  obtain ⟨t, hbeat, -⟩ := h.beat
  rw [Registry.beat?, hs, Option.bind_some] at hbeat
  obtain ⟨t', -, hpair⟩ := Option.map_eq_some_iff.1 hbeat
  obtain ⟨rfl, rfl⟩ := Prod.mk.inj hpair
  rw [h.current.timing_of_session? hs]
  exact h.current.packet_of_written? hs hw

end Paced

/-- **A port that is started** has a new ticker. -/
theorem begun_of_started (horder : st.registry.InOrder starts) (hranked : st.registry.Ranked)
    (hidle : st.registry.isCapturing i = false)
    (hstarted : (st.after x).registry.isCapturing i = true) :
    st.registry.Begun (st.after x).registry i := by
  have hchanged : (st.after x).registry.isCapturing i ≠ st.registry.isCapturing i := by
    rw [hstarted, hidle]
    simp
  have hnot : x.sparesPorts = false := by
    refine Bool.eq_false_iff.2 fun hspares => hchanged ?_
    exact (spares_after hspares).any fun s s' hs => by
      rw [Session.isCapturing, hs.capture, Session.isCapturing]
  have hticker : ∀ j, x ≠ .task (.ticker j) := fun j hj => by
    rw [hj] at hnot
    cases hnot
  have htrigger : ∀ deliver, x ≠ .trigger deliver := fun deliver hd => by
    rw [hd] at hnot
    cases hnot
  have hclose : x ≠ .close := fun hc => by
    rw [hc] at hnot
    cases hnot
  rcases prompts_after horder hranked hticker htrigger hclose i with
    hsame | hbegun | hended | ⟨-, hsame, -, -⟩
  · exact absurd hsame.isCapturing hchanged
  · exact hbegun
  · cases hended.isCapturing.symm.trans hstarted
  · exact absurd hsame hchanged

/-- **A port that is started** begins in time, if the clock can count to its first tick. -/
theorem paced_of_started {settings : Settings} {before : List Incident}
    (hst : st = (ofSettings settings).run before)
    (hidle : st.registry.isCapturing i = false)
    (hstarted : (st.after x).registry.isCapturing i = true)
    (hport : ((st.after x).registry.session? i).map (·.port) = some port)
    (hreach : Ticker.reachable
      ((st.after x).now + (st.after x).registry.settings.timing.period) = true) :
    (st.after x).Paced i port (st.after x).registry.settings.timing := by
  have hrun : st.after x = (ofSettings settings).run (before ++ [x]) := by
    rw [hst, run_concat]
  have hbegun := begun_of_started (hst ▸ inOrder_run settings before)
    (hst ▸ ranked_run settings before) hidle hstarted
  have hcurrent : (st.after x).registry.AllCurrent := hrun ▸ allCurrent_run settings _
  obtain ⟨timing', hbeat⟩ := hbegun.ticker
  obtain ⟨s, hs, ht⟩ := Option.bind_eq_some_iff.1 hbeat
  obtain ⟨t, -, hpair⟩ := Option.map_eq_some_iff.1 ht
  obtain rfl : (st.after x).registry.settings.timing = timing' :=
    (hcurrent.timing_of_session? hs).symm.trans (Prod.mk.inj hpair).2
  refine ⟨hport, hstarted, ⟨_, hbeat, ?_⟩, hrun ▸ tickersAgree_run settings _, hcurrent,
    ⟨_, hrun ▸ inOrder_run settings _⟩, hrun ▸ ranked_run settings _⟩
  exact ⟨by simp, fun _ => hreach, Nat.le_add_right _ _, Nat.le_refl _⟩

end Station
end Lldp
