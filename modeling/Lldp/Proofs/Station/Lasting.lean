/-
# How long tickers last

As long as somebody reads the requests to transmit, the ticker of a captured port ends for
one reason only: when it was about to begin, its first tick was beyond what the clock can
count to (`Station.Moves.of_finished`).  It is replaced when the port is started anew or gets
other timing, and goes with the port's capture; otherwise only its own steps move it
(`Station.moves_after`), and the first of them decides whether it begins
(`Station.ticker?_step_of_starting`).

The mailbox of requests stays open or closed as it is, whatever operations, tasks and alarms
do, until its reader goes away (`Station.closed_after`).
-/

import Lldp.Proofs.Ticker

namespace Lldp

/-! ### The reader of requests -/

namespace Mailbox

variable {σ α : Type} [DecidableEq σ] {b : Mailbox σ α} {sender : σ} {item : α}

omit [DecidableEq σ] in
/-- An item that is left neither opens a mailbox nor closes it. -/
theorem closed_offer : (b.offer item).closed = b.closed := by
  unfold offer
  split_ifs <;> rfl

/-- Nor does a sender that waits no more. -/
theorem closed_settle : (b.settle sender).closed = b.closed := by
  unfold settle
  split
  · split_ifs <;> rfl
  · rfl

end Mailbox

/-- **Whatever a ticker does with the mailbox**, it leaves it open or closed. -/
theorem Ticker.Posts.closed {i : IfIndex} {box box' : Triggers} (h : Posts i box box') :
    box'.closed = box.closed := by
  cases h with
  | nothing | pushed | waits => rfl
  | settled => exact Mailbox.closed_settle

namespace Registry

variable {r : Registry} {i : IfIndex} {now : Nat}

/-- A port that starts withdraws a request and leaves one at the most. -/
theorem closed_start : (r.start i).2.triggers.closed = r.triggers.closed := by
  rcases start_cases r i with ⟨-, heq⟩ | ⟨-, s, lo, -, -, -, heq⟩
  · rw [heq]
  · rw [heq]
    exact Mailbox.closed_offer

/-- A port that stops withdraws its request. -/
theorem closed_stop : (r.stop i).2.triggers.closed = r.triggers.closed := by
  unfold stop
  split <;> rfl

/-- Alarms have nothing to do with requests. -/
theorem closed_cancelAlarm : (r.cancelAlarm i).triggers.closed = r.triggers.closed := by
  unfold cancelAlarm
  split <;> rfl

/-- To follow is to start or to stop. -/
theorem closed_follow {on : Bool} : (r.follow i on).triggers.closed = r.triggers.closed := by
  unfold follow
  split_ifs
  · exact closed_start
  · exact closed_stop

/-- However many ports follow, the mailbox stays as open as it was. -/
theorem closed_followAll (is : List IfIndex) (on : Bool) (r : Registry) :
    (r.followAll is on).triggers.closed = r.triggers.closed := by
  induction is generalizing r with
  | nil => rfl
  | cons i is ih => exact (ih (r.follow i on)).trans closed_follow

/-- What is recorded of a link is no request. -/
theorem closed_setLink {state : LinkState} :
    (r.setLink i state).2.triggers.closed = r.triggers.closed := by
  rw [setLink_snd]
  rfl

/-- A port that is forgotten is stopped, and no more is done about its requests. -/
theorem closed_remove : (r.remove i).2.triggers.closed = r.triggers.closed := by
  cases hs : r.session? i with
  | none => rw [remove_of_none hs]
  | some s =>
    rw [remove_of_session? hs]
    exact closed_cancelAlarm.trans closed_stop

/-- **No change of settings** closes the mailbox, not even that the protocol is not to run: the
tickers of ports that are started again find it open. -/
theorem closed_apply (change : Change) :
    (r.apply change).2.triggers.closed = r.triggers.closed := by
  cases change with
  | globalEnable on => exact closed_followAll _ on _
  | portEnable j on =>
    rw [apply_portEnable]
    exact closed_follow
  | timing interval multiplier =>
    rcases apply_timing_cases r interval multiplier with ⟨-, heq⟩ | ⟨timing, -, -, heq⟩
    · rw [heq]
    · rw [heq]
      rfl

/-- **No request of a client** opens or closes the mailbox. -/
theorem closed_execute (q : Request) : (r.execute q).2.triggers.closed = r.triggers.closed := by
  cases q with
  | add port =>
    show (r.add port).2.triggers.closed = _
    unfold add
    split <;> rfl
  | remove j => exact closed_remove
  | reportLink j state =>
    show (r.reportLink j state).2.triggers.closed = _
    rw [reportLink_snd]
    exact closed_follow.trans closed_setLink
  | neighbors start count => rfl
  | counters j => rfl
  | apply change => exact closed_apply change

/-- A packet that comes in asks for none to be sent. -/
theorem closed_handleInbound {packet : Inbound} :
    (r.handleInbound now packet).triggers.closed = r.triggers.closed := by
  rcases handleInbound_cases r now packet with
    ⟨-, heq⟩ | ⟨s, -, -, ⟨-, heq⟩ | ⟨n, -, heq⟩⟩
  · rw [heq]
  · rw [heq]
    rfl
  · rw [heq]
    rfl

/-- A request that was taken is met, or not, without the mailbox. -/
theorem closed_handleTransmit : (r.handleTransmit i).triggers.closed = r.triggers.closed := by
  rcases handleTransmit_cases r i with
    ⟨-, heq⟩ | ⟨s, c, -, -, ⟨-, heq⟩ | ⟨-, -, heq⟩ | ⟨-, lo, -, heq⟩⟩
  · rw [heq]
  · rw [heq]
    rfl
  · rw [heq]
    rfl
  · rw [heq]
    rfl

/-- An alarm that goes off concerns what was heard. -/
theorem closed_handleExpiry : (r.handleExpiry i).triggers.closed = r.triggers.closed := by
  unfold handleExpiry
  split <;> rfl

/-- To stop all ports is not yet to go away: the mailbox is closed only when the dispatcher is
gone. -/
theorem closed_shutdown : r.shutdown.triggers.closed = r.triggers.closed :=
  rel_shutdown (R := fun q q' => q'.triggers.closed = q.triggers.closed) (fun _ => rfl)
    (fun _ _ _ h h' => h'.trans h) (fun _ _ => closed_stop) (fun _ _ => closed_cancelAlarm) r

/-- **No operation** opens or closes the mailbox of requests. -/
theorem closed_operate (o : Operation) :
    (r.operate now o).2.triggers.closed = r.triggers.closed := by
  cases o with
  | request q => exact closed_execute q
  | setLink j state => exact closed_setLink
  | start j => exact closed_start
  | stop j => exact closed_stop
  | inbound packet => exact closed_handleInbound
  | transmit j => exact closed_handleTransmit
  | fire j =>
    show ((r.alarms.dueOf? now j).elim r (r.expire now)).triggers.closed = _
    cases r.alarms.dueOf? now j with
    | none => rfl
    | some a => exact closed_handleExpiry
  | links use => rfl
  | pass ms => rfl

end Registry

/-! ### A ticker that ends -/

/-- A time one interval from now is later than the clock's source can count to. -/
def Timing.Overruns (timing : Timing) (now : Nat) : Prop :=
  Ticker.lastSecond < Ticker.firstSecond + now / 1000 + timing.interval

instance {timing : Timing} {now : Nat} : Decidable (timing.Overruns now) :=
  inferInstanceAs (Decidable (_ < _))

/-- What is too late now is so later. -/
theorem Timing.Overruns.mono {timing : Timing} {now later : Nat} (hle : now ≤ later)
    (h : timing.Overruns now) : timing.Overruns later := by
  have hseconds : now / 1000 ≤ later / 1000 := Nat.div_le_div_right hle
  unfold Overruns at h ⊢
  omega

namespace Ticker

variable {t : Ticker} {box : Triggers} {now stamp : Nat} {link : LinkState}
  {done : Ticker × Triggers}

/-- A period is a whole number of seconds, and adds as many to what the clock's source
shows. -/
theorem reachable_add_period {timing : Timing} :
    reachable (now + timing.period) = false ↔ timing.Overruns now := by
  have hseconds : (now + timing.period) / 1000 = now / 1000 + timing.interval :=
    Nat.add_mul_div_right now timing.interval (by decide)
  rw [reachable, hseconds, decide_eq_false_iff_not, Nat.not_le, ← Nat.add_assoc]
  rfl

/-- **A turn is the last**, while somebody reads, only of a ticker that cannot begin. -/
theorem Turn.of_finished (h : Turn t now stamp link box done) (hopen : box.closed = false)
    (hended : done.1.phase = .finished) :
    t = { done.1 with phase := .starting } ∧ reachable (now + t.period) = false := by
  cases h with
  | despairs hphase hreach =>
    obtain ⟨i, period, phase⟩ := t
    obtain rfl : phase = .starting := hphase
    exact ⟨rfl, hreach⟩
  | begins | skips | asks | waits | goesOn => cases hended
  | refused _ _ _ _ _ hclosed | leaves _ _ hclosed => cases hopen.symm.trans hclosed

end Ticker

namespace Station

variable {st : Station} {i : IfIndex} {x : Incident} {t : Ticker} {starts : List IfIndex}

/-- A task that reads a capture does not touch the requests to transmit. -/
theorem triggers_captureStep (st : Station) (t : CaptureTask) :
    (st.captureStep t).registry.triggers = st.registry.triggers := by
  unfold captureStep
  cases t.phase with
  | watching | checking | holding =>
    dsimp only
    split_ifs <;> rfl
  | opening =>
    dsimp only
    split <;> rfl
  | queueing | waiting => rfl
  | reading =>
    show (st.captureRead t).registry.triggers = _
    unfold captureRead
    split
    · rfl
    · dsimp only
      split <;> rfl
  | passing bytes =>
    show (st.capturePass t bytes).registry.triggers = _
    unfold capturePass
    split <;> rfl
  | sending =>
    dsimp only
    split_ifs <;> rfl

/-- **No task of a station** opens or closes the mailbox of requests. -/
theorem closed_step (st : Station) (task : StationTask) :
    (st.step task).registry.triggers.closed = st.registry.triggers.closed := by
  cases task with
  | capture generation =>
    unfold step
    dsimp only
    split
    · rfl
    · split_ifs
      · rw [triggers_captureStep]
      · rfl
  | ticker j =>
    rcases step_ticker st j with heq | ⟨s, t, -, -, -, heq⟩
    · rw [heq]
    · rw [heq]
      exact (t.posts_step st.now st.stamp s.link st.registry.triggers).closed

/-- **Requests go on being read or not**, whatever happens, until their reader goes away. -/
theorem closed_after (hclose : x ≠ .close) :
    (st.after x).registry.triggers.closed = st.registry.triggers.closed := by
  cases x with
  | task task => exact closed_step st task
  | operation o => exact Registry.closed_operate o
  | expiry j => exact Registry.closed_handleExpiry
  | shutdown => exact Registry.closed_shutdown
  | packet deliver =>
    unfold after
    cases st.inbound.take? with
    | none => rfl
    | some item =>
      cases deliver with
      | true => exact Registry.closed_handleInbound
      | false => rfl
  | trigger deliver =>
    unfold after
    cases htake : st.registry.triggers.take? with
    | none => rfl
    | some item =>
      obtain ⟨rest, -, hbox⟩ := Mailbox.take?_eq_some_iff.1 htake
      have hsame : item.2.closed = st.registry.triggers.closed := by rw [hbox]
      cases deliver with
      | true => exact Registry.closed_handleTransmit.trans hsame
      | false => exact hsame
  | turn => rfl
  | exit => rfl
  | close => exact absurd rfl hclose

/-- **What an incident does to the ticker of a port.** -/
inductive Moves (st : Station) (x : Incident) (i : IfIndex) : Prop
  /-- The port has the ticker that it had, or has none as before. -/
  | stays (h : (st.after x).ticker? i = st.ticker? i)
  /-- The port has no ticker any more. -/
  | gone (h : (st.after x).ticker? i = none)
  /-- The port has a new ticker. -/
  | anew (timing : Timing)
      (h : (st.after x).ticker? i = some { ifIndex := i, period := timing.period })
  /-- The ticker makes its step. -/
  | turns (t : Ticker) (link : LinkState) (hx : x = .task (.ticker i))
      (ht : st.ticker? i = some t)
      (hready : t.isReady st.now st.registry.triggers = true)
      (h : (st.after x).ticker? i =
        some (t.step st.now st.stamp link st.registry.triggers).1)

/-- What leaves a port its ticker and timing does not move the ticker. -/
theorem Moves.of_beat {r : Registry} (hr : (st.after x).registry = r)
    (h : r.beat? i = st.registry.beat? i) : st.Moves x i :=
  .stays (by rw [ticker?_eq_beat?, hr, h, ticker?_eq_beat?])

/-- **Only its own step moves a ticker** on: whatever else happens leaves it, replaces it or
takes it away. -/
theorem moves_after (hagree : st.registry.TickersAgree) (horder : st.registry.InOrder starts)
    (hranked : st.registry.Ranked) (x : Incident) (i : IfIndex) : st.Moves x i := by
  -- `prompts_after` tells of everything but steps of tickers, requests that are taken out and
  -- the end of the reader.
  by_cases hticker : ∃ j, x = .task (.ticker j)
  · obtain ⟨j, rfl⟩ := hticker
    by_cases hij : i = j
    · subst hij
      rcases step_ticker st i with heq | ⟨s, t, hs, ht, hready, heq⟩
      · exact .of_beat (congrArg Station.registry heq) rfl
      · have hafter : (st.step (.ticker i)).ticker? i =
            some (t.step st.now st.stamp s.link st.registry.triggers).1 := by
          have hsession : (st.step (.ticker i)).registry.session? i = _ :=
            (congrArg (·.registry.session? i) heq).trans session?_withTicker
          rw [ticker?, hsession, if_pos rfl, hs]
          rfl
        have hbefore : st.ticker? i = some t := by
          rw [ticker?, hs, Option.bind_some, ht]
        exact .turns t s.link rfl hbefore hready hafter
    · exact .of_beat rfl (undisturbed_step_of_ne hagree hij).beat
  by_cases htrigger : ∃ deliver, x = .trigger deliver
  · obtain ⟨deliver, rfl⟩ := htrigger
    cases htake : st.registry.triggers.take? with
    | none =>
      have hsame : st.after (.trigger deliver) = st := by rw [Station.after, htake]
      exact .of_beat (congrArg Station.registry hsame) rfl
    | some item => exact .of_beat rfl (undisturbed_trigger htake deliver i).1.beat
  by_cases hclose : x = .close
  · subst hclose
    exact .of_beat rfl rfl
  rcases prompts_after horder hranked (fun j hj => hticker ⟨j, hj⟩)
    (fun deliver hd => htrigger ⟨deliver, hd⟩) hclose i with
    hsame | hbegun | hended | ⟨-, -, hnew, -⟩
  · exact .of_beat rfl hsame.beat
  · obtain ⟨timing, hbeat⟩ := hbegun.ticker
    exact .anew timing (by rw [ticker?_eq_beat?, hbeat]; rfl)
  · exact .gone (by rw [ticker?_eq_beat?, hended.beat]; rfl)
  · obtain ⟨timing, hbeat⟩ := hnew
    exact .anew timing (by rw [ticker?_eq_beat?, hbeat]; rfl)

/-- **A ticker that ends** while requests are read was about to begin, and its first tick
was beyond what the clock can count to. -/
theorem Moves.of_finished (h : st.Moves x i) (hopen : st.registry.triggers.closed = false)
    (ht : (st.after x).ticker? i = some t) (hended : t.phase = .finished) :
    st.ticker? i = some t ∨
      st.ticker? i = some { t with phase := .starting } ∧
        Ticker.reachable (st.now + t.period) = false := by
  cases h with
  | stays hsame => exact Or.inl (hsame.symm.trans ht)
  | gone hnone => cases hnone.symm.trans ht
  | anew timing hnew =>
    obtain rfl := Option.some.inj (hnew.symm.trans ht)
    cases hended
  | turns t' link _ hbefore hready hstep =>
    obtain rfl := Option.some.inj (hstep.symm.trans ht)
    have hturn := Ticker.turn_step st.stamp link hready
    obtain ⟨heq, hreach⟩ := hturn.of_finished hopen hended
    refine Or.inr ⟨hbefore.trans (congrArg some heq), ?_⟩
    rw [hturn.keeps.2]
    exact hreach

/-- **A captured port** has a ticker, of the period in force. -/
theorem exists_ticker (hagree : st.registry.TickersAgree) (horder : st.registry.InOrder starts)
    (hcurrent : st.registry.AllCurrent) (hcaptured : st.registry.isCapturing i = true) :
    ∃ t, st.ticker? i = some t ∧ t.ifIndex = i ∧
      t.period = st.registry.settings.timing.period := by
  obtain ⟨s, hs, hcapturing⟩ := (Option.any_eq_true ..).1 hcaptured
  have hsome := (horder.ticking i s hs).trans hcapturing
  obtain ⟨t, ht⟩ := Option.isSome_iff_exists.1 hsome
  obtain ⟨hown, hperiod, -⟩ := hagree.own i t _ (Registry.beat?_of_session? hs ht)
  refine ⟨t, ?_, hown, ?_⟩
  · rw [ticker?, hs, Option.bind_some, ht]
  · rw [hperiod, hcurrent.timing_of_session? hs]

/-- **A ticker that is about to begin** reads the clock in its next step: it lies down until
its first tick, or ends. -/
theorem ticker?_step_of_starting {timing : Timing} (ht : st.ticker? i = some t)
    (hperiod : t.period = timing.period) (hphase : t.phase = .starting) :
    (st.step (.ticker i)).ticker? i = some { t with
      phase := if timing.Overruns st.now then .finished
        else .sleeping (st.now + timing.period) st.stamp } := by
  obtain ⟨s, hs, hticker⟩ := Option.bind_eq_some_iff.1 ht
  have hready : (st.ticker? i).any (·.isReady st.now st.registry.triggers) = true := by
    rw [ht, Option.any_some, Ticker.isReady, hphase]
  have hdone : (t.step st.now st.stamp s.link st.registry.triggers).1 = { t with
      phase := if timing.Overruns st.now then .finished
        else .sleeping (st.now + timing.period) st.stamp } := by
    rw [Ticker.step, hphase, hperiod]
    dsimp only
    by_cases hover : timing.Overruns st.now
    · rw [if_pos hover, Ticker.reachable_add_period.2 hover]
      rfl
    · have hreach : Ticker.reachable (st.now + timing.period) = true := by
        simpa using mt Ticker.reachable_add_period.1 hover
      rw [if_neg hover, if_pos hreach]
  have hsession : (st.step (.ticker i)).registry.session? i =
      some (s.withTicker (t.step st.now st.stamp s.link st.registry.triggers).1) := by
    rw [step, if_pos hready]
    simp only [tickerStep, hs, hticker]
    exact session?_withTicker.trans (by rw [if_pos rfl, hs]; rfl)
  rw [ticker?, hsession, ← hdone]
  rfl

end Station
end Lldp
