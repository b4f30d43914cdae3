/-
# Requests to transmit

All ports share one mailbox of requests to transmit.  What is in it for a port is put there
when the port is started and, again and again, by its ticker; a ticker that finds no room
waits outside, and is sent away when the port is stopped or gets a new ticker.

So an operation does one of four things to a port (`Prompts`): nothing that has to do with
requests, or it starts the port, stops it, or gives it a new ticker.  Only the first leaves a
ticker waiting, and then the port is captured if it was (`TickersAgree.prompts`).
-/

import Lldp.Proofs.Incidents
import Lldp.Proofs.Registry.Gating

namespace Lldp

namespace Mailbox

variable {σ α : Type} [DecidableEq σ] {b : Mailbox σ α} {sender other : σ} {item : α}

/-- What a sender holds that waits for room. -/
def held (b : Mailbox σ α) (sender : σ) : List (σ × α) := b.waiting.filter (·.1 = sender)

/-- Who gives up does not wait any more. -/
theorem held_withdraw_self : (b.withdraw sender).held sender = [] := by
  rw [held, withdraw, List.filter_filter]
  exact List.filter_eq_nil_iff.2 (by simp)

/-- Others wait on. -/
theorem held_withdraw_of_ne (h : other ≠ sender) :
    (b.withdraw sender).held other = b.held other := by
  rw [held, withdraw, List.filter_filter, held]
  refine List.filter_congr fun w _ => ?_
  by_cases hw : w.1 = other
  · simp [hw, h]
  · simp [hw]

omit [DecidableEq σ] in
/-- An item that is offered never waits: it finds room at once or is dropped. -/
theorem waiting_offer : (b.offer item).waiting = b.waiting := by
  unfold offer
  split_ifs <;> rfl

omit [DecidableEq σ] in
/-- An item that is offered adds nothing to those of another kind. -/
theorem items_offer_of_ne {p : α → Bool} (h : p item = false) :
    (b.offer item).items.filter p = b.items.filter p := by
  unfold offer
  split_ifs
  · simp [push, h]
  · rfl

end Mailbox

/-- What a ticker has outside the mailbox: a request for its port, while it waits for
room. -/
def Ticker.holds (t : Ticker) : List (IfIndex × IfIndex) :=
  match t.phase with
  | .sending _ => [(t.ifIndex, t.ifIndex)]
  | _ => []

/-- Whether other timing is adopted. -/
def Change.IsRetiming (change : Change) : Prop :=
  ∃ interval multiplier, change = .timing interval multiplier ∧ interval ≠ 0 ∧ multiplier ≠ 0

def Operation.IsRetiming (o : Operation) : Prop :=
  ∃ change, o = .request (.apply change) ∧ change.IsRetiming

namespace Registry

variable {r r' r'' : Registry} {i j : IfIndex} {now : Nat} {anew : Prop}

/-- The ticker of a port, and the timing that it should have. -/
def beat? (r : Registry) (i : IfIndex) : Option (Ticker × Timing) :=
  (r.session? i).bind fun s => s.transmitter.ticker.map (·, s.transmitter.timing)

/-- What paces a port is read off its session. -/
theorem beat?_of_session? {s : Session} {t : Ticker} (hs : r.session? i = some s)
    (ht : s.transmitter.ticker = some t) : r.beat? i = some (t, s.transmitter.timing) := by
  rw [beat?, hs, Option.bind_some, ht]
  rfl

/-- The requests that are in the mailbox for a port. -/
def asked (r : Registry) (i : IfIndex) : List IfIndex := r.triggers.items.filter (· = i)

/-- Nothing is done to a port that has to do with requests to transmit.  If it is captured, it
is the same port. -/
structure Undisturbed (r r' : Registry) (i : IfIndex) : Prop where
  isCapturing : r'.isCapturing i = r.isCapturing i
  port : r.isCapturing i = true → (r'.session? i).map (·.port) = (r.session? i).map (·.port)
  beat : r'.beat? i = r.beat? i
  asked : r'.asked i = r.asked i
  held : r'.triggers.held i = r.triggers.held i

namespace Undisturbed

/-- Where nothing happens, a port is not disturbed. -/
theorem refl (r : Registry) (i : IfIndex) : Undisturbed r r i := ⟨rfl, fun _ => rfl, rfl, rfl, rfl⟩

/-- Two changes that do not disturb a port do not do so together. -/
theorem trans (h : Undisturbed r r' i) (h' : Undisturbed r' r'' i) : Undisturbed r r'' i where
  isCapturing := h'.isCapturing.trans h.isCapturing
  port hc := (h'.port (h.isCapturing.trans hc)).trans (h.port hc)
  beat := h'.beat.trans h.beat
  asked := h'.asked.trans h.asked
  held := h'.held.trans h.held

/-- The same requests; and the session of the port may be changed in something else. -/
theorem of_map {change : Session → Session} (ht : r'.triggers = r.triggers)
    (hs : r'.session? i = (r.session? i).map change) (hp : ∀ s, (change s).port = s.port)
    (hchange : ∀ s, r.session? i = some s → (change s).capture = s.capture ∧
      (change s).transmitter.ticker = s.transmitter.ticker ∧
      (change s).transmitter.timing = s.transmitter.timing) : Undisturbed r r' i := by
  refine ⟨?_, fun _ => ?_, ?_, by rw [Registry.asked, ht]; rfl, by rw [ht]⟩
  · rw [Registry.isCapturing, hs, Registry.isCapturing]
    cases hsession : r.session? i with
    | none => rfl
    | some s => exact congrArg Option.isSome (hchange s hsession).1
  · rw [hs, Option.map_map]
    exact congrArg (Option.map · _) (funext hp)
  · rw [beat?, hs, beat?]
    cases hsession : r.session? i with
    | none => rfl
    | some s =>
      obtain ⟨-, hticker, htiming⟩ := hchange s hsession
      show (change s).transmitter.ticker.map (·, (change s).transmitter.timing) = _
      rw [hticker, htiming]
      rfl

/-- Where the mailbox and the session are the same, the port is not disturbed. -/
theorem of_session? (ht : r'.triggers = r.triggers) (hs : r'.session? i = r.session? i) :
    Undisturbed r r' i :=
  @of_map r r' i id ht (by rw [hs, Option.map_id]; rfl) (fun _ => rfl) fun _ _ => ⟨rfl, rfl, rfl⟩

/-- A session is changed in something else. -/
theorem modify {change : Session → Session} (hp : ∀ s, (change s).port = s.port)
    (hchange : ∀ s, r.session? j = some s → (change s).capture = s.capture ∧
      (change s).transmitter.ticker = s.transmitter.ticker ∧
      (change s).transmitter.timing = s.transmitter.timing) :
    Undisturbed r (r.modify j change) i := by
  have hs : (r.modify j change).session? i = if i = j then (r.session? i).map change
      else r.session? i := session?_modify hp
  by_cases hij : i = j
  · subst hij
    rw [if_pos rfl] at hs
    exact of_map rfl hs hp hchange
  · rw [if_neg hij] at hs
    exact of_session? rfl hs

end Undisturbed

/-- A port has a new ticker, of its own period. -/
def TicksAnew (r : Registry) (i : IfIndex) : Prop :=
  ∃ timing : Timing, r.beat? i = some ({ ifIndex := i, period := timing.period }, timing)

/-- A port that was not captured is, and has a new ticker. -/
structure Begun (r r' : Registry) (i : IfIndex) : Prop where
  before : r.isCapturing i = false
  isCapturing : r'.isCapturing i = true
  ticker : r'.TicksAnew i
  held : r'.triggers.held i = []

/-- A port is not captured any more and has no ticker. -/
structure Ended (r' : Registry) (i : IfIndex) : Prop where
  isCapturing : r'.isCapturing i = false
  beat : r'.beat? i = none
  held : r'.triggers.held i = []

/-- **What is done to a port** that has to do with requests to transmit; it gets a new ticker
only if tickers are to be replaced. -/
inductive Prompts (anew : Prop) (r r' : Registry) (i : IfIndex) : Prop
  | undisturbed (h : Undisturbed r r' i)
  /-- The port is started. -/
  | begun (h : Begun r r' i)
  /-- The port is stopped. -/
  | ended (h : Ended r' i)
  /-- The port gets a new ticker. -/
  | retimed (ha : anew) (hc : r'.isCapturing i = r.isCapturing i) (ht : r'.TicksAnew i)
      (hw : r'.triggers.held i = [])

/-- What has begun goes on if the port is left alone. -/
theorem Undisturbed.begun (h : Undisturbed r' r'' i) (hb : Begun r r' i) : Begun r r'' i := by
  obtain ⟨timing, ht⟩ := hb.ticker
  exact ⟨hb.before, h.isCapturing.trans hb.isCapturing, ⟨timing, h.beat.trans ht⟩,
    h.held.trans hb.held⟩

/-- What has ended stays so if the port is left alone, or is stopped again. -/
theorem Undisturbed.ended (h : Undisturbed r r' i) (he : Ended r i) : Ended r' i :=
  ⟨h.isCapturing.trans he.isCapturing, h.beat.trans he.beat, h.held.trans he.held⟩

namespace Prompts

/-- Where tickers may be replaced for one reason, they may for any that follows from it. -/
theorem mono {other : Prop} (himp : anew → other) (h : Prompts anew r r' i) :
    Prompts other r r' i := by
  cases h with
  | undisturbed h => exact .undisturbed h
  | begun h => exact .begun h
  | ended h => exact .ended h
  | retimed ha hc ht hw => exact .retimed (himp ha) hc ht hw

/-- **A start** of a port that is not captured. -/
theorem start (r : Registry) (i j : IfIndex) :
    Undisturbed r (r.start j).2 i ∨ Begun r (r.start j).2 i ∧ i = j := by
  rcases start_cases r j with ⟨-, heq⟩ | ⟨ho, s, lo, hs, -, -, heq⟩
  · rw [heq]
    exact Or.inl (.refl r i)
  have htriggers : (r.start j).2.triggers = (r.triggers.withdraw j).offer j := by
    rw [heq]
    rfl
  by_cases hij : i = j
  · subst hij
    refine Or.inr ⟨⟨?_, ?_, ?_, ?_⟩, rfl⟩
    · rw [opens_eq] at ho
      simp only [Bool.and_eq_true, Bool.not_eq_true'] at ho
      exact ho.1.2
    · rw [isCapturing_start, ho]
      simp
    · refine ⟨s.transmitter.timing, ?_⟩
      rw [beat?, session?_start, if_pos ⟨rfl, ho⟩, hs, ← ifIndex_of_session? hs]
      rfl
    · rw [htriggers, Mailbox.held, Mailbox.waiting_offer]
      exact Mailbox.held_withdraw_self
  · have hsession : (r.start j).2.session? i = r.session? i :=
      session?_start.trans (if_neg fun h => hij h.1)
    refine Or.inl ⟨?_, fun _ => by rw [hsession], by rw [beat?, hsession]; rfl, ?_, ?_⟩
    · rw [isCapturing, hsession]
      rfl
    · rw [asked, htriggers, Mailbox.items_offer_of_ne (by simpa using Ne.symm hij)]
      rfl
    · rw [htriggers, Mailbox.held, Mailbox.waiting_offer]
      exact Mailbox.held_withdraw_of_ne hij

/-- **A port that is stopped** has nobody wait for room in its name. -/
theorem stop_triggers {s : Session} (hs : r.session? j = some s) :
    (r.stop j).2.triggers = r.triggers.withdraw j := by
  rw [Registry.stop, hs]
  rfl

/-- **A stop.** -/
theorem stop (r : Registry) (i j : IfIndex) :
    Undisturbed r (r.stop j).2 i ∨ Ended (r.stop j).2 i := by
  cases hs : r.session? j with
  | none =>
    rw [stop_of_none hs]
    exact Or.inl (.refl r i)
  | some s =>
    have htriggers := stop_triggers hs
    by_cases hij : i = j
    · subst hij
      refine Or.inr ⟨by rw [isCapturing_stop]; simp, ?_, ?_⟩
      · rw [beat?, session?_stop, if_pos rfl, hs]
        rfl
      · rw [htriggers]
        exact Mailbox.held_withdraw_self
    · have hsession : (r.stop j).2.session? i = r.session? i :=
        session?_stop.trans (if_neg hij)
      refine Or.inl ⟨?_, fun _ => by rw [hsession], by rw [beat?, hsession]; rfl,
        by rw [asked, htriggers]; rfl, ?_⟩
      · rw [isCapturing, hsession]
        rfl
      · rw [htriggers]
        exact Mailbox.held_withdraw_of_ne hij

/-- Ports are stopped one after another. -/
theorem halted_trans (h : Undisturbed r r' i ∨ Ended r' i)
    (h' : Undisturbed r' r'' i ∨ Ended r'' i) : Undisturbed r r'' i ∨ Ended r'' i := by
  rcases h' with h' | hended
  · rcases h with h | hended
    · exact Or.inl (h.trans h')
    · exact Or.inr (h'.ended hended)
  · exact Or.inr hended

/-- A port that is left alone or stopped gets no new ticker. -/
theorem of_halted (h : Undisturbed r r' i ∨ Ended r' i) : Prompts anew r r' i := by
  rcases h with h | h
  · exact .undisturbed h
  · exact .ended h

/-- To start or stop a port as its switches say is one of the four for every port. -/
theorem follow (r : Registry) (i j : IfIndex) (on : Bool) : Prompts anew r (r.follow j on) i := by
  unfold Registry.follow
  split_ifs
  · rcases start r i j with h | ⟨h, -⟩
    · exact .undisturbed h
    · exact .begun h
  · exact .of_halted (stop r i j)

/-- **Ports are started or stopped**, one after another. -/
theorem followAll (is : List IfIndex) (i : IfIndex) (on : Bool) :
    ∀ r : Registry, Prompts anew r (r.followAll is on) i := by
  cases on with
  | true =>
    have hall : ∀ r : Registry, Undisturbed r (r.followAll is true) i ∨
        Begun r (r.followAll is true) i := by
      induction is with
      | nil => exact fun r => Or.inl (.refl r i)
      | cons j is ih =>
        intro r
        rcases start r i j with h | ⟨h, rfl⟩
        · rcases ih (r.start j).2 with h' | h'
          · exact Or.inl (h.trans h')
          · exact Or.inr ⟨h.isCapturing ▸ h'.before, h'.isCapturing, h'.ticker, h'.held⟩
        · rcases ih (r.start i).2 with h' | h'
          · exact Or.inr (h'.begun h)
          · cases h.isCapturing.symm.trans h'.before
    intro r
    rcases hall r with h | h
    · exact .undisturbed h
    · exact .begun h
  | false =>
    have hall : ∀ r : Registry, Undisturbed r (r.followAll is false) i ∨
        Ended (r.followAll is false) i := by
      induction is with
      | nil => exact fun r => Or.inl (.refl r i)
      | cons j is ih => exact fun r => halted_trans (stop r i j) (ih _)
    exact fun r => .of_halted (hall r)

/-- Something else is done first. -/
theorem after (h : Undisturbed r r' i) (h' : Prompts anew r' r'' i) : Prompts anew r r'' i := by
  cases h' with
  | undisturbed h' => exact .undisturbed (h.trans h')
  | begun h' => exact .begun ⟨h.isCapturing ▸ h'.before, h'.isCapturing, h'.ticker, h'.held⟩
  | ended h' => exact .ended h'
  | retimed ha hc ht hw => exact .retimed ha (hc.trans h.isCapturing) ht hw

/-- To record the state of a link disturbs no ticker. -/
theorem setLink {state : LinkState} : Undisturbed r (r.setLink j state).2 i := by
  rw [setLink_snd]
  exact .modify (fun _ => rfl) fun _ _ => ⟨rfl, rfl, rfl⟩

/-- A new port disturbs no other, and asks for nothing before it is started. -/
theorem add {port : Port} : Undisturbed r (r.add port).2 i := by
  cases hs : r.session? port.ifIndex with
  | some s =>
    rw [add_of_session? hs]
    exact .refl r i
  | none =>
    have htriggers : (r.add port).2.triggers = r.triggers := by rw [Registry.add, hs]
    by_cases hi : i = port.ifIndex
    · have hnew : (r.add port).2.session? i = some (.ofPort port r.settings.timing) := by
        rw [session?_add hs, if_pos hi]
      have hold : r.session? i = none := hi ▸ hs
      have hidle : r.isCapturing i = false := by
        rw [isCapturing, hold]
        rfl
      refine ⟨?_, fun hc => ?_, ?_, by rw [asked, htriggers]; rfl, by rw [htriggers]⟩
      · rw [hidle, isCapturing, hnew]
        rfl
      · cases hidle.symm.trans hc
      · rw [beat?, beat?, hnew, hold]
        rfl
    · refine .of_session? htriggers ?_
      rw [session?_add hs, if_neg hi]

/-- **A port that is forgotten** is stopped, and no other is disturbed. -/
theorem remove (r : Registry) (i j : IfIndex) : Prompts anew r (r.remove j).2 i := by
  cases hs : r.session? j with
  | none =>
    rw [remove_of_none hs]
    exact .undisturbed (.refl r i)
  | some s =>
    have htriggers : (r.remove j).2.triggers = r.triggers.withdraw j := by
      rw [remove_of_session? hs, ← stop_triggers hs, cancelAlarm]
      split <;> rfl
    have hsession : (r.remove j).2.session? i = if i = j then none else r.session? i :=
      session?_remove
    by_cases hij : i = j
    · subst hij
      rw [if_pos rfl] at hsession
      refine .ended ⟨by rw [isCapturing, hsession]; rfl, by rw [beat?, hsession]; rfl, ?_⟩
      rw [htriggers]
      exact Mailbox.held_withdraw_self
    · rw [if_neg hij] at hsession
      refine .undisturbed ⟨?_, fun _ => by rw [hsession], by rw [beat?, hsession]; rfl,
        by rw [asked, htriggers]; rfl, ?_⟩
      · rw [isCapturing, hsession]
        rfl
      · rw [htriggers]
        exact Mailbox.held_withdraw_of_ne hij

/-- **New tickers** for all ports that have one, and those who waited are sent away. -/
theorem retime (hticking : ∀ s, r.session? i = some s →
    s.transmitter.ticker.isSome = s.isCapturing) (timing : Timing) :
    Prompts True r (r.retime timing) i := by
  have hsession : (r.retime timing).session? i = (r.session? i).map (·.retime timing) :=
    session?_retime
  have hcapturing : (r.retime timing).isCapturing i = r.isCapturing i := by
    rw [isCapturing, hsession, Option.any_map]
    rfl
  have hheld : (r.retime timing).triggers.held i =
      (r.triggers.held i).filter fun w => !r.isCapturing w.1 := by
    simp only [Mailbox.held, Registry.retime, List.filter_filter, Bool.and_comm, isCapturing]
  have hsender : ∀ w ∈ r.triggers.held i, w.1 = i := fun w hw => by
    simpa using (List.mem_filter.1 hw).2
  cases hs : r.session? i with
  | none =>
    have hidle : r.isCapturing i = false := by rw [isCapturing, hs]; rfl
    refine .undisturbed ⟨hcapturing, fun _ => by rw [hsession, hs]; rfl,
      by rw [beat?, hsession, hs, beat?, hs]; rfl, rfl, ?_⟩
    rw [hheld, List.filter_eq_self]
    intro w hw
    simp [hsender w hw, hidle]
  | some s =>
    have hcurrent : r.isCapturing i = s.isCapturing := by rw [isCapturing, hs]; rfl
    cases hc : s.isCapturing with
    | true =>
      refine .retimed trivial hcapturing ⟨timing, ?_⟩ ?_
      · rw [beat?, hsession, hs, ← ifIndex_of_session? hs]
        simp [Session.retime, hc, Transmitter.startTicker, Transmitter.setTiming]
      · rw [hheld, List.filter_eq_nil_iff]
        intro w hw
        simp [hsender w hw, hcurrent, hc]
    | false =>
      have hnone : s.transmitter.ticker = none := by simpa [hc] using hticking s hs
      refine .undisturbed ⟨hcapturing, fun _ => by rw [hsession, hs]; rfl, ?_, rfl, ?_⟩
      · rw [beat?, hsession, hs, beat?, hs]
        simp [Session.retime, hc, Transmitter.setTiming, hnone]
      · rw [hheld, List.filter_eq_self]
        intro w hw
        simp [hsender w hw, hcurrent, hc]

/-- Only timing that is adopted replaces tickers. -/
theorem apply (hticking : ∀ s, r.session? i = some s →
    s.transmitter.ticker.isSome = s.isCapturing) (change : Change) :
    Prompts change.IsRetiming r (r.apply change).2 i := by
  cases change with
  | globalEnable on =>
    have hset : Undisturbed r (r.setEnabled on) i := .of_session? rfl rfl
    rw [apply_globalEnable]
    exact after hset (followAll r.indexes i on _)
  | portEnable j on =>
    have hset : Undisturbed r (r.setPortEnabled j on) i :=
      .modify (fun _ => rfl) fun _ _ => ⟨rfl, rfl, rfl⟩
    rw [apply_portEnable]
    exact after hset (follow _ i j on)
  | timing interval multiplier =>
    rcases apply_timing_cases r interval multiplier with ⟨-, heq⟩ | ⟨timing, rfl, rfl, heq⟩
    · rw [heq]
      exact .undisturbed (.refl r i)
    · rw [heq]
      exact (retime hticking timing).mono fun _ =>
        ⟨_, _, rfl, Nat.ne_of_gt timing.interval_pos, Nat.ne_of_gt timing.multiplier_pos⟩

/-- **A request replaces tickers** only if it has other timing adopted. -/
theorem execute (hticking : ∀ s, r.session? i = some s →
    s.transmitter.ticker.isSome = s.isCapturing) (q : Request) :
    Prompts (∃ change, q = .apply change ∧ change.IsRetiming) r (r.execute q).2 i := by
  cases q with
  | add port => exact .undisturbed add
  | remove j => exact remove r i j
  | reportLink j state =>
    show Prompts _ r (r.reportLink j state).2 i
    rw [reportLink_snd]
    exact after setLink (follow _ i j _)
  | neighbors start count => exact .undisturbed (.refl r i)
  | counters j => exact .undisturbed (.refl r i)
  | apply change => exact (apply hticking change).mono fun ha => ⟨change, rfl, ha⟩

/-- No packet that comes in disturbs a ticker. -/
theorem handleInbound (r : Registry) (now : Nat) (packet : Inbound) (i : IfIndex) :
    Undisturbed r (r.handleInbound now packet) i := by
  rcases handleInbound_cases r now packet with
    ⟨-, heq⟩ | ⟨s, -, -, ⟨-, heq⟩ | ⟨n, -, heq⟩⟩
  · rw [heq]
    exact .refl r i
  · rw [heq]
    exact .modify (fun _ => rfl) fun _ _ => ⟨rfl, rfl, rfl⟩
  · have halarms : Undisturbed r { r with alarms :=
        ({ s.receiver with neighbor := some n }.refresh r.alarms packet.ifIndex
          (now + n.frame.ttl.toMillis)).2 } i := .of_session? rfl rfl
    rw [heq]
    exact halarms.trans (.modify (fun _ => rfl) fun _ _ => ⟨rfl, rfl, rfl⟩)

/-- **A request that is met** stirs no ticker. -/
theorem handleTransmit (r : Registry) (i j : IfIndex) : Undisturbed r (r.handleTransmit j) i := by
  have hcurrent : ∀ (t : Transmitter) source name,
      (t.current source name).2.ticker = t.ticker ∧
        (t.current source name).2.timing = t.timing := by
    intro t source name
    unfold Transmitter.current Transmitter.build
    split
    · exact ⟨rfl, rfl⟩
    · split <;> exact ⟨rfl, rfl⟩
  rcases handleTransmit_cases r j with ⟨-, heq⟩ | ⟨s, c, hs, -, hcases⟩
  · rw [heq]
    exact .refl r i
  have hticker := hcurrent s.transmitter s.port.mac s.port.name
  rcases hcases with ⟨-, heq⟩ | ⟨-, -, heq⟩ | ⟨-, lo, -, heq⟩
  · rw [heq]
    refine .modify (fun _ => rfl) fun t ht => ?_
    obtain rfl := Option.some.inj (hs.symm.trans ht)
    exact ⟨rfl, hticker⟩
  · rw [heq]
    refine .modify (fun _ => rfl) fun t ht => ?_
    obtain rfl := Option.some.inj (hs.symm.trans ht)
    exact ⟨rfl, hticker⟩
  · rw [heq]
    have hwrite : Undisturbed r { r with backend := lo } i := .of_session? rfl rfl
    refine hwrite.trans (.modify (fun _ => rfl) fun t ht => ?_)
    obtain rfl := Option.some.inj (hs.symm.trans ht)
    exact ⟨rfl, hticker⟩

/-- To forget a neighbour disturbs no ticker. -/
theorem handleExpiry (r : Registry) (i j : IfIndex) : Undisturbed r (r.handleExpiry j) i := by
  unfold Registry.handleExpiry
  cases r.session? j with
  | none => exact .refl r i
  | some s => exact .modify (fun _ => rfl) fun _ _ => ⟨rfl, rfl, rfl⟩

/-- **To stop all ports** leaves none with a ticker. -/
theorem shutdown (r : Registry) (i : IfIndex) : Prompts anew r r.shutdown i := by
  have hcancel : ∀ (q : Registry) j, Undisturbed q (q.cancelAlarm j) i := by
    intro q j
    unfold Registry.cancelAlarm
    cases q.session? j with
    | none => exact .refl q i
    | some s =>
      have halarms : Undisturbed q { q with alarms := (s.receiver.cancel q.alarms).2 } i :=
        .of_session? rfl rfl
      exact halarms.trans (.modify (fun _ => rfl) fun _ _ => ⟨rfl, rfl, rfl⟩)
  exact .of_halted (@rel_shutdown (fun q q' => Undisturbed q q' i ∨ Ended q' i)
    (fun q => .inl (.refl q i)) (fun _ _ _ => halted_trans) (fun q j => stop q i j)
    (fun q j => .inl (hcancel q j)) r)

/-- **Every operation** does one of the four things to a port. -/
theorem operate (hticking : ∀ s, r.session? i = some s →
    s.transmitter.ticker.isSome = s.isCapturing) (now : Nat) (o : Operation) :
    Prompts o.IsRetiming r (r.operate now o).2 i := by
  cases o with
  | request q =>
    exact (execute hticking q).mono fun ⟨change, hq, ha⟩ => ⟨change, congrArg _ hq, ha⟩
  | setLink j state => exact .undisturbed setLink
  | start j => exact follow r i j true
  | stop j => exact follow r i j false
  | inbound packet => exact .undisturbed (handleInbound r now packet i)
  | transmit j => exact .undisturbed (handleTransmit r i j)
  | fire j =>
    refine .undisturbed ?_
    show Undisturbed r ((r.alarms.dueOf? now j).elim r (r.expire now)) i
    cases r.alarms.dueOf? now j with
    | none => exact .refl r i
    | some a =>
      have htake : Undisturbed r { r with alarms := r.alarms.take now a } i :=
        .of_session? rfl rfl
      exact htake.trans (handleExpiry _ i a.ifIndex)
  | links use => exact .undisturbed (.of_session? rfl rfl)
  | pass ms => exact .undisturbed (.refl r i)

end Prompts

/-! ### Tickers and those who wait -/

/-- A ticker asks for its own port, at the pace of the port's timing, and what is held
outside the mailbox for a port is what its ticker waits to leave there. -/
structure TickersAgree (r : Registry) : Prop where
  idle : ∀ i, r.beat? i = none → r.triggers.held i = []
  own : ∀ i t timing, r.beat? i = some (t, timing) →
    t.ifIndex = i ∧ t.period = timing.period ∧ r.triggers.held i = t.holds

/-- A new ticker is for its own port, at the pace in force, and waits for nothing. -/
theorem TicksAnew.own (h : r.TicksAnew i) {t : Ticker} {timing : Timing}
    (hb : r.beat? i = some (t, timing)) :
    t.ifIndex = i ∧ t.period = timing.period ∧ t.holds = [] := by
  obtain ⟨timing', hnew⟩ := h
  obtain ⟨rfl, rfl⟩ := Prod.mk.inj (Option.some.inj (hnew.symm.trans hb))
  exact ⟨rfl, rfl, rfl⟩

/-- Where no port is registered, tickers agree. -/
theorem TickersAgree.ofSettings (settings : Settings) :
    (Registry.ofSettings settings).TickersAgree :=
  ⟨fun _ _ => rfl, fun _ _ _ h => by cases h⟩

/-- **What is done to one port after another** leaves tickers and those who wait in
agreement. -/
theorem TickersAgree.prompts (h : r.TickersAgree) (hp : ∀ i, Prompts anew r r' i) :
    r'.TickersAgree where
  idle i hb := by
    cases hp i with
    | undisturbed h' => exact h'.held.trans (h.idle i (h'.beat ▸ hb))
    | begun h' => exact h'.held
    | ended h' => exact h'.held
    | retimed _ _ _ hw => exact hw
  own i t timing hb := by
    cases hp i with
    | undisturbed h' =>
      rw [h'.held]
      exact h.own i t timing (h'.beat ▸ hb)
    | begun h' =>
      rw [h'.held]
      obtain ⟨hi, hperiod, hnone⟩ := h'.ticker.own hb
      exact ⟨hi, hperiod, hnone.symm⟩
    | ended h' => cases h'.beat.symm.trans hb
    | retimed _ _ ht hw =>
      rw [hw]
      obtain ⟨hi, hperiod, hnone⟩ := ht.own hb
      exact ⟨hi, hperiod, hnone.symm⟩

/-- Where nothing is done to any port. -/
theorem TickersAgree.undisturbed (h : r.TickersAgree) (hu : ∀ i, Undisturbed r r' i) :
    r'.TickersAgree :=
  @TickersAgree.prompts r r' False h fun i => .undisturbed (hu i)

end Registry
end Lldp
