/-
# Requests to transmit along a run

The ticker of a port moves itself and what it has in the mailbox, and is of no concern to
other ports (`Ticker.step_of_ne`).  With what operations do (`Registry.Prompts.operate`) it
follows that along every run a ticker asks for its own port, at the pace of the timing of
the port, and that nobody waits for room but tickers of captured ports
(`tickersAgree_run`).
-/

import Lldp.Proofs.Registry.Prompting
import Lldp.Proofs.Station.Readers

namespace Lldp

namespace Ticker

variable {t : Ticker} {box : Triggers} {i : IfIndex}

/-- A ticker keeps its port and its period. -/
theorem step_keeps (t : Ticker) (now stamp : Nat) (link : LinkState) (box : Triggers) :
    (t.step now stamp link box).1.ifIndex = t.ifIndex ∧
    (t.step now stamp link box).1.period = t.period := by
  unfold step
  cases t.phase with
  | starting =>
    dsimp only
    split_ifs <;> exact ⟨rfl, rfl⟩
  | sleeping due stamp' =>
    dsimp only
    split_ifs
    · exact ⟨rfl, rfl⟩
    · split <;> exact ⟨rfl, rfl⟩
  | sending due =>
    dsimp only
    split_ifs <;> exact ⟨rfl, rfl⟩
  | finished => exact ⟨rfl, rfl⟩

/-- **What a ticker does with the mailbox**: it leaves a request, or waits for room, or its
wait is over; or it does nothing. -/
inductive Posts (i : IfIndex) : Triggers → Triggers → Prop
  | nothing (box : Triggers) : Posts i box box
  | pushed (box : Triggers) : Posts i box (box.push i)
  | waits (box : Triggers) : Posts i box { box with waiting := box.waiting ++ [(i, i)] }
  | settled (box : Triggers) : Posts i box (box.settle i)

theorem posts_step (t : Ticker) (now stamp : Nat) (link : LinkState) (box : Triggers) :
    Posts t.ifIndex box (t.step now stamp link box).2 := by
  unfold step
  cases t.phase with
  | starting =>
    dsimp only
    split_ifs <;> exact .nothing box
  | sleeping due stamp' =>
    dsimp only
    unfold Mailbox.send
    split_ifs
    · exact .nothing box
    · exact .nothing box
    · exact .pushed box
    · exact .waits box
  | sending due =>
    dsimp only
    split_ifs <;> exact .settled box
  | finished => exact .nothing box

namespace Posts

variable {j : IfIndex} {box' : Triggers}

/-- **Others are not concerned.** -/
theorem of_ne (h : Posts j box box') (hij : i ≠ j)
    (hown : box.held j = [] ∨ box.held j = [(j, j)]) :
    box'.held i = box.held i ∧ box'.items.filter (· = i) = box.items.filter (· = i) := by
  cases h with
  | nothing => exact ⟨rfl, rfl⟩
  | pushed => exact ⟨rfl, by simp [Mailbox.push, Ne.symm hij]⟩
  | waits => exact ⟨by simp [Mailbox.held, Ne.symm hij], rfl⟩
  | settled =>
    refine ⟨Mailbox.waiting_settle_of_ne hij, ?_⟩
    unfold Mailbox.settle
    cases hfind : box.waiting.find? (·.1 = j) with
    | none => rfl
    | some w =>
      have hw : w ∈ box.held j :=
        List.mem_filter.2 ⟨List.mem_of_find?_eq_some hfind, by simpa using List.find?_some hfind⟩
      rcases hown with hnone | hone
      · rw [hnone] at hw
        cases hw
      · rw [hone, List.mem_singleton] at hw
        subst hw
        dsimp only
        split_ifs
        · rfl
        · simp [Mailbox.push, Mailbox.withdraw, Ne.symm hij]

end Posts

theorem holds_cases (t : Ticker) : t.holds = [] ∨ t.holds = [(t.ifIndex, t.ifIndex)] := by
  unfold holds
  split
  · exact Or.inr rfl
  · exact Or.inl rfl

/-- **What a ticker has outside the mailbox** goes with where it stands. -/
theorem held_step (h : box.held t.ifIndex = t.holds) (now stamp : Nat) (link : LinkState) :
    (t.step now stamp link box).2.held t.ifIndex = (t.step now stamp link box).1.holds := by
  unfold step
  cases hphase : t.phase with
  | starting =>
    rw [holds, hphase] at h
    dsimp only
    split_ifs <;> exact h
  | sleeping due stamp' =>
    rw [holds, hphase] at h
    dsimp only
    unfold Mailbox.send
    split_ifs
    · exact h
    · exact h
    · exact h
    · show List.filter _ (box.waiting ++ [(t.ifIndex, t.ifIndex)]) = [(t.ifIndex, t.ifIndex)]
      have hnone : box.waiting.filter (·.1 = t.ifIndex) = [] := h
      rw [List.filter_append, hnone]
      simp
  | sending due =>
    dsimp only
    split_ifs <;> exact Mailbox.waiting_settle_self
  | finished =>
    rw [holds, hphase] at h
    rw [holds, hphase]
    exact h

end Ticker

/-- Whether an incident is that other timing is adopted. -/
def Incident.IsRetiming (x : Incident) : Prop := ∃ o, x = .operation o ∧ o.IsRetiming

/-- A session with a ticker. -/
def Session.withTicker (s : Session) (t : Ticker) : Session :=
  { s with transmitter := { s.transmitter with ticker := some t } }

namespace Station

variable {st : Station} {i j : IfIndex} {starts : List IfIndex} {t : Ticker}

/-- **A ticker that has something to do** does it. -/
theorem step_ticker_of_isReady {s : Session} (hs : st.registry.session? j = some s)
    (ht : s.transmitter.ticker = some t)
    (hready : t.isReady st.now st.registry.triggers = true) :
    let done := t.step st.now st.stamp s.link st.registry.triggers
    st.step (.ticker j) = { st with
      stamp := st.stamp + 1
      registry := { st.registry with triggers := done.2 }.modify j (·.withTicker done.1) } := by
  have hticker : st.ticker? j = some t := by rw [ticker?, hs, Option.bind_some, ht]
  unfold step
  dsimp only
  rw [hticker, Option.any_some, if_pos hready]
  unfold tickerStep
  simp only [hs, ht]
  rfl

/-- **The step of a ticker**, seen from all ports. -/
theorem step_ticker (st : Station) (j : IfIndex) :
    st.step (.ticker j) = st ∨
      ∃ s t, st.registry.session? j = some s ∧ s.transmitter.ticker = some t ∧
        t.isReady st.now st.registry.triggers = true ∧
        let done := t.step st.now st.stamp s.link st.registry.triggers
        st.step (.ticker j) = { st with
          stamp := st.stamp + 1
          registry := { st.registry with triggers := done.2 }.modify j (·.withTicker done.1) } := by
  by_cases hready : (st.ticker? j).any (·.isReady st.now st.registry.triggers) = true
  · obtain ⟨t, hticker, hready⟩ := (Option.any_eq_true ..).1 hready
    obtain ⟨s, hs, ht⟩ := Option.bind_eq_some_iff.1 hticker
    exact Or.inr ⟨s, t, hs, ht, hready, step_ticker_of_isReady hs ht hready⟩
  · exact Or.inl (if_neg hready)

/-- The session of a port after the step of a ticker. -/
theorem session?_withTicker {r : Registry} {triggers : Triggers} :
    ({ r with triggers }.modify j (·.withTicker t)).session? i =
      if i = j then (r.session? i).map (·.withTicker t) else r.session? i :=
  Registry.session?_modify fun _ => rfl

/-- **A ticker is of no concern to other ports.** -/
theorem undisturbed_step_of_ne (h : st.registry.TickersAgree) (hij : i ≠ j) :
    st.registry.Undisturbed (st.step (.ticker j)).registry i := by
  rcases step_ticker st j with heq | ⟨s, t, hs, ht, -, heq⟩
  · rw [heq]
    exact .refl _ i
  · obtain ⟨hown, -, hheld⟩ := h.own j t _ (Registry.beat?_of_session? hs ht)
    have hcases : st.registry.triggers.held j = [] ∨ st.registry.triggers.held j = [(j, j)] := by
      rw [hheld, ← hown]
      exact t.holds_cases
    obtain ⟨hheld', hasked⟩ :=
      (hown ▸ t.posts_step st.now st.stamp s.link st.registry.triggers).of_ne hij hcases
    have hsession : (st.step (.ticker j)).registry.session? i = st.registry.session? i := by
      rw [heq]
      exact session?_withTicker.trans (if_neg hij)
    refine ⟨?_, fun _ => by rw [hsession], ?_, ?_, ?_⟩
    · rw [Registry.isCapturing, hsession]
      rfl
    · rw [Registry.beat?, hsession]
      rfl
    · rw [heq]
      exact hasked
    · rw [heq]
      exact hheld'

/-- A task that reads a capture has nothing to do with requests. -/
theorem undisturbed_step_capture (hranked : st.registry.Ranked) (generation : Nat) :
    st.registry.Undisturbed (st.step (.capture generation)).registry i := by
  rcases step_cases hranked (.capture generation) with
    ⟨heq, -⟩ | ⟨t, phase?, lo, box, -, -, -, heq⟩ | ⟨j, s, ticker, triggers, stamp, hj, -⟩
  · rw [heq]
    exact .refl _ i
  · rw [heq]
    cases phase? <;> exact .of_session? rfl rfl
  · cases hj

theorem tickersAgree_step (h : st.registry.TickersAgree) (hranked : st.registry.Ranked)
    (task : StationTask) : (st.step task).registry.TickersAgree := by
  cases task with
  | capture generation =>
    exact h.undisturbed fun i => undisturbed_step_capture hranked generation
  | ticker j =>
    rcases step_ticker st j with heq | ⟨s, t, hs, ht, -, heq⟩
    · rw [heq]
      exact h
    obtain ⟨hown, hperiod, hheld⟩ := h.own j t _ (Registry.beat?_of_session? hs ht)
    have hafter : (st.step (.ticker j)).registry.beat? j =
        some ((t.step st.now st.stamp s.link st.registry.triggers).1, s.transmitter.timing) := by
      rw [heq, Registry.beat?, session?_withTicker, if_pos rfl, hs]
      rfl
    constructor
    · intro i hi
      by_cases hij : i = j
      · subst hij
        cases hi.symm.trans hafter
      · have hsame := undisturbed_step_of_ne h hij
        exact hsame.held.trans (h.idle i (hsame.beat ▸ hi))
    · intro i t' timing hi
      by_cases hij : i = j
      · subst hij
        obtain ⟨rfl, rfl⟩ := Prod.mk.inj (Option.some.inj (hafter.symm.trans hi))
        obtain ⟨hkeep, hkeep'⟩ := t.step_keeps st.now st.stamp s.link st.registry.triggers
        refine ⟨hkeep.trans hown, hkeep'.trans hperiod, ?_⟩
        rw [← hown] at hheld
        have hnext := t.held_step hheld st.now st.stamp s.link
        rw [hown] at hnext
        rw [heq]
        exact hnext
      · have hsame := undisturbed_step_of_ne h hij
        rw [hsame.held]
        exact h.own i t' timing (hsame.beat ▸ hi)

/-- **An incident that is no step of a ticker and takes no request** does one of four things
to each port. -/
theorem prompts_after (horder : st.registry.InOrder starts) (hranked : st.registry.Ranked)
    {x : Incident} (hticker : ∀ j, x ≠ .task (.ticker j)) (htrigger : ∀ deliver, x ≠ .trigger deliver)
    (hclose : x ≠ .close) (i : IfIndex) :
    st.registry.Prompts x.IsRetiming (st.after x).registry i := by
  cases x with
  | task task =>
    cases task with
    | capture generation => exact .undisturbed (undisturbed_step_capture hranked generation)
    | ticker j => exact absurd rfl (hticker j)
  | operation o =>
    exact (Registry.Prompts.operate (horder.ticking i) st.now o).mono fun ha => ⟨o, rfl, ha⟩
  | expiry j => exact .undisturbed (Registry.Prompts.handleExpiry _ i j)
  | shutdown => exact .shutdown _ i
  | packet deliver =>
    unfold after
    cases st.inbound.take? with
    | none => exact .undisturbed (.refl _ i)
    | some item =>
      cases deliver with
      | true => exact .undisturbed (Registry.Prompts.handleInbound _ st.now item.1 i)
      | false => exact .undisturbed (.refl _ i)
  | trigger deliver => exact absurd rfl (htrigger deliver)
  | turn => exact .undisturbed (.of_session? rfl rfl)
  | exit => exact .undisturbed (.of_session? rfl rfl)
  | close => exact absurd rfl hclose

/-- Requests that are lost or taken were not those of tickers that wait. -/
theorem tickersAgree_of_waiting {r : Registry} {triggers : Triggers} (h : r.TickersAgree)
    (hwaiting : triggers.waiting = r.triggers.waiting) : { r with triggers }.TickersAgree := by
  have hheld : ∀ i, triggers.held i = r.triggers.held i := fun i => by
    rw [Mailbox.held, hwaiting]
    rfl
  exact ⟨fun i hi => (hheld i).trans (h.idle i hi),
    fun i t timing hi => (hheld i).symm ▸ h.own i t timing hi⟩

theorem tickersAgree_after (h : st.registry.TickersAgree) (horder : st.registry.InOrder starts)
    (hranked : st.registry.Ranked) (x : Incident) : (st.after x).registry.TickersAgree := by
  by_cases hticker : ∃ task, x = .task task
  · obtain ⟨task, rfl⟩ := hticker
    exact tickersAgree_step h hranked task
  by_cases htrigger : ∃ deliver, x = .trigger deliver
  · obtain ⟨deliver, rfl⟩ := htrigger
    unfold after
    cases htake : st.registry.triggers.take? with
    | none => exact h
    | some item =>
      obtain ⟨rest, -, hbox⟩ := Mailbox.take?_eq_some_iff.1 htake
      have htaken : { st.registry with triggers := item.2 }.TickersAgree :=
        tickersAgree_of_waiting h (by rw [hbox])
      cases deliver with
      | true => exact htaken.undisturbed fun i => Registry.Prompts.handleTransmit _ i item.1
      | false => exact htaken
  by_cases hclose : x = .close
  · subst hclose
    exact tickersAgree_of_waiting h rfl
  · exact h.prompts (prompts_after horder hranked (fun j hj => hticker ⟨_, hj⟩)
      (fun deliver hd => htrigger ⟨deliver, hd⟩) hclose)

/-- **Along every run tickers and those who wait agree.** -/
theorem tickersAgree_run (settings : Settings) (incidents : List Incident) :
    ((ofSettings settings).run incidents).registry.TickersAgree := by
  induction incidents using List.reverseRecOn with
  | nil => exact .ofSettings settings
  | append_singleton incidents x ih =>
    rw [run_concat]
    exact tickersAgree_after ih (inOrder_run settings incidents) (ranked_run settings incidents) x

end Station

end Lldp
