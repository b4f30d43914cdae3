/-
# What runs is prompt

Running a beacon to a standstill, letting it sleep and draining its mailbox serve the ticker
whenever it has something to do and let time pass only from timer to timer
(`Beacon.prompt_settle`, `prompt_sleep`, `prompt_drain`).  So they are among the runs on which
ticks come exactly when they should.
-/

import Lldp.Proofs.Beacon
import Lldp.Proofs.Machine

namespace Lldp
namespace Beacon

variable {b : Beacon} {t : Ticker} {i : IfIndex}

theorem isPrompt_append {early late : List Move} :
    b.isPrompt (early ++ late) = (b.isPrompt early && (b.run early).isPrompt late) := by
  induction early generalizing b with
  | nil => exact (Bool.true_and _).symm
  | cons m early ih =>
    rw [List.cons_append, isPrompt, ih, isPrompt, Bool.and_assoc]
    rfl

/-- A beacon becomes another without delay. -/
def Promptly (b b' : Beacon) : Prop := ∃ moves, b.isPrompt moves = true ∧ b.run moves = b'

theorem Promptly.refl (b : Beacon) : b.Promptly b := ⟨[], rfl, rfl⟩

theorem Promptly.trans {b' b'' : Beacon} (h : b.Promptly b') (h' : b'.Promptly b'') :
    b.Promptly b'' := by
  obtain ⟨early, hearly, rfl⟩ := h
  obtain ⟨late, hlate, rfl⟩ := h'
  exact ⟨early ++ late, by rw [isPrompt_append, hearly, hlate]; rfl, List.foldl_append⟩

theorem Promptly.concat {b' : Beacon} (h : b.Promptly b') (m : Move)
    (hallowed : b'.allows m = true) : b.Promptly (b'.after m) :=
  h.trans ⟨[m], by rw [isPrompt, hallowed]; rfl, rfl⟩

/-- The ticker rests for longer than it may be late, and what it has outside the mailbox goes
with where it stands. -/
def IsSound (b : Beacon) : Prop :=
  ∀ t, b.transmitter.ticker = some t →
    Ticker.grace < t.period ∧ b.triggers.held t.ifIndex = t.holds

/-- How often the ticker has to be served until it has nothing to do: once more if it waited
for room. -/
def work (b : Beacon) : Nat := if b.isReady then 1 + b.isBlocked.toNat else 0

theorem able_eq (b : Beacon) : machine.able b = if b.isReady then [()] else [] := rfl

/-- **Serving a ticker** leaves less to do. -/
theorem IsSound.serve (h : b.IsSound) (hready : b.isReady = true) :
    (b.after .serve).IsSound ∧ (b.after .serve).work < b.work := by
  obtain ⟨t, ht, hready'⟩ := (Option.any_eq_true ..).1 hready
  obtain ⟨hperiod, hheld⟩ := h t ht
  have hserve : b.after .serve = { b with
      transmitter := { b.transmitter with
        ticker := some (t.step b.now b.stamp b.link b.triggers).1 }
      triggers := (t.step b.now b.stamp b.link b.triggers).2
      stamp := b.stamp + 1 } := by
    simp only [after, hready, if_true, tick, ht]
  have hturn := Ticker.turn_step b.stamp b.link hready'
  have hheld' := Ticker.held_step hheld b.now b.stamp b.link
  obtain ⟨hown, hkeeps⟩ := t.step_keeps b.now b.stamp b.link b.triggers
  constructor
  · intro t' ht'
    rw [hserve] at ht' ⊢
    obtain rfl := Option.some.inj ht'
    exact ⟨hkeeps ▸ hperiod, hown ▸ hheld'⟩
  · have hblocked : b.isBlocked = t.isBlocked := by simp [isBlocked, ht]
    rw [work, work, if_pos hready, hblocked]
    cases hbefore : t.isBlocked with
    | false =>
      have hrests := hturn.rests hperiod hheld hbefore
      have hdone : (b.after .serve).isReady = false := by
        rw [hserve]
        exact hrests
      simp [hdone]
    | true =>
      -- Its wait is over, and it may be late for its next tick, but need not wait.
      have hgoes : (b.after .serve).isBlocked = false := by
        rw [hserve]
        exact hturn.of_blocked hbefore
      rw [hgoes]
      split_ifs <;> simp

/-- **Running to a standstill** is serving the ticker. -/
theorem prompt_settle (h : b.IsSound) :
    b.Promptly b.settle ∧ b.settle.IsSound ∧ b.settle.now = b.now ∧
      b.settle.isReady = false := by
  have hwork : b.work ≤ 2 * machine.workload b := by
    have hle : b.work ≤ 2 := by
      unfold work
      split_ifs
      · have hone := Bool.toNat_le b.isBlocked
        omega
      · exact Nat.zero_le _
    exact Nat.le_trans hle (show 2 ≤ 2 * 8 by decide)
  have hstep : ∀ task s, (b.Promptly s ∧ s.IsSound ∧ s.now = b.now) → task ∈ machine.able s →
      (b.Promptly (machine.step task s) ∧ (machine.step task s).IsSound ∧
        (machine.step task s).now = b.now) ∧ (machine.step task s).work < s.work := by
    rintro task s ⟨hprompt, hsound, hnow⟩ htask
    have hready : s.isReady = true := by
      by_contra hnot
      rw [able_eq, if_neg hnot] at htask
      cases htask
    have hserve : machine.step task s = s.after .serve := (if_pos hready).symm
    obtain ⟨hsound', hless⟩ := hsound.serve hready
    refine ⟨⟨?_, hserve ▸ hsound', (now_tick s).trans hnow⟩, hserve ▸ hless⟩
    exact hserve ▸ hprompt.concat .serve rfl
  obtain ⟨⟨hprompt, hsound, hnow⟩, hrests⟩ :=
    machine.settle_standstill (Nat.zero_le _) (fun _ _ => Nat.le_refl 0) hstep ⟨.refl b, h, rfl⟩
      (by simpa using hwork)
  refine ⟨hprompt, hsound, hnow, ?_⟩
  by_contra hready
  rw [Bool.not_eq_false] at hready
  rw [← settle, able_eq, if_pos hready] at hrests
  cases hrests

/-- The timer of a ticker that rests is when it wakes. -/
theorem earliest?_of_wake? {due : Nat} (hrests : b.isReady = false)
    (ht : b.transmitter.ticker = some t) (hwake : t.wake? = some due) :
    b.now < due ∧ Machine.earliest? b.now (machine.timers b) = some due := by
  have hlater : b.now < due := by
    rw [isReady, ht, Option.any_some] at hrests
    unfold Ticker.wake? at hwake
    cases hphase : t.phase <;> simp_all [Ticker.isReady]
  have htimers : machine.timers b = [due] := by
    simp [machine, ht, hwake]
  refine ⟨hlater, ?_⟩
  rw [Machine.earliest?_eq_some_iff, htimers]
  exact ⟨⟨List.mem_singleton_self due, hlater⟩, fun time htime _ =>
    Nat.le_of_eq (List.mem_singleton.1 htime).symm⟩

/-- A ticker that rests has nothing to do until its timer goes off. -/
theorem idles_of_rests {ms : Nat} (hrests : b.isReady = false)
    (hle : ∀ due, Machine.earliest? b.now (machine.timers b) = some due → b.now + ms ≤ due) :
    b.idles ms = true := by
  rw [idles]
  cases ht : b.transmitter.ticker with
  | none => rfl
  | some t =>
    have hready : t.isReady b.now b.triggers = false := by
      simpa [isReady, ht] using hrests
    rw [Option.all_some, hready, Bool.not_false, Bool.true_and]
    cases hwake : t.wake? with
    | none => rfl
    | some due => exact decide_eq_true (hle due (earliest?_of_wake? hrests ht hwake).2)

/-- Before its timer goes off it still rests. -/
theorem rests_until {later : Nat} (hrests : b.isReady = false)
    (hlt : ∀ due, Machine.earliest? b.now (machine.timers b) = some due → later < due) :
    ({ b with now := later } : Beacon).isReady = false := by
  have hready := hrests
  unfold isReady at hready ⊢
  cases ht : b.transmitter.ticker with
  | none => rfl
  | some t =>
    rw [ht, Option.any_some] at hready
    rw [Option.any_some]
    cases hphase : t.phase with
    | starting => simp [Ticker.isReady, hphase] at hready
    | sending due => simpa [Ticker.isReady, hphase] using hready
    | finished => simp [Ticker.isReady, hphase]
    | sleeping due stamp =>
      have hlater := hlt due
        (earliest?_of_wake? hrests ht (by rw [Ticker.wake?, hphase])).2
      simpa [Ticker.isReady, hphase] using hlater

/-- **Letting time pass** is serving the ticker whenever it has something to do. -/
theorem prompt_sleep (h : b.IsSound) (hrests : b.isReady = false) (ms : Nat) :
    b.Promptly (b.sleep ms) ∧ (b.sleep ms).IsSound ∧ (b.sleep ms).isReady = false := by
  have hpass : ∀ {b' later}, b.Promptly b' → b'.isReady = false → b'.now ≤ later →
      (∀ due, Machine.earliest? b'.now (machine.timers b') = some due → later ≤ due) →
      b.Promptly { b' with now := later } := by
    intro b' later hprompt hrests hle hbound
    obtain ⟨wait, rfl⟩ := Nat.exists_eq_add_of_le hle
    exact hprompt.concat (.pass wait) (idles_of_rests hrests hbound)
  have hadvance : ∀ clock target s, s.now = clock → clock ≤ target → b.Promptly s →
      s.IsSound → s.isReady = false →
      b.Promptly (machine.advance clock target s) ∧ (machine.advance clock target s).IsSound ∧
        (machine.advance clock target s).isReady = false := by
    intro clock target s
    induction clock, s using Machine.advance.induct machine target with
    | case1 clock s due hdue hin ih =>
      intro hnow _ hprompt hsound hrests
      rw [Machine.advance, hdue]
      simp only [if_pos hin]
      obtain ⟨hlt, hle⟩ := hin
      have hthere : b.Promptly { s with now := due } := by
        refine hpass hprompt hrests (by omega) fun due' hdue' => ?_
        rw [hnow, hdue] at hdue'
        exact Nat.le_of_eq (Option.some.inj hdue')
      obtain ⟨hsettles, hsound', hnow', hrests'⟩ :=
        prompt_settle (b := { s with now := due }) hsound
      exact ih hnow' hle (hthere.trans hsettles) hsound' hrests'
    | case2 clock s due hdue hout =>
      intro hnow hle hprompt hsound hrests
      rw [Machine.advance, hdue]
      simp only [if_neg hout]
      have hlt : ∀ due', Machine.earliest? s.now (machine.timers s) = some due' →
          target < due' := by
        intro due' hdue'
        rw [hnow, hdue] at hdue'
        obtain rfl := Option.some.inj hdue'
        have hlater := (Machine.earliest?_eq_some_iff.1 hdue).1.2
        exact Nat.lt_of_not_le fun hdue => hout ⟨hlater, hdue⟩
      exact ⟨hpass hprompt hrests (hnow ▸ hle) fun due' hdue' => Nat.le_of_lt (hlt due' hdue'),
        hsound, rests_until hrests hlt⟩
    | case3 clock s hnone =>
      intro hnow hle hprompt hsound hrests
      rw [Machine.advance, hnone]
      have hno : ∀ due', ¬Machine.earliest? s.now (machine.timers s) = some due' := by
        intro due' hdue'
        rw [hnow, hnone] at hdue'
        cases hdue'
      exact ⟨hpass hprompt hrests (hnow ▸ hle) fun due' hdue' => absurd hdue' (hno due'),
        hsound, rests_until hrests fun due' hdue' => absurd hdue' (hno due')⟩
  exact hadvance b.now (b.now + ms) b rfl (Nat.le_add_right _ _) (.refl b) h hrests

/-- **Draining the mailbox** is taking out what is in it and serving the ticker. -/
theorem prompt_drain (h : b.IsSound) : b.Promptly b.drain.2 ∧ b.drain.2.IsSound := by
  have hupTo : ∀ count, ∀ s : Beacon, s.IsSound →
      s.Promptly (drainUpTo count s).2 ∧ (drainUpTo count s).2.IsSound := by
    intro count
    induction count with
    | zero => exact fun s h => ⟨.refl s, h⟩
    | succ count ih =>
      intro s h
      rw [drainUpTo]
      cases htake : s.triggers.take? with
      | none => exact ⟨.refl s, h⟩
      | some item =>
        obtain ⟨rest, -, hbox⟩ := Mailbox.take?_eq_some_iff.1 htake
        have hsound : ({ s with triggers := item.2 } : Beacon).IsSound := by
          rw [hbox]
          exact h
        have htakes : s.Promptly { s with triggers := item.2 } :=
          (Promptly.refl s).concat (.others item.2) rfl
        obtain ⟨hsettles, hsound', -, -⟩ := prompt_settle hsound
        obtain ⟨hmore, hsound''⟩ := ih _ hsound'
        exact ⟨(htakes.trans hsettles).trans hmore, hsound''⟩
  exact hupTo _ b h

/-- A ticker that is started has nothing outside the mailbox, if nobody else waits under its
name. -/
theorem isSound_start (h : b.stop.triggers.held i = []) : (b.start i).IsSound := by
  obtain ⟨hticker, -, hbox⟩ := ticker_start b i
  intro t ht
  obtain rfl := Option.some.inj (hticker.symm.trans ht)
  refine ⟨?_, by rw [hbox, h]; rfl⟩
  have hpos := b.transmitter.timing.interval_pos
  show 5 < b.transmitter.timing.interval * 1000
  omega

/-- **A ticker that is started and left alone** runs promptly, and when time has passed it has
nothing to do: its ticks are those that the schedule calls for. -/
theorem prompt_start (h : b.stop.triggers.held i = []) (ms : Nat) :
    (b.start i).Promptly ((b.start i).settle.sleep ms) ∧
      ((b.start i).settle.sleep ms).isReady = false := by
  obtain ⟨hsettles, hsound, -, hrests⟩ := prompt_settle (isSound_start h)
  obtain ⟨hsleeps, -, hrests'⟩ := prompt_sleep hsound hrests ms
  exact ⟨hsettles.trans hsleeps, hrests'⟩

end Beacon
end Lldp
