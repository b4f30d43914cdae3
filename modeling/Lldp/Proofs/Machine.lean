/-
# What a machine keeps

Running to a standstill and letting time pass are many steps and settings of the
clock, in an order that nothing here depends on.  So what each step keeps is kept
by both, and a property may speak of the time that the clock shows.

Where each step leaves less to do, running to a standstill ends in one
(`settle_standstill`).
-/

import Lldp.Machine
import Mathlib.Tactic.SplitIfs

namespace Lldp
namespace Machine

variable {σ τ : Type} [DecidableEq τ] {P : Nat → σ → Prop}

/-- **What every step keeps, running to a standstill keeps.** -/
theorem settle_invariant (m : Machine σ τ) {clock : Nat}
    (step : ∀ task s, P clock s → P clock (m.step task s)) {s : σ} (h : P clock s) :
    P clock (m.settle s) := by
  have hserve : ∀ fuel left queue resting s, P clock s →
      P clock (m.serve fuel left queue resting s) := by
    intro fuel
    induction fuel with
    | zero => exact fun _ _ _ _ h => h
    | succ fuel ih =>
      intro left queue resting s h
      unfold serve
      dsimp only
      split
      · split
        · exact h
        · exact ih _ _ _ s h
      · split_ifs
        · exact ih _ _ _ _ (step _ s h)
        · exact ih _ _ _ s h
        · exact ih _ _ _ _ (step _ s h)
        · exact ih _ _ _ s h
  exact hserve _ _ _ _ s h

/-- **What every step and every setting of the clock keep, the passing of time
keeps.** -/
theorem advance_invariant (m : Machine σ τ)
    (step : ∀ clock task s, P clock s → P clock (m.step task s))
    (tick : ∀ clock now s, clock ≤ now → P clock s → P now (m.setClock now s))
    {clock target : Nat} (hle : clock ≤ target) {s : σ} (h : P clock s) :
    P target (m.advance clock target s) := by
  induction clock, s using advance.induct m target with
  | case1 clock s due hdue hin ih =>
    have hnext := tick clock due s (Nat.le_of_lt hin.1) h
    rw [advance, hdue]
    simp only [if_pos hin]
    exact ih hin.2 (m.settle_invariant (step due) hnext)
  | case2 clock s due hdue hout =>
    rw [advance, hdue]
    simp only [if_neg hout]
    exact tick clock target s hle h
  | case3 clock s hnone =>
    rw [advance, hnone]
    exact tick clock target s hle h

/-! ### The next timer -/

theorem earliest?_eq_some_iff {clock due : Nat} {times : List Nat} :
    earliest? clock times = some due ↔
      (due ∈ times ∧ clock < due) ∧ ∀ time ∈ times, clock < time → due ≤ time := by
  rw [earliest?, List.min?_eq_some_iff]
  simp [List.mem_filter]

theorem earliest?_eq_none_iff {clock : Nat} {times : List Nat} :
    earliest? clock times = none ↔ ∀ time ∈ times, time ≤ clock := by
  rw [earliest?, List.min?_eq_none_iff, List.filter_eq_nil_iff]
  simp

/-! ### To a standstill -/

/-- Only tasks that are able wait. -/
theorem mem_able_of_mem_waiting {able queue resting : List τ} {task : τ}
    (h : task ∈ waiting able queue resting) : task ∈ able := by
  rcases List.mem_append.1 h with hq | ha
  · simpa using (List.mem_filter.1 hq).2
  · exact (List.mem_filter.1 ha).1

/-- Where none waits and none of those that rest is able, none is able. -/
theorem able_eq_nil_of_waiting {able queue resting : List τ}
    (hwait : waiting able queue resting = []) (hrest : resting.filter (able.contains ·) = []) :
    able = [] := by
  obtain ⟨hqueued, hnew⟩ := List.append_eq_nil_iff.1 hwait
  refine List.eq_nil_iff_forall_not_mem.2 fun task htask => ?_
  have hcontains := List.contains_iff_mem.2 htask
  by_cases hq : task ∈ queue
  · exact absurd hcontains (List.filter_eq_nil_iff.1 hqueued task hq)
  by_cases hr : task ∈ resting
  · exact absurd hcontains (List.filter_eq_nil_iff.1 hrest task hr)
  · exact absurd (by simp [hq, hr]) (List.filter_eq_nil_iff.1 hnew task htask)

/-- **Running to a standstill** does so: if every step of a task that is able leaves less to
do, then what those steps keep holds in the end, and no task is able any more.  A task rests
only where its allowance is used up, and those that rest are woken only where some do, so
between two steps there are at most two turns in which none is made; where steps cost nothing,
there is none. -/
theorem settle_standstill (m : Machine σ τ) {P : σ → Prop} {left : σ → Nat} {cost : Nat}
    (hcost : cost ≤ allowance) (heffort : ∀ task s, m.effort task s ≤ cost)
    (hstep : ∀ task s, P s → task ∈ m.able s →
      P (m.step task s) ∧ left (m.step task s) < left s)
    {s : σ} (h : P s) (hleft : (2 * cost + 1) * left s ≤ 2 * m.workload s) :
    P (m.settle s) ∧ m.able (m.settle s) = [] := by
  -- What is paid for beforehand: the steps, a rest if the allowance is short, and a waking.
  have hserve : ∀ fuel allowed queue resting s, P s →
      (2 * cost + 1) * left s + 2 * (cost - allowed) + min resting.length 1 ≤ fuel →
      P (m.serve fuel allowed queue resting s) ∧
        m.able (m.serve fuel allowed queue resting s) = [] := by
    intro fuel
    induction fuel with
    | zero =>
      intro allowed queue resting s h hpaid
      refine ⟨h, List.eq_nil_iff_forall_not_mem.2 fun task htask => ?_⟩
      have hless := (hstep task s h htask).2
      have hpos : 0 < (2 * cost + 1) * left s := Nat.mul_pos (Nat.succ_pos _) (by omega)
      omega
    | succ fuel ih =>
      intro allowed queue resting s h hpaid
      unfold serve
      dsimp only
      cases hwait : waiting (m.able s) queue resting with
      | nil =>
        dsimp only
        cases hrest : resting.filter ((m.able s).contains ·) with
        | nil => exact ⟨h, able_eq_nil_of_waiting hwait hrest⟩
        | cons task rested =>
          have hsome : 0 < resting.length :=
            List.length_pos_of_mem (List.mem_filter.1 (hrest ▸ List.mem_cons_self)).1
          refine ih _ _ _ _ h ?_
          rw [List.length_nil]
          omega
      | cons task rest =>
        have hable : task ∈ m.able s := mem_able_of_mem_waiting (hwait ▸ List.mem_cons_self)
        obtain ⟨hnext, hless⟩ := hstep task s h hable
        have hmul := Nat.mul_le_mul_left (2 * cost + 1) (Nat.succ_le_of_lt hless)
        have hcosts := heffort task s
        rw [Nat.mul_succ] at hmul
        dsimp only
        split_ifs with hhead hable' hable'
        · exact ih _ _ _ _ hnext (by omega)
        · refine ih _ _ _ _ h ?_
          rw [List.length_cons]
          omega
        · exact ih _ _ _ _ hnext (by omega)
        · exact absurd (Nat.le_trans hcosts hcost) hable'
  refine hserve _ _ _ _ s h ?_
  rw [List.length_nil]
  omega

end Machine

end Lldp
