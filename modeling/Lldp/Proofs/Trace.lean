/-
# Runs

A run takes a state through inputs, one step after another.  What is said here of runs
does not depend on what the steps do: something holds all along a run (`Trace.Always`),
what holds after it and did not before came about by one of its steps
(`Trace.exists_onset`), and what the steps put out follows one another
(`Trace.outputs`).
-/

import Mathlib.Data.List.Induction

namespace Lldp
namespace Trace

variable {σ ι α : Type} {step : σ → ι → σ} {P Q : σ → Prop} {s : σ} {x : ι}
  {xs early late : List ι}

/-- **What every step keeps, every run keeps.** -/
theorem invariant (hstep : ∀ s x, P s → P (step s x)) (h : P s) : P (xs.foldl step s) := by
  induction xs using List.reverseRecOn with
  | nil => exact h
  | append_singleton xs x ih =>
    rw [List.foldl_append]
    exact hstep _ x ih

/-! ### All along a run -/

/-- Something holds before a run, after it and in between. -/
def Always (step : σ → ι → σ) (P : σ → Prop) (s : σ) (xs : List ι) : Prop :=
  ∀ early late, xs = early ++ late → P (early.foldl step s)

namespace Always

/-- What holds all along a run holds before it. -/
theorem first (h : Always step P s xs) : P s := h [] xs rfl

/-- It holds after it. -/
theorem last (h : Always step P s xs) : P (xs.foldl step s) :=
  h xs [] (List.append_nil xs).symm

/-- All that follows from it holds all along the run as well. -/
theorem mono (himp : ∀ s, P s → Q s) (h : Always step P s xs) : Always step Q s xs :=
  fun early late heq => himp _ (h early late heq)

/-- Where no step is made, there is only one state for it to hold of. -/
theorem nil (h : P s) : Always step P s [] := by
  intro early late heq
  obtain ⟨rfl, -⟩ := List.append_eq_nil_iff.1 heq.symm
  exact h

/-- Something holds that long if it held so far and still does. -/
theorem concat (h : Always step P s xs) (hlast : P ((xs ++ [x]).foldl step s)) :
    Always step P s (xs ++ [x]) := by
  intro early late heq
  rcases List.eq_nil_or_concat late with rfl | ⟨late, y, rfl⟩
  · rw [List.append_nil] at heq
    exact heq ▸ hlast
  · rw [List.concat_eq_append, ← List.append_assoc] at heq
    exact h early late (List.append_inj' heq rfl).1

/-- Something holds from before a step if it does from after it. -/
theorem cons (hfirst : P s) (h : Always step P (step s x) xs) : Always step P s (x :: xs) := by
  intro early late heq
  cases early with
  | nil => exact hfirst
  | cons y early =>
    obtain ⟨rfl, rfl⟩ := List.cons.inj heq
    exact h early late rfl

/-- Two stretches of a run make one. -/
theorem append (h : Always step P s early) (h' : Always step P (early.foldl step s) late) :
    Always step P s (early ++ late) := by
  intro first rest heq
  rcases List.append_eq_append_iff.1 heq with ⟨middle, rfl, hlate⟩ | ⟨middle, hearly, -⟩
  · rw [List.foldl_append]
    exact h' middle rest hlate
  · exact h first middle hearly

/-- Something that holds all along a run holds all along the rest of it. -/
theorem tail (h : Always step P s (x :: xs)) : Always step P (step s x) xs := by
  intro early late heq
  exact h (x :: early) late (by rw [heq, List.cons_append])

/-- It holds all along a run just if it holds at first and all along the rest. -/
theorem cons_iff : Always step P s (x :: xs) ↔ P s ∧ Always step P (step s x) xs :=
  ⟨fun h => ⟨h.first, h.tail⟩, fun h => .cons h.1 h.2⟩

instance decidable [DecidablePred P] : ∀ s xs, Decidable (Always step P s xs)
  | s, [] => decidable_of_iff (P s) ⟨.nil, first⟩
  | s, x :: xs =>
    haveI := decidable (step s x) xs
    decidable_of_iff (P s ∧ Always step P (step s x) xs) cons_iff.symm

end Always

/-- **What holds after a run and did not before** came about by a step, and has held
since. -/
theorem exists_onset (hfirst : ¬P s) (h : P (xs.foldl step s)) :
    ∃ before x after, xs = before ++ x :: after ∧ ¬P (before.foldl step s) ∧
      Always step P ((before ++ [x]).foldl step s) after := by
  induction xs using List.reverseRecOn with
  | nil => exact absurd h hfirst
  | append_singleton xs x ih =>
    by_cases hheld : P (xs.foldl step s)
    · obtain ⟨before, y, after, rfl, hnot, hall⟩ := ih hheld
      refine ⟨before, y, after ++ [x], by simp, hnot, hall.concat ?_⟩
      rw [← List.foldl_append]
      simpa using h
    · exact ⟨xs, x, [], rfl, hheld, .nil h⟩

/-! ### What a run puts out -/

/-- What the steps of a run put out, one after another. -/
def outputs (step : σ → ι → σ) (out : σ → ι → List α) : σ → List ι → List α
  | _, [] => []
  | s, x :: xs => out s x ++ outputs step out (step s x) xs

variable {out : σ → ι → List α}

/-- What a run puts out is what its parts put out. -/
theorem outputs_append (s : σ) (early late : List ι) :
    outputs step out s (early ++ late) =
      outputs step out s early ++ outputs step out (early.foldl step s) late := by
  induction early generalizing s with
  | nil => rfl
  | cons x early ih =>
    rw [List.cons_append, outputs, ih, outputs, List.append_assoc]
    rfl

/-- What the last step puts out comes last. -/
theorem outputs_concat (s : σ) (xs : List ι) (x : ι) :
    outputs step out s (xs ++ [x]) = outputs step out s xs ++ out (xs.foldl step s) x := by
  rw [outputs_append]
  exact congrArg (_ ++ ·) (List.append_nil _)

/-- What is left of it is what is left of each step's. -/
theorem outputs_filter (p : α → Bool) (s : σ) (xs : List ι) :
    (outputs step out s xs).filter p = outputs step (fun s x => (out s x).filter p) s xs := by
  induction xs generalizing s with
  | nil => rfl
  | cons x xs ih => rw [outputs, List.filter_append, ih, outputs]

/-- What is made of it is what is made of each step's. -/
theorem outputs_map {β : Type} (f : α → β) (s : σ) (xs : List ι) :
    (outputs step out s xs).map f = outputs step (fun s x => (out s x).map f) s xs := by
  induction xs generalizing s with
  | nil => rfl
  | cons x xs ih => rw [outputs, List.map_append, ih, outputs]

/-- What does not depend on the state can be told without running. -/
theorem outputs_eq_flatMap {came : ι → List α} (s : σ) (xs : List ι) :
    outputs step (fun _ x => came x) s xs = xs.flatMap came := by
  induction xs generalizing s with
  | nil => rfl
  | cons x xs ih => rw [outputs, ih, List.flatMap_cons]

/-- **What is true of each output when it is put out, and was true before if it is after a
step**, was true of all at the start. -/
theorem of_mem_outputs {Q : σ → α → Prop} {a : α}
    (hout : ∀ s x a, P s → P (step s x) → a ∈ out s x → Q s a)
    (hback : ∀ s x a, P s → P (step s x) → Q (step s x) a → Q s a) (h : Always step P s xs)
    (ha : a ∈ outputs step out s xs) : Q s a := by
  induction xs generalizing s with
  | nil => cases ha
  | cons x xs ih =>
    rcases List.mem_append.1 ha with hfirst | hlater
    · exact hout s x a h.first h.tail.first hfirst
    · exact hback s x a h.first h.tail.first (ih h.tail hlater)

/-- **What counts each output** counts all of them. -/
theorem count_outputs (count : σ → Nat)
    (hstep : ∀ s x, P s → P (step s x) → count (step s x) = count s + (out s x).length)
    (h : Always step P s xs) :
    count (xs.foldl step s) = count s + (outputs step out s xs).length := by
  induction xs generalizing s with
  | nil => rfl
  | cons x xs ih =>
    have hrest := ih h.tail
    have hfirst := hstep s x h.first h.tail.first
    rw [outputs, List.length_append, List.foldl_cons]
    omega

/-- **What each step uses up bounds what a run puts out.** -/
theorem length_outputs_le (left : σ → Nat) (h : P s) (hkeep : ∀ s x, P s → P (step s x))
    (huse : ∀ s x, P s → (out s x).length + left (step s x) ≤ left s) :
    (outputs step out s xs).length ≤ left s := by
  induction xs generalizing s with
  | nil => exact Nat.zero_le _
  | cons x xs ih =>
    have hrest := ih (hkeep s x h)
    have hfirst := huse s x h
    rw [outputs, List.length_append]
    omega

/-- **What each step takes from a store** a run takes from it. -/
theorem outputs_sublist (store : σ → List α) (h : P s) (hkeep : ∀ s x, P s → P (step s x))
    (htake : ∀ s x, P s → (out s x ++ store (step s x)).Sublist (store s)) :
    (outputs step out s xs).Sublist (store s) := by
  induction xs generalizing s with
  | nil => exact List.nil_sublist _
  | cons x xs ih =>
    have hrest := ih (hkeep s x h)
    rw [outputs]
    exact (hrest.append_left (out s x)).trans (htake s x h)

/-- **What each step passes on in order, a run does.**  If a step puts out what was in store
or came in, in its order, and loses no more than it is spared, so does a run. -/
theorem outputs_conserved {came : σ → ι → List α} (store : σ → List α) (spare : σ → Nat)
    (hstep : ∀ s x, P s → P (step s x) →
      (out s x ++ store (step s x)).Sublist (store s ++ came s x) ∧
        (store s ++ came s x).length + spare (step s x) ≤
          (out s x ++ store (step s x)).length + spare s)
    (h : Always step P s xs) :
    (outputs step out s xs ++ store (xs.foldl step s)).Sublist
        (store s ++ outputs step came s xs) ∧
      (store s ++ outputs step came s xs).length + spare (xs.foldl step s) ≤
        (outputs step out s xs ++ store (xs.foldl step s)).length + spare s := by
  induction xs generalizing s with
  | nil =>
    rw [outputs, outputs, List.nil_append, List.append_nil]
    exact ⟨List.Sublist.refl _, Nat.le_refl _⟩
  | cons x xs ih =>
    obtain ⟨hrest, hlost⟩ := ih h.tail
    obtain ⟨hfirst, hspared⟩ := hstep s x h.first h.tail.first
    rw [outputs, outputs, List.foldl_cons, List.append_assoc, ← List.append_assoc (store s)]
    constructor
    · have hnow := hfirst.append_right (outputs step came (step s x) xs)
      rw [List.append_assoc] at hnow
      exact (hrest.append_left (out s x)).trans hnow
    · simp only [List.length_append] at hlost hspared ⊢
      omega

end Trace
end Lldp
