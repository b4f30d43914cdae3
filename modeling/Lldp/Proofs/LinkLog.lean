/-
# What was said of a link, and what came of it

The log of a port holds what notifications said of its link, one after another, and what
came of each: whether it was accepted, and whether it opened the interface.  All that goes
on can be told from whether the port was captured before (`Report.Moves`): a link that
goes down ends the capture; one that comes up opens the interface if it is not open and
can be opened.  So the log tells whether the port is captured (`Follows.captured_eq`), how
often its interface was opened (`Follows.countP_opened`) and which state was applied last
(`Follows.applied_eq_up_iff`).

The invariant behind all three is that the port is captured exactly if its interface was
opened since its link went down last.
-/

import Lldp.Port
import Mathlib.Data.List.DropRight
import Mathlib.Data.List.Induction

namespace Lldp

namespace LinkState

variable {text : String}

/-- Whether a text is a state's word in any letter case. -/
def Says (text : String) (state : LinkState) : Prop :=
  text.toList.map Char.toLower = state.text.toList.map Char.toLower

instance : DecidablePred (Says text) := fun _ => inferInstanceAs (Decidable (_ = _))

theorem parse_eq : parse text =
    if Says text .up then .ok .up
    else if Says text .down then .ok .down
    else .error (.linkStateText text) := rfl

/-- No text says two things. -/
theorem Says.unique {state state' : LinkState} (h : Says text state) (h' : Says text state') :
    state = state' := by
  have hwords := Eq.trans (Eq.symm h) h'
  revert hwords
  cases state <;> cases state' <;> decide

/-- **A text is read as the state that it says.** -/
theorem parse_eq_ok_iff {state : LinkState} : parse text = .ok state ↔ Says text state := by
  rw [parse_eq]
  constructor
  · intro h
    split_ifs at h with hup hdown
    · exact Except.ok.inj h ▸ hup
    · exact Except.ok.inj h ▸ hdown
  · intro h
    split_ifs with hup hdown
    · rw [hup.unique h]
    · rw [hdown.unique h]
    · cases state with
      | up => exact absurd h hup
      | down => exact absurd h hdown

/-- A text that says neither is refused. -/
theorem parse_of_unreadable (h : ∀ state, ¬Says text state) :
    parse text = .error (.linkStateText text) := by
  rw [parse_eq, if_neg (h up), if_neg (h down)]

end LinkState

/-- What a notification said of a link, and what came of it. -/
structure Report where
  state : LinkState
  /-- Nothing stood against it. -/
  accepted : Bool
  /-- It opened the interface. -/
  opened : Bool
deriving DecidableEq, Repr

namespace Report

/-- **What comes of a notification**, by whether the port was captured before; and whether
it is captured afterwards. -/
inductive Moves : Bool → Report → Bool → Prop where
  | down (captured : Bool) : Moves captured ⟨.down, true, false⟩ false
  | up (captured canOpen : Bool) :
      Moves captured ⟨.up, captured || canOpen, !captured && canOpen⟩ (captured || canOpen)
  /-- The port is not registered. -/
  | refused (state : LinkState) : Moves false ⟨state, false, false⟩ false

/-- A log takes a port from one state to another. -/
inductive Follows (captured : Bool) : List Report → Bool → Prop where
  | nil : Follows captured [] captured
  | concat {log : List Report} {x : Report} {between after : Bool}
      (h : Follows captured log between) (hx : Moves between x after) :
      Follows captured (log ++ [x]) after

end Report

/-- What was reported since the link went down last, or since the start. -/
def sinceDown (log : List Report) : List Report := log.rtakeWhile (·.state = .up)

/-- The stretches of a log in which the link comes up again and again: between one report
that it went down and the next. -/
def upRuns (log : List Report) : List (List Report) := log.splitOnP (·.state = .down)

/-- In how many stretches the interface was opened. -/
def openedRuns (log : List Report) : Nat := (upRuns log).countP (·.any Report.opened)

/-- The state that was accepted last. -/
def applied? (log : List Report) : Option LinkState :=
  ((log.filter Report.accepted).getLast?).map Report.state

variable {log : List Report} {x : Report} {captured captured' captured'' : Bool}

/-! ### One report more -/

theorem sinceDown_concat : sinceDown (log ++ [x]) =
    if x.state = .up then sinceDown log ++ [x] else [] := by
  unfold sinceDown
  rw [List.rtakeWhile_concat]
  simp

/-- **The last stretch** is the one since the link went down last; it goes on for as long
as the link does not go down. -/
theorem upRuns_append (log : List Report) : ∃ runs, ∀ more : List Report,
    (∀ x ∈ more, x.state = .up) → upRuns (log ++ more) = runs ++ [sinceDown log ++ more] := by
  induction log using List.reverseRecOn with
  | nil =>
    refine ⟨[], fun more hmore => ?_⟩
    exact List.splitOnP_eq_singleton fun x hx => by simp [hmore x hx]
  | append_singleton log x ih =>
    obtain ⟨runs, hruns⟩ := ih
    cases hx : x.state with
    | down =>
      refine ⟨upRuns log, fun more hmore => ?_⟩
      have hlast : upRuns more = [more] :=
        List.splitOnP_eq_singleton fun x hx => by simp [hmore x hx]
      rw [sinceDown_concat, if_neg (by simp [hx]), List.append_assoc, List.nil_append, ← hlast]
      exact List.splitOnP_append_cons _ _ (by simp [hx])
    | up =>
      refine ⟨runs, fun more hmore => ?_⟩
      rw [sinceDown_concat, if_pos hx, List.append_assoc, List.append_assoc]
      exact hruns (x :: more) (List.forall_mem_cons.2 ⟨hx, hmore⟩)

/-- **A stretch counts once**, when the interface is first opened in it. -/
theorem openedRuns_concat : openedRuns (log ++ [x]) = openedRuns log +
    if x.state = .up ∧ x.opened = true ∧ (sinceDown log).any Report.opened = false
    then 1 else 0 := by
  obtain ⟨runs, hruns⟩ := upRuns_append log
  have hbefore : upRuns log = runs ++ [sinceDown log] := by
    simpa using hruns [] (by simp)
  cases hx : x.state with
  | down =>
    have hafter : upRuns (log ++ [x]) = upRuns log ++ upRuns [] :=
      List.splitOnP_append_cons _ _ (by simp [hx])
    rw [openedRuns, hafter, List.countP_append]
    simp [upRuns, openedRuns]
  | up =>
    have hafter : upRuns (log ++ [x]) = runs ++ [sinceDown log ++ [x]] := hruns [x] (by simpa)
    rw [openedRuns, openedRuns, hbefore, hafter, List.countP_append, List.countP_append]
    cases hopened : x.opened <;> cases hany : (sinceDown log).any Report.opened <;>
      simp [hopened, hany]

theorem applied?_concat : applied? (log ++ [x]) =
    if x.accepted = true then some x.state else applied? log := by
  cases hx : x.accepted <;> simp [applied?, hx]

theorem applied?_append {log' : List Report} :
    applied? (log ++ log') = (applied? log').or (applied? log) := by
  rw [applied?, List.filter_append, List.getLast?_append, Option.map_or]
  rfl

/-! ### What a log tells -/

namespace Report.Follows

theorem append {log' : List Report} (h : Follows captured log captured')
    (h' : Follows captured' log' captured'') : Follows captured (log ++ log') captured'' := by
  induction h' with
  | nil => rwa [List.append_nil]
  | concat h' hx ih =>
    rw [← List.append_assoc]
    exact ih.concat hx

/-- **A port is captured** if its interface was opened since its link went down last. -/
theorem captured_eq (h : Follows false log captured) :
    captured = (sinceDown log).any Report.opened := by
  induction h with
  | nil => rfl
  | @concat log x before after h hx ih =>
    rw [sinceDown_concat]
    cases hx with
    | down => rfl
    | up _ canOpen =>
      rw [if_pos rfl, List.any_append, ← ih]
      cases before <;> simp
    | refused state => cases state <;> simp [← ih]

/-- **An interface is opened once in each stretch** in which it can be opened at all. -/
theorem countP_opened (h : Follows false log captured) :
    log.countP Report.opened = openedRuns log := by
  induction h with
  | nil => rfl
  | @concat log x before after h hx ih =>
    rw [List.countP_append, openedRuns_concat, ih, ← h.captured_eq]
    cases hx with
    | down => simp
    | up _ canOpen => cases before <;> cases canOpen <;> simp
    | refused state => simp

/-- **The state applied last is up** while the port is captured, and only then. -/
theorem applied_eq_up_iff (h : Follows false log captured) :
    applied? log = some .up ↔ captured = true := by
  induction h with
  | nil => simp [applied?]
  | @concat log x before after h hx ih =>
    rw [applied?_concat]
    cases hx with
    | down => simp
    | up _ canOpen => cases before <;> cases canOpen <;> simp_all
    | refused state => simpa using ih

/-- A port that is captured was last said to have its link up. -/
theorem getLast?_of_captured (h : Follows false log true) :
    log.getLast?.map Report.state = some .up := by
  cases h with
  | concat h hx =>
    rw [List.getLast?_concat]
    generalize hafter : true = after at hx
    cases hx with
    | up _ canOpen => rfl
    | down => cases hafter
    | refused => cases hafter

end Report.Follows
end Lldp
