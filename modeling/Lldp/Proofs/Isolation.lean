/-
# Ports do not disturb one another

Take any run of operations, and take out of it all that name other ports.  What is left is
a run of its own, and a port cannot tell it from the first: it is registered in one exactly
while it is in the other, in the same state, with the same deadline, and whoever asks about
it gets the same replies (`isolated`).

Both runs keep their registries sound, and so a step of either is seen from the port in the
same way; an operation that is left out is not seen in the run that has it.  What remains
is an induction on the operations, with the time along, which both runs have in common.
-/

import Lldp.Proofs.Registry.ViewSteps

namespace Lldp
namespace Moment

variable {m : Moment} {i : IfIndex} {o : Operation} {os : List Operation}

/-- The moment after an operation. -/
def operate (m : Moment) (o : Operation) : Moment :=
  { registry := (m.registry.operate m.now o).2, now := o.clock m.now }

/-- The moment after several operations, the first of which comes first. -/
def perform (m : Moment) (os : List Operation) : Moment := os.foldl operate m

theorem perform_concat (m : Moment) (os : List Operation) (o : Operation) :
    m.perform (os ++ [o]) = (m.perform os).operate o :=
  List.foldl_append

theorem sound_perform (settings : Settings) (os : List Operation) :
    ((ofSettings settings).perform os).registry.Sound :=
  Trace.invariant (P := fun m : Moment => m.registry.Sound)
    (fun m o (h : m.registry.Sound) => h.operate m.now o) (.ofSettings settings)

/-- Only time itself takes time, and it concerns every port. -/
theorem clock_of_concerns (now : Nat) (ho : o.concerns i = false) : o.clock now = now := by
  cases o with
  | pass ms => cases ho
  | _ => rfl

/-- **Leaving others out leaves a port as it is**, and the time. -/
theorem view_perform_filter (settings : Settings) (i : IfIndex) (os : List Operation) :
    ((ofSettings settings).perform os).registry.view i =
        ((ofSettings settings).perform (os.filter (·.concerns i))).registry.view i ∧
      ((ofSettings settings).perform os).now =
        ((ofSettings settings).perform (os.filter (·.concerns i))).now := by
  induction os using List.reverseRecOn with
  | nil => exact ⟨rfl, rfl⟩
  | append_singleton os o ih =>
    obtain ⟨hview, hnow⟩ := ih
    have hall := sound_perform settings os
    have hown := sound_perform settings (os.filter (·.concerns i))
    rw [List.filter_append, perform_concat]
    cases ho : o.concerns i with
    | true =>
      rw [List.filter_cons_of_pos ho, List.filter_nil, perform_concat]
      refine ⟨?_, congrArg (o.clock ·) hnow⟩
      show (Registry.operate _ _ o).2.view i = (Registry.operate _ _ o).2.view i
      rw [hall.view_operate ho, hown.view_operate ho, hview, hnow]
    | false =>
      rw [List.filter_cons_of_neg (by simp [ho]), List.filter_nil, List.append_nil]
      refine ⟨?_, ?_⟩
      · show (Registry.operate _ _ o).2.view i = _
        rw [hall.view_operate_of_ne ho, hview]
      · exact (clock_of_concerns _ ho).trans hnow

/-- **Ports do not disturb one another.**  After any run of operations, a port is as it
would be after the operations alone that name it or no port: registered or not, with the
same session up to the numbers of its capture and of its alarm, the same deadline, the
same settings, listed as captured or not, and shown alike to those who ask for neighbours.
So is the time, and the next operation that names the port has the same reply. -/
theorem isolated (settings : Settings) (i : IfIndex) (os : List Operation) :
    let all := (ofSettings settings).perform os
    let own := (ofSettings settings).perform (os.filter (·.concerns i))
    all.registry.view i = own.registry.view i ∧ all.now = own.now ∧
      (i ∈ all.registry.upPorts ↔ i ∈ own.registry.upPorts) ∧
      (all.registry.session? i).map Session.entry = (own.registry.session? i).map Session.entry ∧
      ∀ o, o.port? = some i →
        (all.registry.operate all.now o).1 = (own.registry.operate own.now o).1 := by
  intro all own
  obtain ⟨hview, hnow⟩ := view_perform_filter settings i os
  have hlisted : ∀ r : Registry, r.Sound →
      (i ∈ r.upPorts ↔ (r.view i).session.any Session.isCapturing = true) := by
    intro r h
    obtain ⟨starts, horder⟩ := h.ordered
    rw [horder.mem_upPorts, Registry.isCapturing, Registry.view]
    cases r.session? i with
    | none => rfl
    | some s =>
      have hcapturing : s.unnumbered.isCapturing = s.isCapturing := Option.isSome_map
      rw [Option.map_some, Option.any_some, Option.any_some, hcapturing]
  have hentry : ∀ r : Registry,
      (r.session? i).map Session.entry = (r.view i).session.map Session.entry := by
    intro r
    rw [Registry.view, Option.map_map]
    rfl
  refine ⟨hview, hnow, ?_, ?_, fun o ho => ?_⟩
  · rw [hlisted _ (sound_perform settings os), hlisted _ (sound_perform settings _), hview]
  · rw [hentry, hentry, hview]
  · rw [Registry.reply_operate ho, Registry.reply_operate ho, hview]

/-- What was counted on a port is the same whether or not another is registered, started
and forgotten meanwhile. -/
theorem isolated_counters :
    let port (i : IfIndex) (name : String) : Port := ⟨i, 1, name, ⟨2, 0, 0, 0, 0, 1⟩⟩
    let ups : List Operation := [.request (.add (port 1 "e1")), .request (.add (port 2 "e2")),
      .request (.reportLink 2 .up), .request (.reportLink 1 .up), .request (.remove 2),
      .inbound ⟨1, [], 0⟩]
    (Operation.request (.counters 1)).port? = some 1 ∧
      ((((ofSettings {}).perform ups).registry.operate 0 (.request (.counters 1))).1 =
        (((ofSettings {}).perform (ups.filter (·.concerns 1))).registry.operate 0
          (.request (.counters 1))).1) :=
  ⟨rfl, (isolated {} 1 _).2.2.2.2 _ rfl⟩

end Moment
end Lldp
