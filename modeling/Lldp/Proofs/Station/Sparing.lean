/-
# What happens to a station and is none of its switches

Most of what happens to a station has nothing to do with which of its ports may be
captured: tasks make their steps, packets and alarms are handled, others do something with
links, clients look things up or change the timing.  Such an incident spares every port
(`Station.spares_after`), and sets no task off (`Station.launched_of_spares`).
-/

import Lldp.Proofs.Registry.Sparing
import Lldp.Proofs.Station.Order

namespace Lldp

/-- Whether an incident leaves switches and links alone. -/
def Incident.sparesPorts : Incident → Bool
  | .task _ | .expiry _ | .packet _ | .trigger _ | .turn | .exit | .close => true
  | .operation (.request (.neighbors _ _)) | .operation (.request (.counters _)) => true
  | .operation (.request (.apply (.timing _ _))) => true
  | .operation (.inbound _) | .operation (.transmit _) | .operation (.fire _) => true
  | .operation (.links _) | .operation (.pass _) => true
  | _ => false

namespace Station

variable {st : Station} {y : Incident} {i : IfIndex}

/-- **What leaves switches and links alone** does so for every port. -/
theorem spares_after (hy : y.sparesPorts = true) :
    st.registry.Spares (st.after y).registry i := by
  cases y with
  | task task =>
    obtain ⟨-, surroundings, hdrift⟩ := drifts_step st task
    rw [after_task, hdrift]
    exact .surround
  | operation o =>
    cases o with
    | request q =>
      cases q with
      | neighbors start count => exact .refl _ i
      | counters j => exact .refl _ i
      | apply change =>
        cases change with
        | timing interval multiplier =>
          show st.registry.Spares (st.registry.apply (.timing interval multiplier)).2 i
          rcases Registry.apply_timing_cases st.registry interval multiplier with
            ⟨-, heq⟩ | ⟨timing, -, -, heq⟩
          · rw [heq]
            exact .refl _ i
          · rw [heq]
            exact .retime
        | _ => cases hy
      | _ => cases hy
    | inbound packet => exact .inbound
    | transmit j => exact .transmit
    | fire j =>
      show st.registry.Spares ((st.registry.alarms.dueOf? st.now j).elim st.registry
        (st.registry.expire st.now)) i
      cases st.registry.alarms.dueOf? st.now j with
      | none => exact .refl _ i
      | some alarm => exact .expire
    | links use => exact .of_session? rfl rfl rfl
    | pass ms => exact .refl _ i
    | _ => cases hy
  | expiry j => exact .handleExpiry
  | shutdown => cases hy
  | packet deliver =>
    unfold after
    cases st.inbound.take? with
    | none => exact .refl _ i
    | some item =>
      cases deliver with
      | true => exact .inbound
      | false => exact .refl _ i
  | trigger deliver =>
    unfold after
    cases st.registry.triggers.take? with
    | none => exact .refl _ i
    | some item =>
      have htaken : st.registry.Spares { st.registry with triggers := item.2 } i :=
        .of_session? rfl rfl rfl
      cases deliver with
      | true => exact htaken.trans .transmit
      | false => exact htaken
  | turn => exact .of_session? rfl rfl rfl
  | exit => exact .of_session? rfl rfl rfl
  | close => exact .of_session? rfl rfl rfl

/-- **It opens no interface.** -/
theorem launched_of_spares (hranked : st.registry.Ranked) (hy : y.sparesPorts = true) :
    st.launched y = [] := by
  have hsame : (st.after y).registry.generation = st.registry.generation :=
    (spares_after (i := 0) hy).generation
  have hcount := generation_after hranked y
  exact List.length_eq_zero_iff.1 (by omega)

end Station

end Lldp
