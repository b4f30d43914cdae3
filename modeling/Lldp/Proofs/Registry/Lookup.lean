/-
# The session of a port

What each operation on a registry does to the session that is found under an
index.  Look-ups are the view of a registry that all later statements take: two
registries that agree on `session?` agree on everything a port can tell, and an
operation on one port is seen to leave every other port alone
(`session?_stop`, `session?_start`, `session?_remove`, …).

Registering and forgetting ports are the only operations that change which
indexes there are, so indexes never repeat once they do not
(`Registry.Distinct`), and a session in the list is the one found under its
index (`session?_of_mem`).
-/

import Lldp.Registry
import Mathlib.Data.List.Nodup

namespace Lldp
namespace Registry

variable {r : Registry} {i j : IfIndex} {s : Session}

/-- The session that is found under an index is that of the port with this index. -/
theorem ifIndex_of_session? (h : r.session? i = some s) : s.port.ifIndex = i := by
  simpa using List.find?_some h

/-- What is found is in the list. -/
theorem mem_of_session? (h : r.session? i = some s) : s ∈ r.sessions :=
  List.mem_of_find?_eq_some h

/-- A registered port has a session. -/
theorem exists_session?_of_mem (h : i ∈ r.indexes) : ∃ s, r.session? i = some s := by
  obtain ⟨s, hs, rfl⟩ := List.mem_map.1 h
  cases h' : r.session? s.port.ifIndex with
  | some t => exact ⟨t, rfl⟩
  | none =>
    have := List.find?_eq_none.1 h' s hs
    simp at this

/-- A port with a session is registered. -/
theorem mem_indexes_of_session? (h : r.session? i = some s) : i ∈ r.indexes :=
  ifIndex_of_session? h ▸ List.mem_map_of_mem (mem_of_session? h)

/-- **A port that is not registered has no session.** -/
theorem session?_eq_none_iff : r.session? i = none ↔ i ∉ r.indexes := by
  constructor
  · intro h hi
    obtain ⟨s, hs⟩ := exists_session?_of_mem hi
    simp [h] at hs
  · intro h
    cases hs : r.session? i with
    | none => rfl
    | some s => exact absurd (mem_indexes_of_session? hs) h

/-! ### Distinct indexes -/

/-- No index is registered twice. -/
def Distinct (r : Registry) : Prop := r.indexes.Nodup

/-- **Every session is the one found under its index.** -/
theorem session?_of_mem (h : r.Distinct) (hs : s ∈ r.sessions) :
    r.session? s.port.ifIndex = some s := by
  obtain ⟨t, ht⟩ := exists_session?_of_mem (List.mem_map_of_mem hs)
  have hmem := mem_of_session? ht
  have heq : t = s := List.inj_on_of_nodup_map h hmem hs (ifIndex_of_session? ht)
  rw [ht, heq]

/-! ### Changing sessions -/

/-- Changes that keep the ports commute with looking one up. -/
theorem find?_map_session {change : Session → Session} (h : ∀ s, (change s).port = s.port)
    (ss : List Session) :
    (ss.map change).find? (·.port.ifIndex = i) = (ss.find? (·.port.ifIndex = i)).map change := by
  rw [List.find?_map]
  congr 2
  funext s
  simp [h]

/-- **To change one session** is seen under its index alone. -/
theorem session?_modify {change : Session → Session} (h : ∀ s, (change s).port = s.port) :
    (r.modify i change).session? j =
      if j = i then (r.session? j).map change else r.session? j := by
  have hport : ∀ s : Session, (if s.port.ifIndex = i then change s else s).port = s.port := by
    intro s
    split
    · exact h s
    · rfl
  rw [modify, session?, find?_map_session hport]
  change (r.session? j).map _ = _
  cases hs : r.session? j with
  | none => simp
  | some s =>
    have := ifIndex_of_session? hs
    by_cases hj : j = i <;> simp [hj, this]

/-- A session that is changed keeps its place. -/
theorem indexes_modify {change : Session → Session} (h : ∀ s, (change s).port = s.port) :
    (r.modify i change).indexes = r.indexes := by
  simp only [indexes, modify, List.map_map]
  refine List.map_congr_left fun s _ => ?_
  simp only [Function.comp]
  split
  · rw [h]
  · rfl

/-- Sessions are no settings. -/
@[simp] theorem modify_settings {change : Session → Session} :
    (r.modify i change).settings = r.settings := rfl

/-- To change a session does nothing to alarms. -/
@[simp] theorem modify_alarms {change : Session → Session} :
    (r.modify i change).alarms = r.alarms := rfl

/-- To change a session does nothing to links. -/
@[simp] theorem modify_backend {change : Session → Session} :
    (r.modify i change).backend = r.backend := rfl

/-- There is nothing to change of a port that is not registered. -/
theorem modify_of_none {change : Session → Session} (h : r.session? i = none) :
    r.modify i change = r := by
  have hnot : ∀ s ∈ r.sessions, ¬s.port.ifIndex = i := by simpa using List.find?_eq_none.1 h
  rw [modify, List.map_congr_left fun s hs => if_neg (hnot s hs)]
  simp

/-! ### Registering a port -/

/-- A port that is registered already is not registered anew. -/
theorem add_of_session? {port : Port} (h : r.session? port.ifIndex = some s) :
    (r.add port).2 = r := by
  rw [add, h]

/-- **A new port** begins without anything learned, and no other is touched. -/
theorem session?_add {port : Port} (h : r.session? port.ifIndex = none) :
    (r.add port).2.session? j =
      if j = port.ifIndex then some (.ofPort port r.settings.timing) else r.session? j := by
  rw [add, h]
  simp only [session?, List.find?_append, List.find?_singleton, Session.ofPort]
  by_cases hj : j = port.ifIndex
  · have : r.sessions.find? (·.port.ifIndex = j) = none := hj ▸ h
    simp [hj, hj ▸ this]
  · simp [hj, Ne.symm hj]

/-- A new port comes last. -/
theorem indexes_add {port : Port} (h : r.session? port.ifIndex = none) :
    (r.add port).2.indexes = r.indexes ++ [port.ifIndex] := by
  rw [add, h]
  simp [indexes, Session.ofPort]

/-- Registering a port is no change of settings. -/
@[simp] theorem add_settings {port : Port} : (r.add port).2.settings = r.settings := by
  unfold add
  split <;> rfl

/-- A new port has no alarm, and others keep theirs. -/
@[simp] theorem add_alarms {port : Port} : (r.add port).2.alarms = r.alarms := by
  unfold add
  split <;> rfl

/-- Registering a port opens nothing. -/
@[simp] theorem add_backend {port : Port} : (r.add port).2.backend = r.backend := by
  unfold add
  split <;> rfl

/-! ### Forgetting a port -/

/-- The sessions that are left when one is dropped. -/
theorem session?_drop :
    { r with sessions := r.sessions.filter (·.port.ifIndex ≠ i) }.session? j =
      if j = i then none else r.session? j := by
  simp only [session?, List.find?_filter]
  split_ifs with hj
  · subst hj
    exact List.find?_eq_none.2 fun t _ => by simp
  · congr 1
    funext t
    by_cases ht : t.port.ifIndex = j
    · simp [ht, hj]
    · simp [ht]

/-! ### Recording a link's state and what is enabled -/

/-- The state of a link is recorded if the port is registered. -/
theorem setLink_snd {state : LinkState} :
    (r.setLink i state).2 = r.modify i fun s => { s with link := state } := by
  unfold setLink
  cases h : r.session? i with
  | some s => rfl
  | none => exact (modify_of_none h).symm

/-- The state of a link is recorded with its port alone. -/
theorem session?_setLink {state : LinkState} :
    (r.setLink i state).2.session? j =
      if j = i then (r.session? j).map fun s => { s with link := state } else r.session? j := by
  rw [setLink_snd]
  exact session?_modify fun _ => rfl

/-- Whether a port is to be heard of is recorded with it alone. -/
theorem session?_setPortEnabled {on : Bool} :
    (r.setPortEnabled i on).session? j =
      if j = i then (r.session? j).map fun s => { s with enabled := on } else r.session? j :=
  session?_modify fun _ => rfl

end Registry
end Lldp
