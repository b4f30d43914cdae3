/-
# Silence

As long as no frame arrives, none is read and none is on its way: nothing waits on a link,
no task has a frame in hand, and the mailbox stays empty (`Station.Silent.after`).
-/

import Lldp.Proofs.Station.Listening

namespace Lldp
namespace Station

variable {st : Station} {x : Incident}

/-- No frame waits on a link, no task has one in hand, and none is on its way. -/
structure Silent (st : Station) : Prop where
  unread : ∀ link, st.registry.backend.unreadAt link = []
  unheld : ∀ t ∈ st.registry.tasks, ∀ bytes, t.phase ≠ .holding bytes
  inFlight : st.inFlight = []

namespace Silent

/-- Before anything happens, it is quiet. -/
theorem ofSettings (settings : Settings) : (Station.ofSettings settings).Silent :=
  ⟨fun _ => rfl, nofun, rfl⟩

/-- In silence, nothing lies in the mailbox. -/
theorem items (h : st.Silent) : st.inbound.items = [] := by
  have hall := h.inFlight
  rw [Station.inFlight, List.append_eq_nil_iff, List.append_eq_nil_iff] at hall
  exact hall.1.1

/-- **Nothing comes of nothing**, as long as no frame arrives. -/
theorem after (h : st.Silent) (htended : st.Tended) (hx : x.isRoutine = true)
    (hnone : ∀ name, x.injected name = []) : (st.after x).Silent := by
  have hflight : (st.after x).inFlight = [] := by
    refine List.eq_nil_iff_forall_not_mem.2 fun p hp => ?_
    rcases htended.inFlight_after hx hp with hold | ⟨c, t, ht, hphase, -⟩
    · rw [h.inFlight] at hold
      cases hold
    · exact h.unheld t ht p.bytes hphase
  suffices hrest : (∀ link, (st.after x).registry.backend.unreadAt link = []) ∧
      ∀ t ∈ (st.after x).registry.tasks, ∀ bytes, t.phase ≠ .holding bytes from
    ⟨hrest.1, hrest.2, hflight⟩
  rcases routine_cases htended.consistent.ranked hx with
    ⟨t, phase?, lo, box, rfl, ht, hadvance, heq⟩ | ⟨name, frames, rfl, heq⟩ | ⟨-, hrests⟩
  · obtain ⟨link, hlink, -⟩ := htended.exists_linkOf? (mem_of_captureTask? ht)
    rw [heq, backend_become]
    rcases hadvance.unread_cases hlink with ⟨bytes, -, -, -, htaken⟩ | ⟨hnot, hsame⟩
    · have hfirst := htaken link
      rw [h.unread, if_pos rfl] at hfirst
      cases hfirst
    · refine ⟨fun k => (hsame k).trans (h.unread k), fun u hu bytes => ?_⟩
      cases phase? with
      | none => exact h.unheld u (List.mem_of_mem_filter hu) bytes
      | some phase =>
        obtain ⟨v, hv, rfl⟩ := List.mem_map.1 hu
        split_ifs
        · exact fun hphase => hnot bytes (congrArg some hphase)
        · exact h.unheld v hv bytes
  · have hempty : frames = [] := by
      have hsame := hnone name
      rw [Incident.injected, if_pos rfl] at hsame
      exact hsame
    subst hempty
    rw [heq]
    have hsame : ∀ link, (st.registry.backend.inject name []).unreadAt link =
        st.registry.backend.unreadAt link := fun link =>
      Loopback.elim_onLink (f := Link.unread) (fun l => List.append_nil l.unread) rfl
    exact ⟨fun link => (hsame link).trans (h.unread link), h.unheld⟩
  · obtain ⟨log, htasks, hlog⟩ := hrests.tasks
    refine ⟨fun link => (hrests.quiet.unread link).trans (h.unread link), fun t ht bytes => ?_⟩
    rw [htasks] at ht
    rcases List.mem_append.1 ht with hold | hnew
    · exact h.unheld t hold bytes
    · rw [(hlog t hnew).1]
      nofun

end Silent

end Station
end Lldp
