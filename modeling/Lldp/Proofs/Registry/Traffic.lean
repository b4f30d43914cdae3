/-
# What goes out

A registry puts a frame on a link in one way only: it meets a request to transmit
on a port that is captured, and the frame goes through the handle of that capture
(`exists_of_sentAt_ne`).  Starting and stopping ports opens and closes handles
and writes nothing, and no other operation reaches the links at all.

What others write on a link, `Event.surround`, is theirs and not the registry's.
-/

import Lldp.Proofs.Registry.Course

namespace Lldp
namespace Registry

variable {r : Registry} {i : IfIndex} {now link : Nat} {on : Bool} {e : Event}

@[simp] theorem follow_sentAt : (r.follow i on).backend.sentAt link = r.backend.sentAt link := by
  unfold follow
  split_ifs
  · exact start_sentAt
  · exact stop_sentAt

theorem followAll_sentAt (is : List IfIndex) :
    (r.followAll is on).backend.sentAt link = r.backend.sentAt link := by
  induction is generalizing r with
  | nil => rfl
  | cons i is ih => exact ih.trans follow_sentAt

/-- No change of settings writes. -/
theorem apply_sentAt {change : Change} :
    (r.apply change).2.backend.sentAt link = r.backend.sentAt link := by
  cases change with
  | globalEnable on =>
    rw [apply_globalEnable, followAll_sentAt]
    rfl
  | portEnable i on =>
    rw [apply_portEnable, follow_sentAt]
    rfl
  | timing interval multiplier =>
    rcases apply_timing_cases r interval multiplier with ⟨-, h⟩ | ⟨timing, -, -, h⟩
    · rw [h]
    · rw [h]
      rfl

/-- No request of a client writes. -/
theorem execute_sentAt {q : Request} :
    (r.execute q).2.backend.sentAt link = r.backend.sentAt link := by
  cases q with
  | add port =>
    show (r.add port).2.backend.sentAt link = _
    rw [add_backend]
  | remove i =>
    show (r.remove i).2.backend.sentAt link = _
    rw [remove_backend, stop_sentAt]
  | reportLink i state =>
    show (r.reportLink i state).2.backend.sentAt link = _
    rw [reportLink_snd, follow_sentAt, setLink_snd, modify_backend]
  | neighbors start count => rfl
  | counters i => rfl
  | apply change => exact apply_sentAt

/-- **What is neither a request to transmit nor the doing of others writes
nothing.** -/
theorem react_sentAt (ht : ∀ i, e ≠ .transmit i) (hx : ∀ x, e ≠ .surround x) :
    (r.react now e).backend.sentAt link = r.backend.sentAt link := by
  cases e with
  | request q => exact execute_sentAt
  | setLink i state =>
    show (r.setLink i state).2.backend.sentAt link = _
    rw [setLink_snd, modify_backend]
  | start i => exact start_sentAt
  | stop i => exact stop_sentAt
  | inbound packet =>
    show (r.handleInbound now packet).backend.sentAt link = _
    rw [handleInbound_backend]
  | transmit i => exact absurd rfl (ht i)
  | expire key =>
    cases ha : r.alarms.dueUnder? now key with
    | none => simp only [react, ha]
    | some a =>
      simp only [react, ha, expire]
      rw [handleExpiry_frame.2.1]
  | surround x => exact absurd rfl (hx x)
  | pass ms => rfl

/-- **A frame goes out through the capture of the port that was asked to
transmit**, it is the one that the port's transmitter holds ready, and nothing
else goes out with it. -/
theorem exists_of_sentAt_ne (hx : ∀ x, e ≠ .surround x)
    (h : (r.react now e).backend.sentAt link ≠ r.backend.sentAt link) :
    ∃ i s c hd, e = .transmit i ∧ r.session? i = some s ∧ s.capture = some c ∧
      r.backend.handles[c.handle]? = some hd ∧ hd.link = link ∧
      (s.transmitter.current s.port.mac s.port.name).1 ≠ [] ∧
      (r.react now e).backend.sentAt link =
        r.backend.sentAt link ++ [(s.transmitter.current s.port.mac s.port.name).1] := by
  by_cases ht : ∀ i, e ≠ .transmit i
  · exact absurd (react_sentAt ht hx) h
  · obtain ⟨i, rfl⟩ : ∃ i, e = .transmit i := by
      simpa using ht
    simp only [react] at h ⊢
    rcases handleTransmit_cases r i with
      ⟨-, heq⟩ | ⟨s, c, hs, hc, ⟨-, heq⟩ | ⟨-, -, heq⟩ | ⟨hne, lo', hw, heq⟩⟩
    · rw [heq] at h
      exact absurd rfl h
    · rw [heq] at h
      exact absurd rfl h
    · rw [heq] at h
      exact absurd rfl h
    · obtain ⟨hd, hhd, hsent⟩ := Loopback.sentAt_of_write hw
      have hafter : (r.handleTransmit i).backend.sentAt link = lo'.sentAt link := by rw [heq]; rfl
      rw [hafter, hsent] at h
      have hlink : hd.link = link := by
        by_contra hne'
        rw [if_neg (Ne.symm hne'), List.append_nil] at h
        exact h rfl
      refine ⟨i, s, c, hd, rfl, hs, hc, hhd, hlink, hne, ?_⟩
      rw [hafter, hsent, if_pos hlink.symm]

end Registry
end Lldp
