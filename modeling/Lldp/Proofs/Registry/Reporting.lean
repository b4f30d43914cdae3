/-
# What becomes of a report about a link

A link that is reported to be up or down is recorded and then followed.  On a port that is
enabled, and under a protocol that is, following is simple: the port is captured if its
link is up and its interface was open or can be opened, and exactly then is the report
accepted (`Registry.isCapturing_reportLink_up`, `Registry.isOk_reportLink_up`).  The
interface is opened by a report that finds it closed and by no other
(`Registry.tasks_reportLink`), and a report about one port is none about another.
-/

import Lldp.Proofs.Refusals
import Lldp.Proofs.Registry.Alterations

namespace Lldp
namespace Registry

variable {r r' : Registry} {i j : IfIndex} {s : Session} {state : LinkState}

/-- Whether a port is registered, and may run the protocol as far as settings go. -/
def isEnabled (r : Registry) (i : IfIndex) : Bool :=
  (r.session? i).any fun s => r.settings.enabled && s.enabled

theorem Spares.isEnabled (h : Spares r r' i) : r'.isEnabled i = r.isEnabled i := by
  rw [Registry.isEnabled, Registry.isEnabled, h.enabled]
  exact h.any fun s s' hs => by rw [hs.enabled]

theorem exists_session?_of_isEnabled (h : r.isEnabled i = true) :
    ∃ s, r.session? i = some s ∧ r.settings.enabled = true ∧ s.enabled = true := by
  obtain ⟨s, hs, hboth⟩ := (Option.any_eq_true _ _).1 h
  exact ⟨s, hs, Bool.and_eq_true_iff.1 hboth⟩

/-! ### What a report leaves as it is -/

theorem canOpen_setLink : (r.setLink j state).2.canOpen i = r.canOpen i := by
  unfold canOpen
  rw [setLink_snd]
  exact any_of_ite (session?_modify fun _ => rfl) fun _ => rfl

/-- **No report switches a port on or off.** -/
theorem isEnabled_reportLink : (r.reportLink j state).2.isEnabled i = r.isEnabled i := by
  have hset : (r.setLink j state).2.isEnabled i = r.isEnabled i := by
    unfold isEnabled
    rw [setLink_snd]
    exact any_of_ite (session?_modify fun _ => rfl) fun _ => rfl
  rw [reportLink_snd, ← hset, follow]
  unfold isEnabled
  split_ifs
  · rw [start_settings]
    exact any_of_ite session?_start fun _ => rfl
  · rw [stop_settings]
    exact any_of_ite session?_stop fun _ => rfl

/-- **A report about another port** leaves a port as it is. -/
theorem isCapturing_reportLink_of_ne (h : i ≠ j) :
    (r.reportLink j state).2.isCapturing i = r.isCapturing i := by
  rw [reportLink_snd, follow]
  split_ifs
  · rw [isCapturing_start, isCapturing_setLink]
    simp [h]
  · rw [isCapturing_stop, isCapturing_setLink]
    simp [h]

/-! ### What it does -/

/-- A port that is enabled is opened when its link comes up, unless it is captured. -/
theorem opens_setLink_up (h : r.isEnabled i = true) :
    (r.setLink i .up).2.opens i = (!r.isCapturing i && r.canOpen i) := by
  have hadmits : (r.setLink i .up).2.admits i = r.isEnabled i := by
    rw [admits_setLink, if_pos rfl, isEnabled]
    simp
  rw [opens_eq, hadmits, h, isCapturing_setLink, canOpen_setLink, Bool.true_and]

/-- **An interface is opened** when its link comes up and finds it closed. -/
theorem tasks_reportLink : (r.reportLink i state).2.tasks =
    r.tasks ++ if state = .up ∧ (r.setLink i .up).2.opens i = true then [r.nextTask i] else [] := by
  cases state with
  | down =>
    rw [reportLink_snd, if_neg (by simp), setLink_snd]
    exact (Alters.stop (r := r.modify i fun s => { s with link := .down })).tasks
  | up =>
    rw [reportLink_snd]
    show ((r.setLink i .up).2.start i).2.tasks = _
    rcases start_cases (r.setLink i .up).2 i with ⟨hnot, heq⟩ | ⟨hopens, s, lo', -, -, -, heq⟩
    · rw [heq, hnot, if_neg (by simp), setLink_snd, List.append_nil]
      rfl
    · rw [heq, hopens, if_pos ⟨rfl, rfl⟩, setLink_snd]
      rfl

/-- **After a link has come up** its port is captured if it was or can be opened. -/
theorem isCapturing_reportLink_up (h : r.isEnabled i = true) :
    (r.reportLink i .up).2.isCapturing i = (r.isCapturing i || r.canOpen i) := by
  rw [reportLink_snd]
  show ((r.setLink i .up).2.start i).2.isCapturing i = _
  rw [isCapturing_start, isCapturing_setLink, opens_setLink_up h]
  cases r.isCapturing i <;> simp

/-- **After a link has gone down** its port is not captured. -/
theorem isCapturing_reportLink_down : (r.reportLink i .down).2.isCapturing i = false := by
  rw [reportLink_snd]
  show ((r.setLink i .down).2.stop i).2.isCapturing i = false
  simp [isCapturing_stop]

/-- **A link that comes up is accepted** if its port is captured then. -/
theorem isOk_reportLink_up (h : r.isEnabled i = true) :
    (r.reportLink i .up).1.isOk = (r.isCapturing i || r.canOpen i) := by
  obtain ⟨s, hs, hglobal, henabled⟩ := exists_session?_of_isEnabled h
  have hsession : (r.setLink i .up).2.session? i = some { s with link := .up } :=
    session?_setLink_self hs
  rw [reportLink_up hs, isCapturing, canOpen, hs, Option.any_some, Option.any_some]
  cases hc : s.isCapturing with
  | true =>
    have hdue : (r.setLink i .up).2.isDue { s with link := .up } = false := by
      rw [Bool.eq_false_iff]
      intro hdue
      rw [(isDue_setLink_up.1 hdue).2.2] at hc
      cases hc
    rw [start, hsession]
    simp [hdue, Except.isOk, Except.toBool]
  | false =>
    have hdue := isDue_setLink_up (i := i).2 ⟨hglobal, henabled, hc⟩
    have hbackend : (r.setLink i .up).2.backend = r.backend := by rw [setLink_snd]; rfl
    by_cases hname : s.port.name ∈ r.backend.failingOpens
    · rw [start_of_mem hsession hdue (hbackend ▸ hname)]
      simp [hname, Except.isOk, Except.toBool]
    · obtain ⟨lo', hlo⟩ := Loopback.openHandle_of_notMem
        (r.setLink i .up).2.settings.capture.readTimeout Ethernet.captureFilter (hbackend ▸ hname)
      simp [start, hsession, hdue, hlo, hname, Except.isOk, Except.toBool]

/-- **A link that goes down** is accepted of every port that is registered. -/
theorem fst_reportLink_down (hs : r.session? i = some s) : (r.reportLink i .down).1 = .ok () := by
  rw [reportLink_down hs, fst_stop (session?_setLink_self hs)]

/-- A port that is not registered has nothing to report. -/
theorem reportLink_of_none (h : r.session? i = none) :
    r.reportLink i state = (.error (.portNotFound i), r) := by
  simp [reportLink, setLink, h]

end Registry
end Lldp
