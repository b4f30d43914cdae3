/-
# A station with a port that goes on listening

While a port is captured and every interface is used by one port, routine keeps all that
matters to what it hears (`Listens`): the capture, the name of its interface, and who reads
on its link.  So what is said of one incident can be said of a run: what is underway for
the capture flows on (`Listens.flow`), the count of what the port has heard grows by the
packets that are taken out of the mailbox for it (`Listens.heard_after`), and those among
them that were not read through the capture were on their way before
(`Listens.mem_inFlight`).
-/

import Lldp.Proofs.Registry.Listening
import Lldp.Proofs.Station.Flow

namespace Lldp
namespace Station

variable {st : Station} {x : Incident} {i : IfIndex} {c : Capture} {s s' : Session}
  {name : String} {p : Inbound}

namespace Tended

/-- **Routine does not start ports and stop ports** at once. -/
theorem leans_after (h : st.Tended) (hx : x.isRoutine = true) :
    ∃ up, st.registry.Leans up (st.after x).registry := by
  have hnumbered := h.consistent.numbered
  cases x with
  | task task => exact ⟨true, .of_eq fun i => capture?_step st task i⟩
  | operation o => exact hnumbered.operate_leans st.now o
  | packet deliver =>
    obtain rfl : deliver = true := hx
    unfold Station.after
    cases st.inbound.take? with
    | none => exact ⟨true, .of_eq fun _ => rfl⟩
    | some item => exact hnumbered.operate_leans st.now (.inbound item.1)
  | trigger deliver =>
    obtain rfl : deliver = true := hx
    unfold Station.after
    cases st.registry.triggers.take? with
    | none => exact ⟨true, .of_eq fun _ => rfl⟩
    | some item =>
      have htaken : { st.registry with triggers := item.2 }.Numbered :=
        hnumbered.of_captures rfl rfl (fun _ _ => id) rfl
      obtain ⟨up, hleans⟩ := htaken.operate_leans st.now (.transmit item.1)
      have hsame : st.registry.Leans up { st.registry with triggers := item.2 } :=
        .of_eq fun _ => rfl
      exact ⟨up, hsame.trans hleans⟩
  | turn => exact ⟨true, .of_eq fun _ => rfl⟩
  | expiry j => cases hx
  | shutdown => cases hx
  | exit => cases hx
  | close => cases hx

/-- **A captured port hears what is taken out of the mailbox for it.** -/
theorem heard_after (h : st.Tended) (hx : x.isRoutine = true)
    (hc : st.registry.isCapturing i = true) (hthen : (st.after x).registry.isRegistered i = true) :
    (st.after x).registry.heard i =
      st.registry.heard i + ((st.taken x).filter (·.ifIndex = i)).length := by
  have hoperate : ∀ {r : Registry} {o : Operation}, r.Sound → r.isCapturing i = true →
      (r.operate st.now o).2.isRegistered i = true → o.handed = [] →
      (r.operate st.now o).2.heard i = r.heard i := by
    intro r o hsound hcapturing hregistered hnone
    rw [hsound.heard_operate hcapturing hregistered, hnone]
    rfl
  cases x with
  | task task =>
    obtain ⟨-, surroundings, hdrift⟩ := drifts_step st task
    show (st.step task).registry.heard i = st.registry.heard i
    rw [hdrift, Registry.heard, Registry.session?_surround, Registry.heard]
    cases st.registry.session? i <;> rfl
  | operation o =>
    have hnone : o.handed = [] := by
      cases o with
      | inbound packet => cases hx
      | _ => rfl
    exact hoperate h.sound hc hthen hnone
  | packet deliver =>
    obtain rfl : deliver = true := hx
    unfold Station.after at hthen ⊢
    unfold taken
    cases htake : st.inbound.take? with
    | none =>
      rw [Mailbox.items_of_take?_eq_none htake]
      rfl
    | some item =>
      obtain ⟨p, inbound⟩ := item
      obtain ⟨rest, hitems, rfl⟩ := Mailbox.take?_eq_some_iff.1 htake
      rw [htake] at hthen
      have hhanded : (st.registry.operate st.now (.inbound p)).2.heard i =
          st.registry.heard i + ([p].filter (·.ifIndex = i)).length :=
        h.sound.heard_operate hc hthen
      rw [hitems]
      exact hhanded
  | trigger deliver =>
    obtain rfl : deliver = true := hx
    unfold Station.after at hthen ⊢
    cases htake : st.registry.triggers.take? with
    | none => rfl
    | some item =>
      rw [htake] at hthen
      have htaken := sound_surround h.sound item.2 st.registry.alarms.wheel
      exact hoperate (o := .transmit item.1) htaken hc hthen rfl
  | turn => rfl
  | expiry j => cases hx
  | shutdown => cases hx
  | exit => cases hx
  | close => cases hx

/-- **Packets come on their way** from the hands of tasks whose captures are current. -/
theorem inFlight_after (h : st.Tended) (hx : x.isRoutine = true)
    (hp : p ∈ (st.after x).inFlight) : p ∈ st.inFlight ∨ ∃ c, st.Reads p c := by
  rcases routine_cases h.consistent.ranked hx with
    ⟨t, phase?, lo, box, rfl, -, -, -⟩ | ⟨name, frames, -, heq⟩ | ⟨-, hrests⟩
  · exact (Brings.step h.consistent.numbered.agree (.capture t.generation)).inFlight p hp
  · rw [heq] at hp
    exact Or.inl (Drains.onBackend.inFlight p hp)
  · obtain ⟨log, htasks, hlog⟩ := hrests.tasks
    obtain ⟨rest, hitems, hbox⟩ := hrests.inbound
    refine Or.inl (mem_inFlight.2 ?_)
    rcases mem_inFlight.1 hp with hitem | hwait | ⟨t, ht, hpass⟩
    · rw [hbox] at hitem
      rw [hitems]
      exact Or.inl (List.mem_append_right _ hitem)
    · rw [hbox] at hwait
      exact Or.inr (Or.inl hwait)
    · rw [htasks] at ht
      rcases List.mem_append.1 ht with hold | hnew
      · exact Or.inr (Or.inr ⟨t, hold, hpass⟩)
      · have hphase := (CaptureTask.passing?_eq_some_iff.1 hpass).1
        rw [(hlog t hnew).1] at hphase
        cases hphase

/-- Handles lead where they did. -/
theorem handles_after (h : st.Tended) (hx : x.isRoutine = true) {k : Nat} {hd : Handle}
    (hhd : st.registry.backend.handles[k]? = some hd) :
    ∃ hd', (st.after x).registry.backend.handles[k]? = some hd' ∧
      hd'.interface = hd.interface := by
  rcases routine_cases h.consistent.ranked hx with
    ⟨t, phase?, lo, box, -, -, hadvance, heq⟩ | ⟨name, frames, -, heq⟩ | ⟨-, hrests⟩
  · refine ⟨hd, ?_, rfl⟩
    rw [heq, backend_become, hadvance.handles, hhd]
  · refine ⟨hd, ?_, rfl⟩
    rw [heq, ← hhd]
    exact congrArg (fun hs : List Handle => hs[k]?) Loopback.handles_onLink
  · obtain ⟨hd', hhd', -, hinterface⟩ := hrests.quiet.handles k hd hhd
    exact ⟨hd', hhd', hinterface⟩

end Tended

/-! ### A port that listens -/

/-- A port is captured on the interface of a name, which no other port uses. -/
structure Listens (st : Station) (i : IfIndex) (c : Capture) (name : String) : Prop where
  tended : st.Tended
  apart : st.registry.NamesApart
  session : ∃ s, st.registry.session? i = some s ∧ s.capture = some c ∧ s.port.name = name

namespace Listens

theorem capture? (h : st.Listens i c name) : st.registry.capture? i = some c := by
  obtain ⟨s, hs, hc, -⟩ := h.session
  rw [Registry.capture?, hs]
  exact hc

theorem isCapturing (h : st.Listens i c name) : st.registry.isCapturing i = true := by
  rw [Registry.isCapturing_eq_isSome, h.capture?]
  rfl

/-- **A port that is still captured** has the same capture, of the same interface. -/
theorem after (h : st.Listens i c name) (hx : x.isRoutine = true)
    (hcaptured : (st.after x).registry.isCapturing i = true)
    (hapart : (st.after x).registry.NamesApart) : (st.after x).Listens i c name := by
  have hthen := h.tended.after hx
  obtain ⟨s, hs, hc, hname⟩ := h.session
  obtain ⟨s', hs', hsome⟩ := (Option.any_eq_true ..).1 hcaptured
  obtain ⟨c', hc'⟩ := Option.isSome_iff_exists.1 hsome
  have hcapture : (st.after x).registry.capture? i = some c' := by
    rw [Registry.capture?, hs']
    exact hc'
  obtain ⟨up, hleans⟩ := h.tended.leans_after hx
  obtain rfl := hleans.eq h.capture? hcapture
  refine ⟨hthen, hapart, s', hs', hc', ?_⟩
  obtain ⟨hd, hhd, hinterface⟩ := h.tended.sound.wired.captured i s c' hs hc
  obtain ⟨hd', hhd', hinterface'⟩ := hthen.sound.wired.captured i s' c' hs' hc'
  obtain ⟨hd'', hhd'', hsame⟩ := h.tended.handles_after hx hhd
  obtain rfl := Option.some.inj (hhd'.symm.trans hhd'')
  rw [← hname, ← hinterface, ← hinterface', hsame]

/-- **What is underway flows on.** -/
theorem flow (h : st.Listens i c name) (hx : x.isRoutine = true) :
    (((st.taken x).filter (isFor i c.generation)).map Inbound.bytes ++
        (st.after x).underway i c).Sublist (st.underway i c ++ x.injected name) ∧
      (st.underway i c ++ x.injected name).length + ((st.after x).rivals c).length ≤
        (((st.taken x).filter (isFor i c.generation)).map Inbound.bytes ++
          (st.after x).underway i c).length + (st.rivals c).length := by
  obtain ⟨s, hs, hc, rfl⟩ := h.session
  exact h.tended.flow hx h.apart hs hc

/-- **A packet for the port that was not read through the capture** was on its way before. -/
theorem mem_inFlight (h : st.Listens i c name) (hx : x.isRoutine = true)
    (hp : p ∈ (st.after x).inFlight) (hi : p.ifIndex = i) (hg : p.generation ≠ c.generation) :
    p ∈ st.inFlight := by
  rcases h.tended.inFlight_after hx hp with hold | ⟨d, t, -, -, -, -, hd, hcapture⟩
  · exact hold
  · rw [hi, h.capture?] at hcapture
    obtain rfl := Option.some.inj hcapture
    exact absurd hd.symm hg

end Listens

end Station
end Lldp
