/-
# Packets on their way

Between the task that has read a packet and the dispatcher that takes it, the packet is
about to be passed on, or its task waits for room in the mailbox, or it lies in the
mailbox: it is `Station.inFlight`.  The tasks of a station bring a packet there in one
way only (`Station.Brings`): a task that has it in hand finds that its port still has the
capture which the packet was read through.  All else that they do takes packets further
on their way or off it (`Station.Drains`).

Which port a packet is for is known from its generation, since no generation is used
twice; so it does not matter which of several tasks a step is ascribed to.
-/

import Lldp.Proofs.Registry.Captures
import Lldp.Station

namespace Lldp

namespace Mailbox

variable {σ α : Type} {b b' : Mailbox σ α} {sender : σ} {item : α}

/-- An item that is sent at once is the last in the box. -/
theorem eq_of_send_eq_sent (h : b.send sender item = .sent b') : b' = b.push item := by
  unfold send at h
  split_ifs at h
  exact (Sending.sent.inj h).symm

/-- A sender that finds no room comes after all that wait. -/
theorem eq_of_send_eq_blocked (h : b.send sender item = .blocked b') :
    b' = { b with waiting := b.waiting ++ [(sender, item)] } := by
  unfold send at h
  split_ifs at h
  exact (Sending.blocked.inj h).symm

/-- Nothing can be taken just out of an empty box. -/
theorem items_of_take?_eq_none (h : b.take? = none) : b.items = [] := by
  unfold take? at h
  split at h
  · assumption
  · cases h

/-- What is taken was the first, and nobody who waits is let in by that. -/
theorem of_take?_eq_some (h : b.take? = some (item, b')) :
    b.items = item :: b'.items ∧ b'.waiting = b.waiting := by
  unfold take? at h
  split at h
  · cases h
  · rename_i first rest hitems
    obtain ⟨rfl, rfl⟩ := Prod.mk.inj (Option.some.inj h)
    exact ⟨hitems, rfl⟩

end Mailbox

/-- What a task passes on. -/
def CaptureTask.packet (t : CaptureTask) (bytes : Octets) : Inbound :=
  { ifIndex := t.ifIndex, bytes, generation := t.generation }

/-- The packet that a task is about to pass on. -/
def CaptureTask.passing? (t : CaptureTask) : Option Inbound :=
  match t.phase with
  | .passing bytes => some (t.packet bytes)
  | _ => none

/-- A task is about to pass on the packet that its phase holds, under its own port and
generation. -/
theorem CaptureTask.passing?_eq_some_iff {t : CaptureTask} {p : Inbound} :
    t.passing? = some p ↔
      t.phase = .passing p.bytes ∧ t.ifIndex = p.ifIndex ∧ t.generation = p.generation := by
  unfold passing?
  split
  · rename_i bytes hphase
    rw [hphase]
    constructor
    · intro h
      obtain rfl := Option.some.inj h
      exact ⟨rfl, rfl, rfl⟩
    · rintro ⟨hbytes, hi, hg⟩
      obtain rfl := CapturePhase.passing.inj hbytes
      rw [packet, hi, hg]
  · rename_i hphase
    exact iff_of_false nofun fun h => hphase _ h.1

namespace Station

variable {st st' st'' : Station} {t u : CaptureTask} {p : Inbound} {c : Capture} {i : IfIndex}
  {generation : Nat} {phase : CapturePhase}

/-- The packets that were let through and that the dispatcher has yet to take. -/
def inFlight (st : Station) : List Inbound :=
  st.inbound.items ++ st.inbound.waiting.map Prod.snd ++
    st.registry.tasks.filterMap CaptureTask.passing?

/-- **A packet on its way** lies in the mailbox, is held by a sender that waits, or is about to be
passed on. -/
theorem mem_inFlight : p ∈ st.inFlight ↔
    p ∈ st.inbound.items ∨ (∃ sender, (sender, p) ∈ st.inbound.waiting) ∨
      ∃ t ∈ st.registry.tasks, t.passing? = some p := by
  simp [inFlight]

/-- A packet in the mailbox is on its way. -/
theorem mem_inFlight_of_items (h : p ∈ st.inbound.items) : p ∈ st.inFlight :=
  mem_inFlight.2 (Or.inl h)

/-- So is one whose sender waits for room. -/
theorem mem_inFlight_of_waiting {w : Nat × Inbound} (h : w ∈ st.inbound.waiting) :
    w.2 ∈ st.inFlight :=
  mem_inFlight.2 (Or.inr (Or.inl ⟨w.1, h⟩))

/-- A task has this packet in hand, read through the capture that its port has. -/
def Reads (st : Station) (p : Inbound) (c : Capture) : Prop :=
  ∃ t ∈ st.registry.tasks, t.phase = .holding p.bytes ∧ t.ifIndex = p.ifIndex ∧
    t.capture = c ∧ c.generation = p.generation ∧ st.registry.capture? p.ifIndex = some c

/-- No task and no packet comes to those that were there. -/
structure Drains (st st' : Station) : Prop where
  tasks : ∀ u ∈ st'.registry.tasks,
    ∃ t ∈ st.registry.tasks, u.ifIndex = t.ifIndex ∧ u.capture = t.capture
  inFlight : ∀ p ∈ st'.inFlight, p ∈ st.inFlight

namespace Drains

/-- Where nothing happens, no packet gets on its way. -/
theorem refl (st : Station) : Drains st st := ⟨fun u hu => ⟨u, hu, rfl, rfl⟩, fun _ h => h⟩

/-- Two changes that bring no packet on its way bring none together. -/
theorem trans (h : Drains st st') (h' : Drains st' st'') : Drains st st'' where
  tasks u hu := by
    obtain ⟨t', ht', hi', hc'⟩ := h'.tasks u hu
    obtain ⟨t, ht, hi, hc⟩ := h.tasks t' ht'
    exact ⟨t, ht, hi'.trans hi, hc'.trans hc⟩
  inFlight p hp := h.inFlight p (h'.inFlight p hp)

/-- The packets are the same, and each task is one that was there and passes no other
packet on. -/
theorem of_tasks (hinbound : st'.inbound = st.inbound)
    (htasks : ∀ u ∈ st'.registry.tasks, ∃ t ∈ st.registry.tasks,
      u.ifIndex = t.ifIndex ∧ u.capture = t.capture ∧
        ∀ p, u.passing? = some p → t.passing? = some p) :
    Drains st st' where
  tasks u hu := by
    obtain ⟨t, ht, hi, hc, -⟩ := htasks u hu
    exact ⟨t, ht, hi, hc⟩
  inFlight p hp := by
    rw [mem_inFlight, hinbound] at hp
    rw [mem_inFlight]
    rcases hp with hitem | hwaiting | ⟨u, hu, hpass⟩
    · exact Or.inl hitem
    · exact Or.inr (Or.inl hwaiting)
    · obtain ⟨t, ht, -, -, hsame⟩ := htasks u hu
      exact Or.inr (Or.inr ⟨t, ht, hsame p hpass⟩)

/-- Without a change to the mailbox or to tasks, no packet moves. -/
theorem of_same (hinbound : st'.inbound = st.inbound)
    (htasks : st'.registry.tasks = st.registry.tasks) : Drains st st' :=
  of_tasks hinbound fun u hu => ⟨u, htasks ▸ hu, rfl, rfl, fun _ => id⟩

/-- What is done to links brings no packet on its way by itself. -/
theorem onBackend {change : Loopback → Loopback} : Drains st (st.onBackend change) :=
  of_same rfl rfl

/-- A task that ends takes along what it has, and brings nothing. -/
theorem endCapture : Drains st (st.endCapture generation) :=
  of_tasks rfl fun u hu => ⟨u, List.mem_of_mem_filter hu, rfl, rfl, fun _ => id⟩

/-- A task that moves to another phase than passing a packet on passes nothing on. -/
theorem setPhase (hphase : ∀ bytes, phase ≠ .passing bytes) :
    Drains st (st.setPhase generation phase) := by
  refine of_tasks rfl fun u hu => ?_
  obtain ⟨t, ht, rfl⟩ := List.mem_map.1 hu
  split_ifs
  · exact ⟨t, ht, rfl, rfl, fun p hp =>
      absurd (CaptureTask.passing?_eq_some_iff.1 hp).1 (hphase p.bytes)⟩
  · exact ⟨t, ht, rfl, rfl, fun _ => id⟩

/-- The tasks are the same, and each packet in the box was on its way there. -/
theorem of_inbound (htasks : st'.registry.tasks = st.registry.tasks)
    (hitems : ∀ p ∈ st'.inbound.items, p ∈ st.inFlight)
    (hwaiting : ∀ w ∈ st'.inbound.waiting, w.2 ∈ st.inFlight) : Drains st st' where
  tasks u hu := ⟨u, htasks ▸ hu, rfl, rfl⟩
  inFlight p hp := by
    rw [mem_inFlight, htasks] at hp
    rcases hp with hitem | ⟨sender, hwait⟩ | hpass
    · exact hitems p hitem
    · exact hwaiting _ hwait
    · exact mem_inFlight.2 (Or.inr (Or.inr hpass))

/-- A packet that is read is in hand, and not yet on its way. -/
theorem captureRead : Drains st (st.captureRead t) := by
  unfold Station.captureRead
  cases st.linkOf? t.handle with
  | none => exact refl st
  | some link =>
    obtain ⟨ended, backend⟩ := st.registry.backend.serve link st.now
    dsimp only
    split
    · exact onBackend.trans (setPhase nofun)
    · exact onBackend.trans (setPhase nofun)
    · exact onBackend.trans endCapture
    · exact onBackend

/-- A packet that is passed on was about to be. -/
theorem capturePass {bytes : Octets} (ht : t ∈ st.registry.tasks)
    (hphase : t.phase = .passing bytes) : Drains st (st.capturePass t bytes) := by
  have hpacket : t.packet bytes ∈ st.inFlight :=
    mem_inFlight.2 (Or.inr (Or.inr ⟨t, ht, CaptureTask.passing?_eq_some_iff.2
      ⟨hphase, rfl, rfl⟩⟩))
  unfold Station.capturePass
  split
  · exact endCapture
  · rename_i inbound hsent
    obtain rfl := Mailbox.eq_of_send_eq_sent hsent
    have hbox : Drains st { st with inbound := st.inbound.push (t.packet bytes) } := by
      refine of_inbound rfl (fun q hq => ?_) fun w hw => mem_inFlight_of_waiting hw
      rcases List.mem_append.1 hq with hold | hnew
      · exact mem_inFlight_of_items hold
      · rw [List.mem_singleton.1 hnew]
        exact hpacket
    exact hbox.trans (setPhase nofun)
  · rename_i inbound hblocked
    obtain rfl := Mailbox.eq_of_send_eq_blocked hblocked
    have hbox : Drains st { st with inbound := { st.inbound with
        waiting := st.inbound.waiting ++ [(t.generation, t.packet bytes)] } } := by
      refine of_inbound rfl (fun q hq => mem_inFlight_of_items hq) fun w hw => ?_
      rcases List.mem_append.1 hw with hold | hnew
      · exact mem_inFlight_of_waiting hold
      · rw [List.mem_singleton.1 hnew]
        exact hpacket
    exact hbox.trans (setPhase nofun)

/-- A sender that is let in moves its packet from one place of the way to another. -/
theorem settleInbound {sender : Nat} :
    Drains st { st with inbound := st.inbound.settle sender } := by
  unfold Mailbox.settle
  split
  · rename_i sender' item hfirst
    have hwait : ∀ w ∈ (st.inbound.withdraw sender).waiting, w.2 ∈ st.inFlight :=
      fun w hw => mem_inFlight_of_waiting (List.mem_of_mem_filter hw)
    split_ifs
    · exact of_inbound rfl (fun q hq => mem_inFlight_of_items hq) hwait
    · refine of_inbound rfl (fun q hq => ?_) hwait
      rcases List.mem_append.1 hq with hold | hnew
      · exact mem_inFlight_of_items hold
      · rw [List.mem_singleton.1 hnew]
        exact mem_inFlight_of_waiting (List.mem_of_find?_eq_some hfirst)
  · exact refl st

/-- Tickers have to do with no packet. -/
theorem tickerStep : Drains st (st.tickerStep i) := by
  unfold Station.tickerStep
  cases st.registry.session? i with
  | none => exact refl st
  | some s =>
    cases hticker : s.transmitter.ticker with
    | none =>
      simp only [hticker]
      exact refl st
    | some ticker =>
      simp only [hticker]
      exact of_same rfl rfl

end Drains

/-- No task comes to those that were there, and a packet only if a task had it in hand,
read through the capture that its port has. -/
structure Brings (st st' : Station) : Prop where
  tasks : ∀ u ∈ st'.registry.tasks,
    ∃ t ∈ st.registry.tasks, u.ifIndex = t.ifIndex ∧ u.capture = t.capture
  inFlight : ∀ p ∈ st'.inFlight, p ∈ st.inFlight ∨ ∃ c, st.Reads p c

namespace Brings

/-- What brings nothing on its way brings it in the one way there is. -/
theorem of_drains (h : Drains st st') : Brings st st' :=
  ⟨h.tasks, fun p hp => Or.inl (h.inFlight p hp)⟩

/-- **A packet is let through** if the capture it was read from is current. -/
theorem setPhase_passing (hagree : st.registry.CapturesAgree) (ht : t ∈ st.registry.tasks)
    {bytes : Octets} (hphase : t.phase = .holding bytes)
    (hcurrent : st.registry.isCurrent t.ifIndex t.generation = true) :
    Brings st (st.setPhase t.generation (.passing bytes)) := by
  obtain ⟨c, hc, hg⟩ := Registry.isCurrent_eq_true_iff.1 hcurrent
  obtain ⟨-, rfl⟩ := hagree.eq_capture ht hc hg
  constructor
  · intro u hu
    obtain ⟨v, hv, rfl⟩ := List.mem_map.1 hu
    refine ⟨v, hv, ?_⟩
    split_ifs <;> exact ⟨rfl, rfl⟩
  · intro p hp
    rcases mem_inFlight.1 hp with hitem | ⟨sender, hwait⟩ | ⟨u, hu, hpass⟩
    · exact Or.inl (mem_inFlight_of_items hitem)
    · exact Or.inl (mem_inFlight.2 (Or.inr (Or.inl ⟨sender, hwait⟩)))
    · obtain ⟨v, hv, rfl⟩ := List.mem_map.1 hu
      split_ifs at hpass with hsame
      · obtain ⟨hbytes, hi, hgen⟩ := CaptureTask.passing?_eq_some_iff.1 hpass
        obtain rfl := CapturePhase.passing.inj hbytes
        -- Whatever task has this generation, the port is the one the capture was opened for.
        obtain ⟨hport, -⟩ := hagree.unique _ _ _ _ (.inr ⟨v, hv, rfl, rfl⟩)
          (.inr ⟨t, ht, rfl, rfl⟩) hsame
        have hti : t.ifIndex = p.ifIndex := hport.symm.trans hi
        exact Or.inr ⟨t.capture, t, ht, hphase, hti, rfl, hsame.symm.trans hgen, hti ▸ hc⟩
      · exact Or.inl (mem_inFlight.2 (Or.inr (Or.inr ⟨v, hv, hpass⟩)))

/-- **The task that reads a capture** lets through what it has read while the capture
is current, and brings nothing else on its way. -/
theorem captureStep (hagree : st.registry.CapturesAgree) (ht : t ∈ st.registry.tasks) :
    Brings st (st.captureStep t) := by
  unfold Station.captureStep
  cases hphase : t.phase with
  | watching =>
    dsimp only
    split_ifs
    · exact of_drains .endCapture
    · exact of_drains (.setPhase nofun)
  | checking =>
    dsimp only
    split_ifs
    · exact of_drains (.setPhase nofun)
    · exact of_drains .endCapture
  | opening =>
    dsimp only
    split
    · exact of_drains .endCapture
    · exact of_drains (.setPhase nofun)
  | queueing =>
    refine of_drains (Drains.onBackend.trans (.setPhase fun bytes => ?_))
    split_ifs <;> nofun
  | waiting => exact of_drains (.setPhase nofun)
  | reading => exact of_drains .captureRead
  | holding bytes =>
    dsimp only
    split_ifs with hcurrent
    · exact setPhase_passing hagree ht hphase hcurrent
    · exact of_drains .endCapture
  | passing bytes => exact of_drains (.capturePass ht hphase)
  | sending =>
    dsimp only
    split_ifs
    · exact of_drains (Drains.settleInbound.trans .endCapture)
    · exact of_drains (Drains.settleInbound.trans (.setPhase nofun))

/-- **Whichever task makes a step**, packets get on their way in one way only. -/
theorem step (hagree : st.registry.CapturesAgree) (task : StationTask) :
    Brings st (st.step task) := by
  unfold Station.step
  cases task with
  | capture generation =>
    dsimp only
    split
    · exact of_drains (.refl st)
    · rename_i t htask
      split_ifs
      · exact captureStep hagree (List.mem_of_find?_eq_some htask)
      · exact of_drains (.refl st)
  | ticker i =>
    dsimp only
    split_ifs
    · exact of_drains .tickerStep
    · exact of_drains (.refl st)

end Brings

end Station

end Lldp
