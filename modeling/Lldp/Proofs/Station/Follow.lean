/-
# Following one task

The task of a generation changes by its own steps and in no other way, except that it is
told of the exit signal (`follow_cases`).  So what it can still do is seen from where it
stands, whatever other tasks, operations and frames come in between.

A task waits for room in the mailbox exactly while it has one packet there, and the
packet is its own (`Awaits`).
-/

import Lldp.Proofs.Station.Order

namespace Lldp

namespace Mailbox

variable {σ α : Type} [DecidableEq σ] {b : Mailbox σ α} {sender other : σ} {item : α}

/-- The only item of a sender goes into the box. -/
theorem settle_of_waiting (h : b.waiting.filter (·.1 = sender) = [(sender, item)])
    (hclosed : b.closed = false) : b.settle sender = (b.withdraw sender).push item := by
  have hfirst : b.waiting.find? (·.1 = sender) = some (sender, item) := by
    rw [← List.head?_filter, h]
    rfl
  unfold settle
  simp only [hfirst, hclosed]
  rfl

/-- A sender that ends its wait has nothing waiting any more. -/
theorem waiting_settle : (b.settle sender).waiting = b.waiting.filter (·.1 ≠ sender) := by
  unfold settle
  cases h : b.waiting.find? (·.1 = sender) with
  | some w =>
    dsimp only
    split_ifs <;> rfl
  | none =>
    have hnone := List.find?_eq_none.1 h
    exact (List.filter_eq_self.2 (by simpa using hnone)).symm

/-- Who is let in does not wait any more. -/
theorem waiting_settle_self : (b.settle sender).waiting.filter (·.1 = sender) = [] := by
  rw [waiting_settle, List.filter_filter]
  exact List.filter_eq_nil_iff.2 (by simp)

/-- Others wait on. -/
theorem waiting_settle_of_ne (h : other ≠ sender) :
    (b.settle sender).waiting.filter (·.1 = other) = b.waiting.filter (·.1 = other) := by
  rw [waiting_settle, List.filter_filter]
  refine List.filter_congr fun w _ => ?_
  by_cases hw : w.1 = other
  · simp [hw, h]
  · simp [hw]

/-- Nobody is let into a box that is closed. -/
theorem items_settle_of_closed (h : b.closed = true) : (b.settle sender).items = b.items := by
  unfold settle
  split
  · rw [if_pos h]
    rfl
  · rfl

/-- A wait that ends changes no more than what is in the box, and adds to it at the end. -/
theorem settle_keeps : (b.settle sender).closed = b.closed ∧
    (b.settle sender).capacity = b.capacity ∧ b.items <+: (b.settle sender).items := by
  unfold settle
  split
  · split_ifs
    · exact ⟨rfl, rfl, List.prefix_rfl⟩
    · exact ⟨rfl, rfl, List.prefix_append _ _⟩
  · exact ⟨rfl, rfl, List.prefix_rfl⟩

end Mailbox

/-- A task after an incident that is not a step of its own. -/
def CaptureTask.told (t : CaptureTask) (x : Incident) : CaptureTask :=
  if x = .exit then { t with exiting := true } else t

/-- A task that is told of the exit signal is where it was. -/
@[simp] theorem CaptureTask.phase_told {t : CaptureTask} {x : Incident} :
    (t.told x).phase = t.phase := by
  unfold told
  split_ifs <;> rfl

/-- It is still that of its port. -/
@[simp] theorem CaptureTask.ifIndex_told {t : CaptureTask} {x : Incident} :
    (t.told x).ifIndex = t.ifIndex := by
  unfold told
  split_ifs <;> rfl

/-- It is still that of its generation. -/
@[simp] theorem CaptureTask.generation_told {t : CaptureTask} {x : Incident} :
    (t.told x).generation = t.generation := by
  unfold told
  split_ifs <;> rfl

namespace Station

variable {st : Station} {x : Incident} {t : CaptureTask} {generation other : Nat}
  {phase? : Option CapturePhase} {lo : Loopback} {box : Mailbox Nat Inbound}

/-! ### The task of a generation -/

/-- **What happens to the task of a generation.**  It advances by its own step; or nothing
happens at all; or it is told of the exit signal at the most; or it is set off, and has yet
to begin. -/
theorem follow_cases (hranked : st.registry.Ranked) (generation : Nat) (x : Incident) :
    (∃ t phase? lo box, x = .task (.capture t.generation) ∧ t.generation = generation ∧
        st.captureTask? t.generation = some t ∧ st.Advance t phase? lo box ∧
        st.after x = st.become t.generation phase? lo box) ∨
      (st.after x = st ∧ ∀ t, x = .task (.capture t.generation) →
        st.captureTask? t.generation = some t → st.captureReady t = false) ∨
      (x ≠ .task (.capture generation) ∧
        (st.after x).captureTask? generation = (st.captureTask? generation).map (·.told x)) ∨
      x ≠ .task (.capture generation) ∧ st.registry.generation < generation ∧
        st.captureTask? generation = none ∧
        ∃ t, t.phase = .watching ∧ (st.after x).captureTask? generation = some t := by
  have hsame : x ≠ .exit → (st.captureTask? generation).map (·.told x) =
      st.captureTask? generation := by
    intro hx
    have hid : (fun t : CaptureTask => t.told x) = id := by
      funext t
      rw [CaptureTask.told, if_neg hx]
      rfl
    rw [hid, Option.map_id_fun, id]
  by_cases hexit : x = .exit
  · subst hexit
    refine Or.inr (Or.inr (Or.inl ⟨nofun, ?_⟩))
    show (st.registry.tasks.map _).find? _ = _
    rw [List.find?_map]
    rfl
  · rw [hsame hexit]
    by_cases htask : ∃ task, x = .task task
    · obtain ⟨task, rfl⟩ := htask
      rw [after_task]
      rcases step_cases hranked task with
        ⟨hstep, hnot⟩ | ⟨t, phase?, lo, box, rfl, htask, hadvance, hstep⟩ |
        ⟨i, s, ticker, triggers, stamp, rfl, -, -, hstep⟩
      · refine Or.inr (Or.inl ⟨hstep, fun t heq => hnot t ?_⟩)
        exact Incident.task.inj heq
      · by_cases hg : t.generation = generation
        · exact Or.inl ⟨t, phase?, lo, box, rfl, hg, htask, hadvance, hstep⟩
        · refine Or.inr (Or.inr (Or.inl ⟨?_, ?_⟩))
          · simpa using hg
          · rw [hstep, captureTask?_become_of_ne (Ne.symm hg)]
      · refine Or.inr (Or.inr (Or.inl ⟨nofun, ?_⟩))
        rw [hstep]
        rfl
    · have hnot : x ≠ .task (.capture generation) := fun h => htask ⟨_, h⟩
      refine Or.inr (Or.inr ?_)
      rcases launched_cases hranked x with
        haltered | ⟨-, ⟨task, hx, -⟩ | ⟨use, -, heq⟩ | ⟨hx, -⟩⟩
      · have hafter : (st.after x).captureTask? generation = (st.captureTask? generation).or
            ((st.launched x).find? (·.generation = generation)) := by
          rw [captureTask?, haltered.tasks, List.find?_append, captureTask?]
        cases hbefore : st.captureTask? generation with
        | some t =>
          rw [hbefore, Option.some_or] at hafter
          exact Or.inl ⟨hnot, hafter⟩
        | none =>
          rw [hbefore, Option.none_or] at hafter
          cases hnew : (st.launched x).find? (·.generation = generation) with
          | none => exact Or.inl ⟨hnot, hafter.trans hnew⟩
          | some t =>
            have hmem := List.mem_of_find?_eq_some hnew
            have hg : generation ∈ List.range' (st.registry.generation + 1)
                (st.launched x).length := by
              rw [← haltered.generations.1, ← generation_of_captureTask? (hafter.trans hnew)]
              exact List.mem_map_of_mem hmem
            refine Or.inr ⟨hnot, ?_, rfl, t, (haltered.begins t hmem).1, hafter.trans hnew⟩
            exact (List.mem_range'_1.1 hg).1
      · exact absurd ⟨task, hx⟩ htask
      · refine Or.inl ⟨hnot, ?_⟩
        show (st.after x).registry.tasks.find? _ = _
        rw [heq]
        rfl
      · exact absurd hx hexit

/-! ### The mailbox -/

/-- **No incident but a step of a task that reads a capture** puts anything in the mailbox
or changes who waits for room. -/
theorem inbound_after (hranked : st.registry.Ranked) (hx : ∀ g, x ≠ .task (.capture g)) :
    (st.after x).inbound.waiting = st.inbound.waiting ∧
      (st.after x).inbound.items <:+ st.inbound.items := by
  cases x with
  | task task =>
    rcases step_cases hranked task with
      ⟨hstep, -⟩ | ⟨t, phase?, lo, box, rfl, -, -, -⟩ |
      ⟨i, s, ticker, triggers, stamp, -, -, -, hstep⟩
    · rw [after_task, hstep]
      exact ⟨rfl, List.suffix_rfl⟩
    · exact absurd rfl (hx t.generation)
    · rw [after_task, hstep]
      exact ⟨rfl, List.suffix_rfl⟩
  | operation o => exact ⟨rfl, List.suffix_rfl⟩
  | expiry i => exact ⟨rfl, List.suffix_rfl⟩
  | shutdown => exact ⟨rfl, List.suffix_rfl⟩
  | packet deliver =>
    unfold after
    cases htake : st.inbound.take? with
    | none => exact ⟨rfl, List.suffix_rfl⟩
    | some taken =>
      obtain ⟨p, inbound⟩ := taken
      obtain ⟨hitems, hwaiting⟩ := Mailbox.of_take?_eq_some htake
      have hsuffix : inbound.items <:+ st.inbound.items := ⟨[p], hitems.symm⟩
      cases deliver with
      | true => exact ⟨hwaiting, hsuffix⟩
      | false => exact ⟨hwaiting, hsuffix⟩
  | trigger deliver =>
    unfold after
    cases st.registry.triggers.take? <;> exact ⟨rfl, List.suffix_rfl⟩
  | turn => exact ⟨rfl, List.suffix_rfl⟩
  | exit => exact ⟨rfl, List.suffix_rfl⟩
  | close => exact ⟨rfl, List.nil_suffix⟩

/-- What others have waiting stays as it is. -/
theorem Advance.waiting_of_ne (h : st.Advance t phase? lo box) (hne : other ≠ t.generation) :
    box.waiting.filter (·.1 = other) = st.inbound.waiting.filter (·.1 = other) := by
  cases h with
  | blocked hphase hclosed hroom =>
    rw [List.filter_append]
    simp [Ne.symm hne]
  | stranded hphase h => exact Mailbox.waiting_settle_of_ne hne
  | settled hphase h hroom => exact Mailbox.waiting_settle_of_ne hne
  | _ => rfl

/-- **Only the task of a generation** comes to wait for room, or ceases to, in its name. -/
theorem waiting_after_of_ne (hranked : st.registry.Ranked)
    (hx : x ≠ .task (.capture generation)) :
    (st.after x).inbound.waiting.filter (·.1 = generation) =
      st.inbound.waiting.filter (·.1 = generation) := by
  by_cases hother : ∃ g, x = .task (.capture g)
  · obtain ⟨g, rfl⟩ := hother
    rcases step_cases hranked (.capture g) with
      ⟨hstep, -⟩ | ⟨t, phase?, lo, box, htask, -, hadvance, hstep⟩ |
      ⟨i, s, ticker, triggers, stamp, -, -, -, hstep⟩
    · rw [after_task, hstep]
    · obtain rfl := StationTask.capture.inj htask
      have hne : generation ≠ t.generation := fun heq => hx (by rw [heq])
      rw [after_task, hstep, inbound_become, hadvance.waiting_of_ne hne]
    · rw [after_task, hstep]
  · rw [(inbound_after hranked fun g hg => hother ⟨g, hg⟩).1]

/-! ### Waiting for room -/

/-- A task waits for room exactly while it has one packet waiting, and this is its own. -/
def Awaits (st : Station) : Prop := ∀ generation,
  (∃ t bytes, st.captureTask? generation = some t ∧ t.phase = .sending ∧
    st.inbound.waiting.filter (·.1 = generation) = [(generation, t.packet bytes)]) ∨
  (∀ t, st.captureTask? generation = some t → t.phase ≠ .sending) ∧
    st.inbound.waiting.filter (·.1 = generation) = []

/-- Where there is no task, none waits. -/
theorem Awaits.ofSettings (settings : Settings) : (Station.ofSettings settings).Awaits :=
  fun _ => Or.inr ⟨nofun, rfl⟩

/-- A task that does not wait for room has nothing waiting. -/
theorem Awaits.idle (h : st.Awaits) (ht : st.captureTask? t.generation = some t)
    (hphase : t.phase ≠ .sending) :
    st.inbound.waiting.filter (·.1 = t.generation) = [] := by
  rcases h t.generation with ⟨u, bytes, hu, hsending, -⟩ | ⟨-, hnone⟩
  · obtain rfl := Option.some.inj (ht.symm.trans hu)
    exact absurd hsending hphase
  · exact hnone

/-- A task that waits for room has one packet waiting. -/
theorem Awaits.sending (h : st.Awaits) (ht : st.captureTask? t.generation = some t)
    (hphase : t.phase = .sending) :
    ∃ bytes, st.inbound.waiting.filter (·.1 = t.generation) =
      [(t.generation, t.packet bytes)] := by
  rcases h t.generation with ⟨u, bytes, hu, -, hwaiting⟩ | ⟨hnot, -⟩
  · obtain rfl := Option.some.inj (ht.symm.trans hu)
    exact ⟨bytes, hwaiting⟩
  · exact absurd hphase (hnot t ht)

/-- **A task waits for room** when it has found none, and until it ends its wait. -/
theorem Advance.awaits (h : st.Advance t phase? lo box) (hawaits : st.Awaits)
    (ht : st.captureTask? t.generation = some t) :
    (∃ bytes, phase? = some .sending ∧
      box.waiting.filter (·.1 = t.generation) = [(t.generation, t.packet bytes)]) ∨
    phase? ≠ some .sending ∧ box.waiting.filter (·.1 = t.generation) = [] := by
  have hidle : t.phase ≠ .sending → st.inbound.waiting.filter (·.1 = t.generation) = [] :=
    hawaits.idle ht
  cases h with
  | @blocked bytes hphase hclosed hroom =>
    refine Or.inl ⟨bytes, rfl, ?_⟩
    rw [List.filter_append, hidle (by rw [hphase]; nofun), List.nil_append]
    simp
  | stranded hphase h => exact Or.inr ⟨nofun, Mailbox.waiting_settle_self⟩
  | settled hphase h hroom => exact Or.inr ⟨nofun, Mailbox.waiting_settle_self⟩
  | queued hphase h =>
    refine Or.inr ⟨?_, hidle (by rw [hphase]; nofun)⟩
    rcases h with rfl | rfl <;> nofun
  | _ => exact Or.inr ⟨nofun, hidle (by simp [*])⟩

/-- **Whatever happens**, a task waits for room exactly while it has a packet there. -/
theorem Awaits.after (h : st.Awaits) (hranked : st.registry.Ranked) (x : Incident) :
    (st.after x).Awaits := by
  intro generation
  rcases follow_cases hranked generation x with
    ⟨t, phase?, lo, box, -, rfl, ht, hadvance, heq⟩ | ⟨heq, -⟩ | ⟨hx, heq⟩ |
    ⟨hx, -, hnone, t, hphase, heq⟩
  · rw [heq, captureTask?_become ht, inbound_become]
    rcases hadvance.awaits h ht with ⟨bytes, rfl, hwaiting⟩ | ⟨hnot, hwaiting⟩
    · exact Or.inl ⟨_, bytes, rfl, rfl, hwaiting⟩
    · refine Or.inr ⟨fun u hu => ?_, hwaiting⟩
      obtain ⟨phase, rfl, rfl⟩ := Option.map_eq_some_iff.1 hu
      exact fun hsending => hnot (congrArg some hsending)
  · rw [heq]
    exact h generation
  · rw [heq, waiting_after_of_ne hranked hx]
    rcases h generation with ⟨t, bytes, ht, hsending, hwaiting⟩ | ⟨hnot, hwaiting⟩
    · refine Or.inl ⟨t.told x, bytes, by rw [ht]; rfl, t.phase_told.trans hsending, ?_⟩
      rw [hwaiting, CaptureTask.packet, CaptureTask.packet, t.ifIndex_told, t.generation_told]
    · refine Or.inr ⟨fun u hu => ?_, hwaiting⟩
      obtain ⟨t, ht, rfl⟩ := Option.map_eq_some_iff.1 hu
      rw [t.phase_told]
      exact hnot t ht
  · rw [heq, waiting_after_of_ne hranked hx]
    refine Or.inr ⟨fun u hu => ?_, ?_⟩
    · obtain rfl := Option.some.inj hu
      rw [hphase]
      intro hsending
      cases hsending
    · rcases h generation with ⟨u, bytes, hu, -⟩ | ⟨-, hwaiting⟩
      · cases hnone.symm.trans hu
      · exact hwaiting

/-! ### All that a run keeps -/

/-- What holds of a station whatever has happened to it. -/
structure Consistent (st : Station) : Prop where
  ranked : st.registry.Ranked
  numbered : st.registry.Numbered
  ordered : ∃ starts, st.registry.InOrder starts
  awaits : st.Awaits

namespace Consistent

/-- A station that has just begun is consistent. -/
theorem ofSettings (settings : Settings) : (Station.ofSettings settings).Consistent :=
  ⟨.ofSettings settings, .ofSettings settings, ⟨[], .ofSettings settings⟩, .ofSettings settings⟩

/-- **Whatever happens** leaves a station consistent. -/
theorem after (h : st.Consistent) (x : Incident) : (st.after x).Consistent where
  ranked := ranked_after h.ranked x
  numbered := numbered_after h.numbered h.ranked x
  ordered := by
    obtain ⟨starts, horder⟩ := h.ordered
    exact ⟨_, inOrder_after horder h.ranked x⟩
  awaits := h.awaits.after h.ranked x

/-- So does any number of incidents. -/
theorem run (h : st.Consistent) (incidents : List Incident) : (st.run incidents).Consistent :=
  run_invariant (fun _ x h => h.after x) h

/-- **The handle of a task is open only while its port has its capture.** -/
theorem isCurrent_of_isOpen (h : st.Consistent) (ht : t ∈ st.registry.tasks)
    (hopen : st.registry.backend.isOpen t.handle = true) :
    st.registry.isCurrent t.ifIndex t.generation = true := by
  obtain ⟨starts, horder⟩ := h.ordered
  obtain ⟨i, hi⟩ := horder.isOpen_iff.1 hopen
  obtain ⟨c, hc, hhandle⟩ := Option.map_eq_some_iff.1 hi
  obtain ⟨rfl, rfl⟩ := h.numbered.eq_of_handle (.inl hc) (.inr ⟨t, ht, rfl, rfl⟩) hhandle
  exact Registry.isCurrent_eq_true_iff.2 ⟨t.capture, hc, rfl⟩

end Consistent

end Station
end Lldp
