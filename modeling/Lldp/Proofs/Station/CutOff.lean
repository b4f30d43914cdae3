/-
# What a task can still do when it is cut off

A port that is stopped and started again has another capture, and the task that reads the
former one may be anywhere: in a read, with a packet in hand, or waiting for room in the
mailbox.  It looks for its capture before each read and after it, so it is cut off there.

A task lets a packet through when it has found, after the read, that its port still has
the capture; the packet is then `due` until it is put in the mailbox.  There is one such
packet at the most, and none comes to it but in this way (`due_after`).  So a task whose
port does not have the capture any more puts no packet in the mailbox but the one that was
due, and one that has been told of the exit signal comes round to it at most once more.
Both are potentials that no incident raises, and bound what a run puts out.

Generations are not used twice, so at most one task of a port is current, and what is said
here of a task holds however many others of its port are still there
(`capture_tasks_cut_off`).
-/

import Lldp.Proofs.Station.Follow

namespace Lldp
namespace Station

variable {st : Station} {x : Incident} {t : CaptureTask} {generation : Nat} {p : Inbound}
  {bytes : Octets} {phase? : Option CapturePhase} {lo : Loopback} {box : Mailbox Nat Inbound}
  {settings : Settings} {incidents early late : List Incident}

/-! ### The packet that is due -/

/-- The packets that a task has let through and has yet to put in the mailbox. -/
def due (st : Station) (generation : Nat) : List Inbound :=
  (st.inbound.waiting.filter (·.1 = generation)).map Prod.snd ++
    ((st.captureTask? generation).bind CaptureTask.passing?).toList

/-- A packet that is about to be passed on is due. -/
theorem due_passing (h : st.Awaits) (ht : st.captureTask? t.generation = some t)
    (hphase : t.phase = .passing bytes) : st.due t.generation = [t.packet bytes] := by
  have hpassing : t.passing? = some (t.packet bytes) :=
    CaptureTask.passing?_eq_some_iff.2 ⟨hphase, rfl, rfl⟩
  rw [due, h.idle ht (by rw [hphase]; nofun), ht, Option.bind_some, hpassing]
  rfl

/-- So is one whose task waits for room. -/
theorem due_sending (h : st.Awaits) (ht : st.captureTask? t.generation = some t)
    (hphase : t.phase = .sending) :
    ∃ bytes, st.inbound.waiting.filter (·.1 = t.generation) = [(t.generation, t.packet bytes)] ∧
      st.due t.generation = [t.packet bytes] := by
  obtain ⟨bytes, hwaiting⟩ := h.sending ht hphase
  refine ⟨bytes, hwaiting, ?_⟩
  rw [due, hwaiting, ht, Option.bind_some, CaptureTask.passing?, hphase]
  rfl

/-- A task at any other place has let nothing through. -/
theorem due_eq_nil (h : st.Awaits)
    (hphase : ∀ t, st.captureTask? generation = some t →
      t.phase ≠ .sending ∧ ∀ bytes, t.phase ≠ .passing bytes) : st.due generation = [] := by
  have hwaiting : st.inbound.waiting.filter (·.1 = generation) = [] := by
    rcases h generation with ⟨t, bytes, ht, hsending, -⟩ | ⟨-, hnone⟩
    · exact absurd hsending (hphase t ht).1
    · exact hnone
  rw [due, hwaiting]
  cases ht : st.captureTask? generation with
  | none => rfl
  | some t =>
    have hnone : t.passing? = none := by
      cases hpassing : t.passing? with
      | none => rfl
      | some p =>
        exact absurd (CaptureTask.passing?_eq_some_iff.1 hpassing).1 ((hphase t ht).2 p.bytes)
    rw [Option.bind_some, hnone]
    rfl

/-- No more than one packet of a task is due. -/
theorem length_due_le (h : st.Awaits) (generation : Nat) : (st.due generation).length ≤ 1 := by
  by_cases hidle : ∀ t, st.captureTask? generation = some t →
      t.phase ≠ .sending ∧ ∀ bytes, t.phase ≠ .passing bytes
  · rw [due_eq_nil h hidle]
    exact Nat.zero_le _
  · push Not at hidle
    obtain ⟨t, ht, hphase⟩ := hidle
    obtain rfl := generation_of_captureTask? ht
    by_cases hsending : t.phase = .sending
    · obtain ⟨bytes, -, hdue⟩ := due_sending h ht hsending
      rw [hdue]
      exact Nat.le_refl _
    · obtain ⟨bytes, hpassing⟩ := hphase hsending
      rw [due_passing h ht hpassing]
      exact Nat.le_refl _

/-! ### What an incident puts in the mailbox -/

/-- Where items were only taken, none was put in. -/
theorem forwarded_of_suffix (h : (st.after x).inbound.items <:+ st.inbound.items) :
    st.forwarded x = [] :=
  List.drop_eq_nil_of_le h.length_le

/-- Where nothing happens, none is put in. -/
theorem forwarded_of_same (h : st.after x = st) : st.forwarded x = [] := by
  have hsame : (st.after x).inbound.items = st.inbound.items := by rw [h]
  exact forwarded_of_suffix (hsame ▸ List.suffix_rfl)

/-- **What a step does with the packet that is due.**  The task lets a packet through, or
puts the one that is due in the mailbox; or the mailbox gets nothing, and the packet is
still due or lost. -/
theorem Advance.due_cases (hadvance : st.Advance t phase? lo box) (h : st.Consistent)
    (ht : st.captureTask? t.generation = some t)
    (heq : st.after x = st.become t.generation phase? lo box) :
    (∃ bytes, t.phase = .holding bytes ∧
        st.registry.isCurrent t.ifIndex t.generation = true ∧ st.forwarded x = [] ∧
        (st.after x).due t.generation = [t.packet bytes]) ∨
      (∃ bytes, (t.phase = .passing bytes ∨ t.phase = .sending) ∧ phase? = some .watching ∧
        st.forwarded x = [t.packet bytes] ∧ st.due t.generation = [t.packet bytes] ∧
        (st.after x).due t.generation = []) ∨
      st.forwarded x = [] ∧ ((st.after x).due t.generation = st.due t.generation ∨
        (st.after x).due t.generation = []) := by
  have hafter : (st.after x).captureTask? t.generation =
      phase?.map fun phase => { t with phase } := by
    rw [heq, captureTask?_become ht]
  have hbox : (st.after x).inbound = box := by rw [heq, inbound_become]
  have hitems : ∀ ps, box.items = st.inbound.items ++ ps → st.forwarded x = ps := by
    intro ps hps
    rw [forwarded, hbox, hps, List.drop_left]
  have hnone : (∀ phase, phase? = some phase → phase ≠ .sending ∧ ∀ bytes, phase ≠ .passing bytes) →
      (st.after x).due t.generation = [] := by
    intro hphase
    refine due_eq_nil (h.after x).awaits fun u hu => ?_
    rw [hafter] at hu
    obtain ⟨phase, hsome, rfl⟩ := Option.map_eq_some_iff.1 hu
    exact hphase phase hsome
  cases hadvance with
  | @cleared bytes hphase hcurrent =>
    refine Or.inl ⟨bytes, hphase, hcurrent, hitems [] (List.append_nil _).symm, ?_⟩
    exact due_passing (h.after x).awaits (t := { t with phase := .passing bytes }) hafter rfl
  | @passed bytes hphase hclosed hroom =>
    exact Or.inr (Or.inl ⟨bytes, Or.inl hphase, rfl, hitems _ rfl, due_passing h.awaits ht hphase,
      hnone (by simp)⟩)
  | @blocked bytes hphase hclosed hroom =>
    refine Or.inr (Or.inr ⟨hitems [] (List.append_nil _).symm, Or.inl ?_⟩)
    rw [due, hafter, hbox, due_passing h.awaits ht hphase, List.filter_append,
      h.awaits.idle ht (by rw [hphase]; nofun)]
    simp [CaptureTask.passing?]
  | stranded hphase hclosed =>
    refine Or.inr (Or.inr ⟨hitems [] ?_, Or.inr (hnone (by simp))⟩)
    rw [Mailbox.items_settle_of_closed hclosed, List.append_nil]
  | settled hphase hclosed hroom =>
    obtain ⟨bytes, hwaiting, hdue⟩ := due_sending h.awaits ht hphase
    refine Or.inr (Or.inl ⟨bytes, Or.inr hphase, rfl, hitems _ ?_, hdue, hnone (by simp)⟩)
    rw [Mailbox.settle_of_waiting hwaiting hclosed]
    rfl
  | queued hphase hnext =>
    refine Or.inr (Or.inr ⟨hitems [] (List.append_nil _).symm, Or.inr (hnone ?_)⟩)
    rcases hnext with rfl | rfl <;> simp
  | _ => exact Or.inr (Or.inr ⟨hitems [] (List.append_nil _).symm, Or.inr (hnone (by simp))⟩)

/-- **Whatever is put in the mailbox** is put there by the task that it was due for. -/
theorem of_mem_forwarded (h : st.Consistent) (hp : p ∈ st.forwarded x) :
    x = .task (.capture p.generation) ∧ p ∈ st.due p.generation := by
  by_cases hcapture : ∃ g, x = .task (.capture g)
  · obtain ⟨g, rfl⟩ := hcapture
    rcases follow_cases h.ranked g (.task (.capture g)) with
      ⟨t, phase?, lo, box, hx, -, ht, hadvance, heq⟩ | ⟨heq, -⟩ | ⟨hx, -⟩ | ⟨hx, -⟩
    · rcases hadvance.due_cases h ht heq with
        ⟨bytes, -, -, hnone, -⟩ | ⟨bytes, -, -, hone, hdue, -⟩ | ⟨hnone, -⟩
      · rw [hnone] at hp
        cases hp
      · rw [hone, List.mem_singleton] at hp
        obtain rfl := hp
        refine ⟨hx, ?_⟩
        show t.packet bytes ∈ st.due t.generation
        rw [hdue]
        exact List.mem_singleton_self _
      · rw [hnone] at hp
        cases hp
    · rw [forwarded_of_same heq] at hp
      cases hp
    · exact absurd rfl hx
    · exact absurd rfl hx
  · rw [forwarded_of_suffix (inbound_after h.ranked fun g hg => hcapture ⟨g, hg⟩).2] at hp
    cases hp

/-- Others put nothing in the mailbox for a task. -/
theorem filter_forwarded_of_ne (h : st.Consistent) (hx : x ≠ .task (.capture generation)) :
    (st.forwarded x).filter (·.generation = generation) = [] := by
  refine List.filter_eq_nil_iff.2 fun p hp heq => ?_
  obtain ⟨hcapture, -⟩ := of_mem_forwarded h hp
  rw [decide_eq_true_eq] at heq
  exact hx (by rw [hcapture, heq])

/-- Nor do they change what is due. -/
theorem due_after_of_ne (h : st.Consistent) (hx : x ≠ .task (.capture generation)) :
    (st.after x).due generation = st.due generation := by
  rcases follow_cases h.ranked generation x with
    ⟨t, phase?, lo, box, hcapture, rfl, -⟩ | ⟨heq, -⟩ | ⟨-, heq⟩ | ⟨-, -, hnone, t, hphase, heq⟩
  · exact absurd hcapture hx
  · rw [heq]
  · have hpassing : ∀ t : CaptureTask, (t.told x).passing? = t.passing? := by
      intro t
      rw [CaptureTask.passing?, CaptureTask.passing?, t.phase_told]
      cases t.phase <;> simp [CaptureTask.packet]
    rw [due, due, waiting_after_of_ne h.ranked hx, heq, Option.bind_map]
    simp only [Function.comp_def, hpassing]
  · rw [due_eq_nil (h.after x).awaits (by rw [heq]; rintro u ⟨⟩; simp [hphase]),
      due_eq_nil h.awaits (by rw [hnone]; intro u hu; cases hu)]

/-! ### Where a packet comes from -/

/-- The task of a packet's generation has it in hand. -/
def Holds (st : Station) (p : Inbound) : Prop :=
  ∃ t, st.captureTask? p.generation = some t ∧ t.ifIndex = p.ifIndex ∧ t.phase = .holding p.bytes

/-- The task of a packet's generation gets it by its next step, from the link of its own
handle. -/
def Gets (st : Station) (p : Inbound) : Prop :=
  ∃ t link ticket lo, st.captureTask? p.generation = some t ∧ t.ifIndex = p.ifIndex ∧
    t.phase = .reading ∧ st.linkOf? t.handle = some link ∧
    st.registry.backend.serve link st.now = (some (ticket, .frame p.bytes), lo)

/-- **A packet becomes due** when its task, which has it in hand, finds that its port
still has the capture. -/
theorem due_after (h : st.Consistent) (hfirst : p ∉ st.due p.generation)
    (hthen : p ∈ (st.after x).due p.generation) :
    x = .task (.capture p.generation) ∧ st.Holds p ∧
      st.registry.isCurrent p.ifIndex p.generation = true := by
  by_cases hx : x = .task (.capture p.generation)
  · rcases follow_cases h.ranked p.generation x with
      ⟨t, phase?, lo, box, -, hg, ht, hadvance, heq⟩ | ⟨heq, -⟩ | ⟨hne, -⟩ | ⟨hne, -⟩
    · rw [← hg] at hthen hfirst
      rcases hadvance.due_cases h ht heq with
        ⟨bytes, hphase, hcurrent, -, hdue⟩ | ⟨bytes, -, -, -, -, hnone⟩ | ⟨-, hsame | hnone⟩
      · rw [hdue, List.mem_singleton] at hthen
        obtain rfl := hthen
        exact ⟨hx, ⟨t, ht, rfl, hphase⟩, hcurrent⟩
      · rw [hnone] at hthen
        cases hthen
      · rw [hsame] at hthen
        exact absurd hthen hfirst
      · rw [hnone] at hthen
        cases hthen
    · rw [heq] at hthen
      exact absurd hthen hfirst
    · exact absurd hx hne
    · exact absurd hx hne
  · rw [due_after_of_ne h hx] at hthen
    exact absurd hthen hfirst

/-- **A task has a packet in hand** when it has got it. -/
theorem holds_after (h : st.Consistent) (hfirst : ¬st.Holds p) (hthen : (st.after x).Holds p) :
    x = .task (.capture p.generation) ∧ st.Gets p := by
  obtain ⟨u, hu, hi, hphase⟩ := hthen
  rcases follow_cases h.ranked p.generation x with
    ⟨t, phase?, lo, box, hx, hg, ht, hadvance, heq⟩ | ⟨heq, -⟩ | ⟨-, heq⟩ |
    ⟨-, -, -, t, hwatching, heq⟩
  · rw [heq, ← hg, captureTask?_become ht] at hu
    obtain ⟨phase, rfl, rfl⟩ := Option.map_eq_some_iff.1 hu
    obtain rfl : phase = .holding p.bytes := hphase
    rw [hg] at hx ht
    cases hadvance with
    | queued hqueueing hor => rcases hor with hor | hor <;> cases hor
    | got hreading hturn hlink hserve =>
      exact ⟨hx, t, _, _, _, ht, hi, hreading, hlink, hserve⟩
  · rw [heq] at hu
    exact absurd ⟨u, hu, hi, hphase⟩ hfirst
  · rw [heq] at hu
    obtain ⟨t, ht, rfl⟩ := Option.map_eq_some_iff.1 hu
    exact absurd ⟨t, ht, t.ifIndex_told ▸ hi, t.phase_told ▸ hphase⟩ hfirst
  · rw [heq] at hu
    obtain rfl := Option.some.inj hu
    rw [hwatching] at hphase
    cases hphase

/-! ### A capture that its port does not have any more -/

/-- A capture that a port has was its own before, or is newer than any. -/
theorem capture?_after (hranked : st.registry.Ranked) {i : IfIndex} {c : Capture}
    (hc : (st.after x).registry.capture? i = some c) :
    st.registry.capture? i = some c ∨ st.registry.generation < c.generation := by
  rcases launched_cases hranked x with
    haltered | ⟨-, ⟨task, -, heq⟩ | ⟨use, -, heq⟩ | ⟨-, heq⟩⟩
  · exact haltered.capture? hc
  · rw [heq, capture?_step] at hc
    exact Or.inl hc
  · rw [heq] at hc
    exact Or.inl hc
  · rw [heq] at hc
    exact Or.inl hc

/-- A task is about to queue for a turn to read. -/
def queues (st : Station) (generation : Nat) : Bool :=
  (st.captureTask? generation).any (·.phase = .queueing)

/-- The generation of the task that begins a read. -/
def begun (st : Station) : Incident → List Nat
  | .task (.capture generation) => if st.queues generation then [generation] else []
  | _ => []

/-- The reads that a run begins, each by the generation of its task. -/
def reads (st : Station) (incidents : List Incident) : List Nat :=
  Trace.outputs after begun st incidents

/-- Only its own step lets a task begin a read. -/
theorem filter_begun_of_ne (hx : x ≠ .task (.capture generation)) :
    (st.begun x).filter (· = generation) = [] := by
  unfold begun
  split
  · split_ifs
    · refine List.filter_eq_nil_iff.2 fun g hg heq => hx ?_
      rw [← List.mem_singleton.1 hg, ← of_decide_eq_true heq]
    · rfl
  · rfl

/-- One step begins one read at the most, and only where the task queues. -/
theorem length_begun_le (st : Station) (x : Incident) (generation : Nat) :
    ((st.begun x).filter (· = generation)).length ≤ (st.queues generation).toNat := by
  unfold begun
  split
  · rename_i g
    by_cases hg : g = generation
    · subst hg
      cases st.queues g <;> simp
    · split_ifs <;> simp [hg]
  · exact Nat.zero_le _

/-- **A task is about to queue for a turn** when it has been so before, and has made no
step, or when it has found its handle open. -/
theorem of_queues_after (h : st.Consistent) (hthen : (st.after x).queues generation = true) :
    (st.queues generation = true ∧ x ≠ .task (.capture generation)) ∨
      ∃ t, st.captureTask? generation = some t ∧ t.phase = .opening ∧
        st.registry.backend.isOpen t.handle = true := by
  obtain ⟨u, hu, hphase⟩ := (Option.any_eq_true ..).1 hthen
  rw [decide_eq_true_eq] at hphase
  have hbefore : ∀ t, st.captureTask? generation = some t → t.phase = .queueing →
      st.queues generation = true := by
    intro t ht hphase
    rw [queues, ht, Option.any_some, hphase]
    rfl
  rcases follow_cases h.ranked generation x with
    ⟨t, phase?, lo, box, -, rfl, ht, hadvance, heq⟩ | ⟨heq, hnot⟩ | ⟨hx, heq⟩ |
    ⟨-, -, -, t, hwatching, heq⟩
  · rw [heq, captureTask?_become ht] at hu
    obtain ⟨phase, rfl, rfl⟩ := Option.map_eq_some_iff.1 hu
    obtain rfl : phase = .queueing := hphase
    cases hadvance with
    | queued hqueueing hor => rcases hor with hor | hor <;> cases hor
    | admitted hopening haccess =>
      exact Or.inr ⟨t, ht, hopening, Loopback.isOpen_of_access haccess⟩
  · rw [heq] at hu
    refine Or.inl ⟨hbefore u hu hphase, fun hx => ?_⟩
    obtain rfl := generation_of_captureTask? hu
    have hready := hnot u hx hu
    rw [captureReady, hphase] at hready
    cases hready
  · rw [heq] at hu
    obtain ⟨t, ht, rfl⟩ := Option.map_eq_some_iff.1 hu
    exact Or.inl ⟨hbefore t ht (t.phase_told ▸ hphase), hx⟩
  · rw [heq] at hu
    obtain rfl := Option.some.inj hu
    rw [hwatching] at hphase
    cases hphase

/-- No port has a capture of a generation that was used. -/
structure Superseded (generation : Nat) (st : Station) : Prop where
  consistent : st.Consistent
  used : generation ≤ st.registry.generation
  lost : ∀ i, st.registry.isCurrent i generation = false

namespace Superseded

/-- **A capture that a port has given up** is not taken up again. -/
theorem after (h : Superseded generation st) (x : Incident) :
    Superseded generation (st.after x) where
  consistent := h.consistent.after x
  used := by
    rw [generation_after h.consistent.ranked]
    exact Nat.le_add_right_of_le h.used
  lost i := by
    refine Bool.eq_false_iff.2 fun hcurrent => ?_
    obtain ⟨c, hc, hg⟩ := Registry.isCurrent_eq_true_iff.1 hcurrent
    rcases capture?_after h.consistent.ranked hc with hold | hnew
    · exact Bool.eq_false_iff.1 (h.lost i) (Registry.isCurrent_eq_true_iff.2 ⟨c, hold, hg⟩)
    · have hused := h.used
      omega

/-- **Its task puts nothing in the mailbox** but the packet that is due. -/
theorem forwarded (h : Superseded generation st) (x : Incident) :
    ((st.forwarded x).filter (·.generation = generation) ++
      (st.after x).due generation).Sublist (st.due generation) := by
  by_cases hx : x = .task (.capture generation)
  · rcases follow_cases h.consistent.ranked generation x with
      ⟨t, phase?, lo, box, -, rfl, ht, hadvance, heq⟩ | ⟨heq, -⟩ | ⟨hne, -⟩ | ⟨hne, -⟩
    · rcases hadvance.due_cases h.consistent ht heq with
        ⟨bytes, -, hcurrent, -⟩ | ⟨bytes, -, -, hone, hdue, hnone⟩ | ⟨hnone, hsame | hlost⟩
      · rw [h.lost] at hcurrent
        cases hcurrent
      · rw [hone, hdue, hnone, List.append_nil]
        exact List.filter_sublist
      · rw [hnone, hsame]
        exact .refl _
      · rw [hnone, hlost]
        exact List.nil_sublist _
    · rw [forwarded_of_same heq, heq]
      exact .refl _
    · exact absurd hx hne
    · exact absurd hx hne
  · rw [filter_forwarded_of_ne h.consistent hx, due_after_of_ne h.consistent hx]
    exact .refl _

/-- **Its task begins no read** but the one that it is about to queue for: it does not find
its handle open any more. -/
theorem begun (h : Superseded generation st) (x : Incident) :
    ((st.begun x).filter (· = generation)).length + ((st.after x).queues generation).toNat ≤
      (st.queues generation).toNat := by
  cases hthen : (st.after x).queues generation with
  | false => exact length_begun_le st x generation
  | true =>
    rcases of_queues_after h.consistent hthen with ⟨hq, hx⟩ | ⟨t, ht, -, hopen⟩
    · rw [filter_begun_of_ne hx, hq]
      exact Nat.le_refl _
    · obtain rfl := generation_of_captureTask? ht
      have hcurrent := h.consistent.isCurrent_of_isOpen (mem_of_captureTask? ht) hopen
      rw [h.lost] at hcurrent
      cases hcurrent

end Superseded

/-! ### A task that has been told of the exit signal -/

/-- The task of a generation, if it is still there, has been told of the exit signal. -/
structure Leaving (generation : Nat) (st : Station) : Prop where
  consistent : st.Consistent
  used : generation ≤ st.registry.generation
  told : ∀ t, st.captureTask? generation = some t → t.exiting = true

/-- How many packets a task can put in the mailbox before it looks for the exit signal. -/
def forwardsLeft (st : Station) (generation : Nat) : Nat :=
  (st.captureTask? generation).elim 0 fun t => if t.phase = .watching then 0 else 1

/-- How many reads a task can begin before it looks for the exit signal. -/
def readsLeft (st : Station) (generation : Nat) : Nat :=
  (st.captureTask? generation).elim 0 fun t =>
    if t.phase = .checking ∨ t.phase = .opening ∨ t.phase = .queueing then 1 else 0

/-- A read that is begun is one of those that were left. -/
theorem length_begun_le_readsLeft (st : Station) (x : Incident) (generation : Nat) :
    ((st.begun x).filter (· = generation)).length ≤ st.readsLeft generation := by
  refine Nat.le_trans (length_begun_le st x generation) ?_
  unfold queues readsLeft
  cases st.captureTask? generation with
  | none => exact Nat.le_refl _
  | some t =>
    by_cases hphase : t.phase = .queueing
    · simp [hphase]
    · simp [hphase]

/-- **A task that has been told** ends when it looks for the exit signal, so it does not
get from there to its other checks, and from none of its phases back to an earlier one. -/
theorem Advance.leaving (h : st.Advance t phase? lo box) (hexit : t.exiting = true)
    {phase : CapturePhase} (hphase : phase? = some phase) :
    (phase = .watching ∨ t.phase ≠ .watching) ∧
      (phase = .checking ∨ phase = .opening ∨ phase = .queueing →
        t.phase = .checking ∨ t.phase = .opening) := by
  subst hphase
  cases h with
  | stays hwatching hnot =>
    rw [hnot] at hexit
    cases hexit
  | queued hqueueing hor =>
    refine ⟨Or.inr (by rw [hqueueing]; nofun), fun hnext => ?_⟩
    rcases hor with rfl | rfl <;> simp at hnext
  | _ => simp_all

namespace Leaving

/-- **Whatever happens**, a task that has been told of the exit signal is on its way out. -/
theorem after (h : Leaving generation st) (x : Incident) : Leaving generation (st.after x) where
  consistent := h.consistent.after x
  used := by
    rw [generation_after h.consistent.ranked]
    exact Nat.le_add_right_of_le h.used
  told u hu := by
    rcases follow_cases h.consistent.ranked generation x with
      ⟨t, phase?, lo, box, -, rfl, ht, -, heq⟩ | ⟨heq, -⟩ | ⟨-, heq⟩ | ⟨-, hnew, -⟩
    · rw [heq, captureTask?_become ht] at hu
      obtain ⟨phase, -, rfl⟩ := Option.map_eq_some_iff.1 hu
      exact h.told t ht
    · rw [heq] at hu
      exact h.told u hu
    · rw [heq] at hu
      obtain ⟨t, ht, rfl⟩ := Option.map_eq_some_iff.1 hu
      unfold CaptureTask.told
      split_ifs
      · rfl
      · exact h.told t ht
    · have hused := h.used
      omega

/-- **What is left to a task** is no more after an incident than before. -/
theorem forwardsLeft_after (h : Leaving generation st) (x : Incident) :
    (st.after x).forwardsLeft generation ≤ st.forwardsLeft generation := by
  unfold forwardsLeft
  rcases follow_cases h.consistent.ranked generation x with
    ⟨t, phase?, lo, box, -, rfl, ht, hadvance, heq⟩ | ⟨heq, -⟩ | ⟨-, heq⟩ | ⟨-, hnew, -⟩
  · rw [heq, captureTask?_become ht, ht]
    cases phase? with
    | none => exact Nat.zero_le _
    | some phase =>
      rcases (hadvance.leaving (h.told t ht) rfl).1 with hwatching | hnot
      · simp [hwatching]
      · simp only [Option.map_some, Option.elim_some, if_neg hnot]
        split_ifs <;> omega
  · exact Nat.le_of_eq (by rw [heq])
  · rw [heq]
    cases st.captureTask? generation with
    | none => exact Nat.le_refl _
    | some t => simp
  · have hused := h.used
    omega

/-- **No incident** leaves more packets to come than there were. -/
theorem forwarded (h : Leaving generation st) (x : Incident) :
    ((st.forwarded x).filter (·.generation = generation)).length +
      (st.after x).forwardsLeft generation ≤ st.forwardsLeft generation := by
  have hleft := h.forwardsLeft_after x
  by_cases hnone : (st.forwarded x).filter (·.generation = generation) = []
  · rw [hnone, List.length_nil, Nat.zero_add]
    exact hleft
  · have hx : x = .task (.capture generation) := by
      by_contra hx
      exact hnone (filter_forwarded_of_ne h.consistent hx)
    rcases follow_cases h.consistent.ranked generation x with
      ⟨t, phase?, lo, box, -, rfl, ht, hadvance, heq⟩ | ⟨heq, -⟩ | ⟨hne, -⟩ | ⟨hne, -⟩
    · rcases hadvance.due_cases h.consistent ht heq with
        ⟨bytes, -, -, hno, -⟩ | ⟨bytes, hphase, hwatching, hone, -, -⟩ | ⟨hno, -⟩
      · rw [hno] at hnone
        exact absurd rfl hnone
      · have hbefore : st.forwardsLeft t.generation = 1 := by
          rw [forwardsLeft, ht]
          rcases hphase with hphase | hphase <;> simp [hphase]
        have hthen : (st.after x).forwardsLeft t.generation = 0 := by
          rw [forwardsLeft, heq, captureTask?_become ht, hwatching]
          rfl
        have hlength := List.length_filter_le (fun p : Inbound => p.generation = t.generation)
          (st.forwarded x)
        rw [hone, List.length_singleton] at hlength
        rw [hbefore, hthen, hone]
        exact hlength
      · rw [hno] at hnone
        exact absurd rfl hnone
    · rw [forwarded_of_same heq] at hnone
      exact absurd rfl hnone
    · exact absurd hx hne
    · exact absurd hx hne

/-- **No incident** leaves more reads to begin than there were. -/
theorem begun (h : Leaving generation st) (x : Incident) :
    ((st.begun x).filter (· = generation)).length + (st.after x).readsLeft generation ≤
      st.readsLeft generation := by
  cases hafter : (st.after x).captureTask? generation with
  | none =>
    rw [readsLeft, hafter]
    exact length_begun_le_readsLeft st x generation
  | some u =>
    by_cases hphase : u.phase = .checking ∨ u.phase = .opening ∨ u.phase = .queueing
    · -- The task can still begin a read, so this was none.
      have hleft : (st.after x).readsLeft generation = 1 := by
        rw [readsLeft, hafter, Option.elim_some, if_pos hphase]
      rcases follow_cases h.consistent.ranked generation x with
        ⟨t, phase?, lo, box, -, rfl, ht, hadvance, heq⟩ | ⟨heq, hnot⟩ | ⟨hx, heq⟩ | ⟨-, hnew, -⟩
      · rw [heq, captureTask?_become ht] at hafter
        obtain ⟨phase, rfl, rfl⟩ := Option.map_eq_some_iff.1 hafter
        have hbefore := (hadvance.leaving (h.told t ht) rfl).2 hphase
        have hqueues : st.queues t.generation = false := by
          rw [queues, ht]
          rcases hbefore with hbefore | hbefore <;> simp [hbefore]
        have hbegun := length_begun_le st x t.generation
        have hone : st.readsLeft t.generation = 1 := by
          rw [readsLeft, ht]
          rcases hbefore with hbefore | hbefore <;> simp [hbefore]
        rw [hqueues] at hbegun
        rw [hleft, hone]
        exact Nat.add_le_add_right hbegun 1
      · rw [heq] at hafter hleft
        obtain rfl := generation_of_captureTask? hafter
        have hx : x ≠ .task (.capture u.generation) := by
          intro hx
          have hready := hnot u hx hafter
          unfold captureReady at hready
          rcases hphase with hphase | hphase | hphase <;> simp [hphase] at hready
        rw [filter_begun_of_ne hx, heq]
        exact Nat.le_of_eq (Nat.zero_add _)
      · rw [heq] at hafter
        obtain ⟨t, ht, rfl⟩ := Option.map_eq_some_iff.1 hafter
        rw [t.phase_told] at hphase
        rw [filter_begun_of_ne hx, hleft, readsLeft, ht, Option.elim_some, if_pos hphase]
        exact Nat.le_refl _
      · have hused := h.used
        omega
    · have hleft : (st.after x).readsLeft generation = 0 := by
        rw [readsLeft, hafter, Option.elim_some, if_neg hphase]
      rw [hleft]
      exact length_begun_le_readsLeft st x generation

end Leaving

/-! ### Generations along a run -/

/-- **The tasks that a run sets off** have the generations from one on. -/
theorem generations_launches (settings : Settings) (incidents : List Incident) :
    ((ofSettings settings).launches incidents).map CaptureTask.generation =
        List.range' 1 ((ofSettings settings).launches incidents).length ∧
      ((ofSettings settings).run incidents).registry.generation =
        ((ofSettings settings).launches incidents).length := by
  induction incidents using List.reverseRecOn with
  | nil => exact ⟨rfl, rfl⟩
  | append_singleton incidents x ih =>
    obtain ⟨hmap, hg⟩ := ih
    have hranked := ranked_run settings incidents
    rw [run_concat, launches_concat, List.map_append, List.length_append,
      generation_after hranked, hg]
    refine ⟨?_, rfl⟩
    rcases launched_cases hranked x with haltered | ⟨hnone, -⟩
    · rw [hmap, haltered.generations.1, hg, Nat.add_comm _ 1, List.range'_append_1]
    · rw [hnone, hmap]
      simp

/-- **At most one task of a port reads the capture that the port has.** -/
theorem length_current_le (h : st.Consistent) (i : IfIndex) :
    (st.registry.tasks.filter fun t =>
      t.ifIndex = i ∧ st.registry.isCurrent i t.generation).length ≤ 1 := by
  have hsorted : (st.registry.tasks.filter fun t =>
      t.ifIndex = i ∧ st.registry.isCurrent i t.generation).Pairwise
        fun t u => t.generation < u.generation :=
    (List.pairwise_map.1 h.ranked.sorted).filter _
  have hcurrent : ∀ t ∈ st.registry.tasks.filter fun t =>
      t.ifIndex = i ∧ st.registry.isCurrent i t.generation,
      ∃ c, st.registry.capture? i = some c ∧ c.generation = t.generation := by
    intro t ht
    have hboth := of_decide_eq_true (List.mem_filter.1 ht).2
    exact Registry.isCurrent_eq_true_iff.1 hboth.2
  rcases hlist : st.registry.tasks.filter fun t =>
      t.ifIndex = i ∧ st.registry.isCurrent i t.generation with _ | ⟨t, _ | ⟨u, rest⟩⟩
  · rw [hlist]
    exact Nat.zero_le _
  · rw [hlist]
    exact Nat.le_refl _
  · rw [hlist] at hsorted hcurrent
    have hlt := List.rel_of_pairwise_cons hsorted List.mem_cons_self
    obtain ⟨c, hc, hct⟩ := hcurrent t List.mem_cons_self
    obtain ⟨d, hd, hdu⟩ := hcurrent u (List.mem_cons_of_mem t List.mem_cons_self)
    obtain rfl := Option.some.inj (hc.symm.trans hd)
    omega

/-- **The course of a packet** that is put in the mailbox: its task got it from the link of
its own handle and had it in hand until it found that its port still had the capture, and
it has been due since. -/
theorem course_of_forwarded (settings : Settings) (incidents : List Incident)
    (hp : p ∈ ((ofSettings settings).run incidents).forwarded x) :
    x = .task (.capture p.generation) ∧ ∃ before middle after,
      incidents = before ++ .task (.capture p.generation) ::
        (middle ++ .task (.capture p.generation) :: after) ∧
      ((ofSettings settings).run before).Gets p ∧
      Always (·.Holds p) ((ofSettings settings).run
        (before ++ [.task (.capture p.generation)])) middle ∧
      ((ofSettings settings).run (before ++ .task (.capture p.generation) ::
        middle)).registry.isCurrent p.ifIndex p.generation = true ∧
      Always (p ∈ ·.due p.generation) ((ofSettings settings).run
        (before ++ .task (.capture p.generation) ::
          (middle ++ [.task (.capture p.generation)]))) after := by
  have hconsistent : ∀ incidents, ((ofSettings settings).run incidents).Consistent :=
    (Consistent.ofSettings settings).run
  obtain ⟨hx, hdue⟩ := of_mem_forwarded (hconsistent incidents) hp
  obtain ⟨first, y, after, rfl, hnot, hsince⟩ := @Trace.exists_onset _ _ Station.after
    (p ∈ ·.due p.generation) (ofSettings settings) incidents List.not_mem_nil hdue
  have hthen := hsince.first
  rw [List.foldl_append] at hthen
  obtain ⟨rfl, hholds, hcurrent⟩ := due_after (hconsistent first) hnot hthen
  have hnothing : ¬(ofSettings settings).Holds p := by
    rintro ⟨t, ht, -⟩
    cases ht
  obtain ⟨before, z, middle, rfl, hempty, hmeanwhile⟩ := @Trace.exists_onset _ _ Station.after
    (·.Holds p) (ofSettings settings) first hnothing hholds
  have hgot := hmeanwhile.first
  rw [List.foldl_append] at hgot
  obtain ⟨rfl, hgets⟩ := holds_after (hconsistent before) hempty hgot
  refine ⟨hx, before, middle, after, by simp, hgets, hmeanwhile, hcurrent, ?_⟩
  rw [← List.cons_append, ← List.append_assoc]
  exact hsince

/-- **The task of a capture is cut off** where it looks for its capture, whatever happens in
between.  Generations are not used twice, and at most one task of a port reads the capture
that the port has.  A packet that is put in the mailbox was read through the handle of its
own task and cleared when its port still had the capture.  A task whose port does not have
its capture any more puts nothing in the mailbox but the packet that is due, and begins no
read but the one that it is about to queue for; one that has been told of the exit signal
puts one packet there at the most, and begins a read only if it has already looked for the
signal. -/
theorem capture_tasks_cut_off (settings : Settings) (early late : List Incident) :
    let start := ofSettings settings
    let st := start.run early
    ((start.launches (early ++ late)).map CaptureTask.generation).Nodup ∧
      (∀ i, (st.registry.tasks.filter fun t =>
        t.ifIndex = i ∧ st.registry.isCurrent i t.generation).length ≤ 1) ∧
      (∀ x, ∀ p ∈ st.forwarded x, x = .task (.capture p.generation) ∧ ∃ before middle after,
        early = before ++ .task (.capture p.generation) ::
          (middle ++ .task (.capture p.generation) :: after) ∧
        (start.run before).Gets p ∧
        Always (·.Holds p) (start.run (before ++ [.task (.capture p.generation)])) middle ∧
        (start.run (before ++ .task (.capture p.generation) ::
          middle)).registry.isCurrent p.ifIndex p.generation = true ∧
        Always (p ∈ ·.due p.generation) (start.run (before ++ .task (.capture p.generation) ::
          (middle ++ [.task (.capture p.generation)]))) after) ∧
      ∀ t ∈ st.registry.tasks,
        (st.registry.isCurrent t.ifIndex t.generation = false →
          ((st.forwards late).filter (·.generation = t.generation)).Sublist
            (st.due t.generation) ∧
          (st.due t.generation).length ≤ 1 ∧
          ((st.reads late).filter (· = t.generation)).length ≤
            if t.phase = .queueing then 1 else 0) ∧
        (t.exiting = true →
          ((st.forwards late).filter (·.generation = t.generation)).length ≤
            (if t.phase = .watching then 0 else 1) ∧
          ((st.reads late).filter (· = t.generation)).length ≤
            if t.phase = .checking ∨ t.phase = .opening ∨ t.phase = .queueing then 1 else 0) := by
  intro start st
  have hconsistent : st.Consistent := (Consistent.ofSettings settings).run early
  refine ⟨?_, length_current_le hconsistent, fun x p hp => course_of_forwarded settings early hp,
    fun t ht => ?_⟩
  · rw [(generations_launches settings (early ++ late)).1]
    exact List.nodup_range'
  · have htask : st.captureTask? t.generation = some t :=
      (captureTask?_eq_some_iff hconsistent.ranked).2 ⟨ht, rfl⟩
    have hused : t.generation ≤ st.registry.generation := hconsistent.ranked.le t ht
    constructor
    · intro hlost
      have hsuperseded : Superseded t.generation st := by
        refine ⟨hconsistent, hused, fun i => Bool.eq_false_iff.2 fun hcurrent => ?_⟩
        obtain ⟨c, hc, hg⟩ := Registry.isCurrent_eq_true_iff.1 hcurrent
        obtain ⟨rfl, -⟩ := hconsistent.numbered.agree.eq_capture ht hc hg
        rw [hlost] at hcurrent
        cases hcurrent
      have hqueues : (st.queues t.generation).toNat = if t.phase = .queueing then 1 else 0 := by
        rw [queues, htask, Option.any_some]
        split_ifs with hphase <;> simp [hphase]
      refine ⟨?_, length_due_le hconsistent.awaits _, ?_⟩
      · rw [forwards, Trace.outputs_filter]
        exact Trace.outputs_sublist (·.due t.generation) hsuperseded (fun _ x h => h.after x)
          fun _ x h => h.forwarded x
      · rw [← hqueues, reads, Trace.outputs_filter]
        exact Trace.length_outputs_le (fun st => (st.queues t.generation).toNat) hsuperseded
          (fun _ x h => h.after x) fun _ x h => h.begun x
    · intro hexit
      have hleaving : Leaving t.generation st := by
        refine ⟨hconsistent, hused, fun u hu => ?_⟩
        obtain rfl := Option.some.inj (htask.symm.trans hu)
        exact hexit
      have hforwards : st.forwardsLeft t.generation = if t.phase = .watching then 0 else 1 := by
        rw [forwardsLeft, htask, Option.elim_some]
      have hreads : st.readsLeft t.generation =
          if t.phase = .checking ∨ t.phase = .opening ∨ t.phase = .queueing then 1 else 0 := by
        rw [readsLeft, htask, Option.elim_some]
      constructor
      · rw [← hforwards, forwards, Trace.outputs_filter]
        exact Trace.length_outputs_le (·.forwardsLeft t.generation) hleaving
          (fun _ x h => h.after x) fun _ x h => h.forwarded x
      · rw [← hreads, reads, Trace.outputs_filter]
        exact Trace.length_outputs_le (·.readsLeft t.generation) hleaving
          (fun _ x h => h.after x) fun _ x h => h.begun x

/-- A port is stopped and started again while the task of its first capture waits for room
with the second of two packets. -/
def restarted : List Incident :=
  [.operation (.request (.add
      { ifIndex := 1, number := 1, name := "Ethernet0", mac := ⟨2, 0, 0, 0, 0, 1⟩ })),
    .operation (.request (.reportLink 1 .up)),
    .operation (.links (.inject "Ethernet0" [[1], [2]]))] ++
    List.replicate 14 (.task (.capture 1)) ++
    [.operation (.stop 1), .operation (.start 1)]

/-- The task of the first capture, which waits for room. -/
def sender : CaptureTask := { ifIndex := 1, generation := 1, handle := 0, phase := .sending }

/-- **The packet that was due** is put in the mailbox when there is room, and the task then
ends, while another reads the capture that the port has. -/
theorem cut_off_while_sending :
    let st := (ofSettings { capacity := 1 }).run restarted
    let late := Incident.packet false :: List.replicate 4 (.task (.capture 1))
    st.registry.isCurrent 1 1 = false ∧ st.registry.isCurrent 1 2 = true ∧
      st.due 1 = [sender.packet [2]] ∧
      st.forwards late = [sender.packet [2]] ∧ (st.run late).captureTask? 1 = none ∧
      ((st.forwards late).filter (·.generation = 1)).Sublist (st.due 1) ∧
      (st.due 1).length ≤ 1 ∧ ((st.reads late).filter (· = 1)).length ≤ 0 := by
  intro st late
  have hmem : sender ∈ st.registry.tasks := by decide +kernel
  have hlost : st.registry.isCurrent 1 1 = false := by decide +kernel
  have hcut := ((capture_tasks_cut_off { capacity := 1 } restarted late).2.2.2 sender hmem).1 hlost
  exact ⟨hlost, by decide +kernel, by decide +kernel, by decide +kernel, by decide +kernel, hcut⟩

end Station
end Lldp
