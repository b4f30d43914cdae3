/-
# Where the frames of a capture go

While a port keeps a capture, a frame that waits on its link comes into the hand of the
task that reads the capture, is let through, put in the mailbox and taken out of it, and
frames keep their order all the way: what is `underway` for a capture is one list, read
from the mailbox back to the link.  No step of its own task loses anything, for the task
finds the capture current and its handle open.

But the link is shared.  A task whose capture is not current any more may still be in a
read that it began when it was, or about to begin one, and gets a frame if its turn comes
first; it then finds that its capture is gone, and drops the frame.  Those tasks are the
`rivals` of the capture.  None comes to them while the port keeps the capture and no other
port has its interface, and each takes one frame at the most: it is not a rival any more
when it has got it.  So along with what has come in and what has gone out, an incident
keeps account of what is underway up to as many frames as there are fewer rivals
(`Tended.flow`).

When no task can make a step and the mailbox is empty, nothing is underway
(`Tended.underway_eq_nil`): a task that waits behind others waits for the first in line,
and that one would go on if there were a frame.
-/

import Lldp.Proofs.Station.Readers
import Mathlib.Data.List.Perm.Subperm

namespace Lldp

/-- The frames that a task in this phase has in hand. -/
def CapturePhase.inHand : CapturePhase → List Octets
  | .holding bytes => [bytes]
  | _ => []

/-- Whether a task in this phase may get a frame before it looks for its capture again. -/
def CapturePhase.mayRead : CapturePhase → Bool
  | .queueing | .waiting | .reading => true
  | _ => false

/-- The frames that arrive on the interface of a name. -/
def Incident.injected (name : String) : Incident → List Octets
  | .operation (.links (.inject other frames)) => if other = name then frames else []
  | _ => []

/-- Every interface is used by one port. -/
def Registry.NamesApart (r : Registry) : Prop := (r.sessions.map (·.port.name)).Nodup

instance (r : Registry) : Decidable r.NamesApart :=
  inferInstanceAs (Decidable (r.sessions.map (·.port.name)).Nodup)

theorem Registry.NamesApart.eq {r : Registry} {i j : IfIndex} {s u : Session} (h : r.NamesApart)
    (hs : r.session? i = some s) (hu : r.session? j = some u) (hname : s.port.name = u.port.name) :
    i = j := by
  obtain rfl := List.inj_on_of_nodup_map h (mem_of_session? hs) (mem_of_session? hu) hname
  exact (ifIndex_of_session? hs).symm.trans (ifIndex_of_session? hu)

namespace Station

variable {st st' : Station} {x : Incident} {i : IfIndex} {s : Session} {c : Capture}
  {t : CaptureTask} {generation link : Nat} {phase? : Option CapturePhase} {lo : Loopback}
  {box : Mailbox Nat Inbound} {bytes : Octets} {ps : List Inbound}

/-! ### What is underway -/

/-- Whether a packet was read for a port through a capture. -/
def isFor (i : IfIndex) (generation : Nat) (p : Inbound) : Bool :=
  p.ifIndex = i ∧ p.generation = generation

/-- The frames that a task has read and not yet put in the mailbox. -/
def carried (st : Station) (generation : Nat) : List Octets :=
  (st.due generation).map Inbound.bytes ++
    (st.captureTask? generation).elim [] (·.phase.inHand)

/-- The frames on their way to a port through a capture, those first that are next: they lie
in the mailbox, or the task of the capture has them, or they wait on the link. -/
def underway (st : Station) (i : IfIndex) (c : Capture) : List Octets :=
  (st.inbound.items.filter (isFor i c.generation)).map Inbound.bytes ++
    st.carried c.generation ++ (st.linkOf? c.handle).elim [] st.registry.backend.unreadAt

/-- The generations of the other tasks that may yet get a frame from the link of a
capture. -/
def rivals (st : Station) (c : Capture) : List Nat :=
  (st.registry.tasks.filter fun t => t.generation ≠ c.generation ∧ t.phase.mayRead = true ∧
    st.linkOf? t.handle = st.linkOf? c.handle).map CaptureTask.generation

theorem mem_rivals (hranked : st.registry.Ranked) :
    generation ∈ st.rivals c ↔ generation ≠ c.generation ∧
      ∃ t, st.captureTask? generation = some t ∧ t.phase.mayRead = true ∧
        st.linkOf? t.handle = st.linkOf? c.handle := by
  simp only [rivals, List.mem_map, List.mem_filter, decide_eq_true_eq]
  constructor
  · rintro ⟨t, ⟨ht, hne, hread, hlink⟩, rfl⟩
    exact ⟨hne, t, (captureTask?_eq_some_iff hranked).2 ⟨ht, rfl⟩, hread, hlink⟩
  · rintro ⟨hne, t, ht, hread, hlink⟩
    obtain ⟨hmem, rfl⟩ := (captureTask?_eq_some_iff hranked).1 ht
    exact ⟨t, ⟨hmem, hne, hread, hlink⟩, rfl⟩

theorem nodup_rivals (hranked : st.registry.Ranked) (c : Capture) : (st.rivals c).Nodup := by
  have hnodup : (st.registry.tasks.map CaptureTask.generation).Nodup :=
    hranked.sorted.imp fun hlt => Nat.ne_of_lt hlt
  exact hnodup.sublist (List.filter_sublist.map _)

theorem length_rivals_le (hranked : st'.registry.Ranked) (h : st'.rivals c ⊆ st.rivals c) :
    (st'.rivals c).length ≤ (st.rivals c).length :=
  (List.subperm_of_subset (nodup_rivals hranked c) h).length_le

/-- A task that is about to do anything else has nothing on it. -/
theorem carried_eq_nil (h : st.Awaits) (ht : st.captureTask? generation = some t)
    (hsending : t.phase ≠ .sending) (hpassing : ∀ bytes, t.phase ≠ .passing bytes)
    (hholding : ∀ bytes, t.phase ≠ .holding bytes) : st.carried generation = [] := by
  have hdue : st.due generation = [] := by
    refine due_eq_nil h fun u hu => ?_
    obtain rfl := Option.some.inj (ht.symm.trans hu)
    exact ⟨hsending, hpassing⟩
  have hhand : t.phase.inHand = [] := by
    unfold CapturePhase.inHand
    split
    · exact absurd ‹_› (hholding _)
    · rfl
  rw [carried, hdue, ht, Option.elim_some, hhand]
  rfl

theorem carried_holding (h : st.Awaits) (ht : st.captureTask? generation = some t)
    (hphase : t.phase = .holding bytes) : st.carried generation = [bytes] := by
  have hdue : st.due generation = [] := by
    refine due_eq_nil h fun u hu => ?_
    obtain rfl := Option.some.inj (ht.symm.trans hu)
    simp [hphase]
  rw [carried, hdue, ht, Option.elim_some, hphase]
  rfl

theorem carried_passing (h : st.Awaits) (ht : st.captureTask? t.generation = some t)
    (hphase : t.phase = .passing bytes) : st.carried t.generation = [bytes] := by
  rw [carried, due_passing h ht hphase, ht, Option.elim_some, hphase]
  rfl

theorem carried_sending (h : st.Awaits) (ht : st.captureTask? t.generation = some t)
    (hphase : t.phase = .sending) :
    ∃ bytes, st.inbound.waiting.filter (·.1 = t.generation) = [(t.generation, t.packet bytes)] ∧
      st.carried t.generation = [bytes] := by
  obtain ⟨bytes, hwaiting, hdue⟩ := due_sending h ht hphase
  refine ⟨bytes, hwaiting, ?_⟩
  rw [carried, hdue, ht, Option.elim_some, hphase]
  rfl

/-! ### Steps of the capture's own task -/

/-- **No frame is lost by the task of a capture that goes on**: what it puts in the mailbox,
what it has afterwards and what then waits on its link are, in this order, what it had and
what waited there. -/
theorem Advance.carries (hadvance : st.Advance t phase? lo box) (h : st.Awaits)
    (hthen : (st.become t.generation phase? lo box).Awaits)
    (ht : st.captureTask? t.generation = some t) (hlink : st.linkOf? t.handle = some link)
    (hgoes : phase?.isSome = true) :
    ∃ ps, box.items = st.inbound.items ++ ps ∧
      (∀ p ∈ ps, isFor t.ifIndex t.generation p = true) ∧
      ps.map Inbound.bytes ++ (st.become t.generation phase? lo box).carried t.generation ++
          lo.unreadAt link =
        st.carried t.generation ++ st.registry.backend.unreadAt link := by
  obtain ⟨phase, rfl⟩ := Option.isSome_iff_exists.1 hgoes
  have hafter : (st.become t.generation (some phase) lo box).captureTask? t.generation =
      some { t with phase } := captureTask?_become ht
  rcases hadvance.unread_cases hlink with ⟨bytes, hreading, hphase, hbox, htaken⟩ | ⟨hnot, hsame⟩
  · obtain rfl := Option.some.inj hphase
    have hempty : st.carried t.generation = [] :=
      carried_eq_nil h ht (by simp [hreading]) (by simp [hreading]) (by simp [hreading])
    refine ⟨[], by rw [hbox, List.append_nil], nofun, ?_⟩
    rw [carried_holding hthen hafter rfl, hempty, htaken link, if_pos rfl]
    rfl
  · rw [hsame]
    have hidle : t.phase ≠ .sending → (∀ bytes, t.phase ≠ .passing bytes) →
        (∀ bytes, t.phase ≠ .holding bytes) → phase ≠ .sending →
        (∀ bytes, phase ≠ .passing bytes) →
        (st.become t.generation (some phase) lo box).carried t.generation =
          st.carried t.generation := by
      intro hs hp hh hs' hp'
      have hh' : ∀ bytes, phase ≠ .holding bytes := fun bytes heq => hnot bytes (by rw [heq])
      rw [carried_eq_nil h ht hs hp hh, carried_eq_nil hthen hafter hs' hp' hh']
    cases hadvance with
    | got => exact absurd rfl (hnot _)
    | @cleared bytes hphase hcurrent =>
      have hpassing : (st.become t.generation (some (.passing bytes)) st.registry.backend
          st.inbound).carried t.generation = [bytes] :=
        carried_passing (t := { t with phase := .passing bytes }) hthen hafter rfl
      refine ⟨[], by rw [List.append_nil], nofun, ?_⟩
      rw [hpassing, carried_holding h ht hphase]
      rfl
    | @passed bytes hphase hclosed hroom =>
      refine ⟨[t.packet bytes], rfl, by simp [isFor, CaptureTask.packet], ?_⟩
      rw [carried_eq_nil hthen hafter (by simp) (by simp) (by simp), carried_passing h ht hphase]
      rfl
    | @blocked bytes hphase hclosed hroom =>
      obtain ⟨bytes', hwaiting, hcarried⟩ : ∃ bytes', _ ∧ _ :=
        carried_sending (t := { t with phase := .sending }) hthen hafter rfl
      have hown : bytes' = bytes := by
        have hfirst : (st.inbound.waiting ++ [(t.generation, t.packet bytes)]).filter
            (·.1 = t.generation) = [(t.generation, t.packet bytes')] := hwaiting
        rw [List.filter_append, h.idle ht (by simp [hphase])] at hfirst
        simpa [CaptureTask.packet, eq_comm] using hfirst
      have hsending : (st.become t.generation (some .sending) st.registry.backend
          { st.inbound with waiting := st.inbound.waiting ++
            [(t.generation, t.packet bytes)] }).carried t.generation = [bytes'] := hcarried
      refine ⟨[], by rw [List.append_nil], nofun, ?_⟩
      rw [hsending, hown, carried_passing h ht hphase]
      rfl
    | settled hphase hclosed hroom =>
      obtain ⟨bytes, hwaiting, hcarried⟩ := carried_sending h ht hphase
      refine ⟨[t.packet bytes], ?_, by simp [isFor, CaptureTask.packet], ?_⟩
      · rw [Mailbox.settle_of_waiting hwaiting hclosed]
        rfl
      · rw [carried_eq_nil hthen hafter (by simp) (by simp) (by simp), hcarried]
        rfl
    | queued hphase hnext =>
      refine ⟨[], by rw [List.append_nil], nofun, ?_⟩
      rw [hidle (by simp [hphase]) (by simp [hphase]) (by simp [hphase]) ?_ ?_]
      · rfl
      · rcases hnext with rfl | rfl <;> simp
      · rcases hnext with rfl | rfl <;> simp
    | _ =>
      refine ⟨[], by rw [List.append_nil], nofun, ?_⟩
      rw [hidle (by simp [*]) (by simp [*]) (by simp [*]) (by simp) (by simp)]
      rfl

/-! ### Steps of others -/

/-- A task comes to be about to read through a handle that it has found open, if it was not
so before. -/
theorem Advance.mayRead (hadvance : st.Advance t phase? lo box)
    (h : phase?.any CapturePhase.mayRead = true) :
    t.phase.mayRead = true ∨ st.registry.backend.isOpen t.handle = true := by
  cases hadvance with
  | admitted hphase haccess => exact Or.inr (Loopback.isOpen_of_access haccess)
  | queued hphase hnext =>
    rw [hphase]
    exact Or.inl rfl
  | called hphase hturn =>
    rw [hphase]
    exact Or.inl rfl
  | waits hphase hturn hlink hserve =>
    rw [hphase]
    exact Or.inl rfl
  | _ => cases h

/-- A step puts packets behind those that lie in the mailbox. -/
theorem Advance.items_prefix (hadvance : st.Advance t phase? lo box) :
    st.inbound.items <+: box.items := by
  cases hadvance with
  | passed => exact List.prefix_append _ _
  | stranded => exact Mailbox.settle_keeps.2.2
  | settled => exact Mailbox.settle_keeps.2.2
  | _ => exact List.prefix_rfl

namespace Tended

/-- **A capture is read by its task.** -/
theorem exists_task (h : st.Tended) (hc : st.registry.capture? i = some c) :
    ∃ t, st.captureTask? c.generation = some t ∧ t.ifIndex = i ∧ t.capture = c := by
  obtain ⟨t, ht⟩ := Option.isSome_iff_exists.1 (h.attended i c hc)
  obtain ⟨hi, heq⟩ := h.consistent.numbered.agree.eq_capture (mem_of_captureTask? ht) hc
    (generation_of_captureTask? ht).symm
  exact ⟨t, ht, hi.symm, heq.symm⟩

/-- **The link of a capture** is the one that the interface of its port leads to. -/
theorem exists_port (h : st.Tended) (hc : st.registry.capture? i = some c) :
    ∃ s link l, st.registry.session? i = some s ∧ st.linkOf? c.handle = some link ∧
      st.registry.backend.links[link]? = some l ∧ l.name = s.port.name := by
  obtain ⟨s, hs, hsc⟩ := Option.bind_eq_some_iff.1 hc
  obtain ⟨hd, hhd, hname⟩ := h.sound.wired.captured i s c hs hsc
  obtain ⟨l, hl, hreach⟩ := h.sound.wired.backend.reach hd (List.mem_of_getElem? hhd)
  exact ⟨s, hd.link, l, hs, by rw [linkOf?, hhd]; rfl, hl, hreach.trans hname⟩

/-- **An open handle on the link of a capture is that capture's own**, where every interface
is used by one port. -/
theorem eq_generation_of_isOpen (h : st.Tended) (hnames : st.registry.NamesApart)
    (hc : st.registry.capture? i = some c) (ht : t ∈ st.registry.tasks)
    (hopen : st.registry.backend.isOpen t.handle = true)
    (hlink : st.linkOf? t.handle = st.linkOf? c.handle) : t.generation = c.generation := by
  obtain ⟨d, hcurrent, hg⟩ :=
    Registry.isCurrent_eq_true_iff.1 (h.consistent.isCurrent_of_isOpen ht hopen)
  obtain ⟨-, rfl⟩ := h.consistent.numbered.agree.eq_capture ht hcurrent hg
  obtain ⟨s, link, l, hs, hk, hl, hname⟩ := h.exists_port hc
  obtain ⟨s', link', l', hs', hk', hl', hname'⟩ := h.exists_port hcurrent
  have hk'' : st.linkOf? t.handle = some link' := hk'
  obtain rfl : link' = link := Option.some.inj (by rw [← hk'', hlink, hk])
  obtain rfl := Option.some.inj (hl'.symm.trans hl)
  obtain rfl := hnames.eq hs' hs (hname'.symm.trans hname)
  rw [Option.some.inj (hc.symm.trans hcurrent)]
  rfl

/-- What a rival is after a step of a task, it was before. -/
theorem rivals_become (h : st.Tended) (hnames : st.registry.NamesApart)
    (hc : st.registry.capture? i = some c) (ht : st.captureTask? t.generation = some t)
    (hadvance : st.Advance t phase? lo box)
    (hranked : (st.become t.generation phase? lo box).registry.Ranked) :
    (st.become t.generation phase? lo box).rivals c ⊆ st.rivals c := by
  intro g hg
  rw [mem_rivals hranked] at hg
  simp only [linkOf?_become hadvance] at hg
  obtain ⟨hne, u, hu, hread, hlink⟩ := hg
  rw [mem_rivals h.consistent.ranked]
  by_cases hsame : g = t.generation
  · subst hsame
    rw [captureTask?_become ht] at hu
    obtain ⟨phase, rfl, rfl⟩ := Option.map_eq_some_iff.1 hu
    refine ⟨hne, t, ht, ?_, hlink⟩
    rcases hadvance.mayRead hread with hbefore | hopen
    · exact hbefore
    · exact absurd (h.eq_generation_of_isOpen hnames hc (mem_of_captureTask? ht) hopen hlink) hne
  · rw [captureTask?_become_of_ne hsame] at hu
    exact ⟨hne, u, hu, hread, hlink⟩

end Tended

theorem underway_of_linkOf? (hlink : st.linkOf? c.handle = some link) :
    st.underway i c = (st.inbound.items.filter (isFor i c.generation)).map Inbound.bytes ++
      st.carried c.generation ++ st.registry.backend.unreadAt link := by
  rw [underway, hlink, Option.elim_some]

namespace Tended

/-- **A step of a capture's own task** loses nothing that is underway. -/
theorem underway_become (h : st.Tended) (hthen : (st.become t.generation phase? lo box).Tended)
    (hc : st.registry.capture? i = some c) (hg : t.generation = c.generation)
    (ht : st.captureTask? t.generation = some t) (hadvance : st.Advance t phase? lo box) :
    (st.become t.generation phase? lo box).underway i c = st.underway i c := by
  obtain ⟨rfl, rfl⟩ := h.consistent.numbered.agree.eq_capture (mem_of_captureTask? ht) hc hg.symm
  obtain ⟨link, hlink, -⟩ := h.exists_linkOf? (mem_of_captureTask? ht)
  have hgoes : phase?.isSome = true := by
    cases phase? with
    | some phase => rfl
    | none =>
      have hlost := h.isCurrent_of_ends (mem_of_captureTask? ht) hadvance
      rw [Registry.isCurrent_eq_true_iff.2 ⟨_, hc, hg.symm⟩] at hlost
      cases hlost
  obtain ⟨ps, hitems, hown, hall⟩ :=
    hadvance.carries h.consistent.awaits hthen.consistent.awaits ht hlink hgoes
  have hafter : (st.become t.generation phase? lo box).linkOf? t.handle = some link := by
    rw [linkOf?_become hadvance, hlink]
  have hfilter : ps.filter (isFor t.ifIndex t.generation) = ps := List.filter_eq_self.2 hown
  rw [underway_of_linkOf? (c := t.capture) hafter, underway_of_linkOf? (c := t.capture) hlink,
    inbound_become, backend_become, hitems, List.filter_append, List.map_append]
  show List.map _ _ ++ List.map _ (ps.filter (isFor t.ifIndex t.generation)) ++ _ ++ _ = _
  rw [hfilter, List.append_assoc, List.append_assoc, List.append_assoc, ← List.append_assoc
    (ps.map Inbound.bytes)]
  exact congrArg _ hall

/-- A step of another task puts nothing in the mailbox that was read through the capture, and
touches nothing that its own task has. -/
theorem apart_become_of_ne (h : st.Tended) (hne : t.generation ≠ c.generation)
    (hx : st.after (.task (.capture t.generation)) = st.become t.generation phase? lo box)
    (hadvance : st.Advance t phase? lo box) :
    box.items.filter (isFor i c.generation) = st.inbound.items.filter (isFor i c.generation) ∧
      (st.become t.generation phase? lo box).carried c.generation = st.carried c.generation := by
  have hnot : Incident.task (.capture t.generation) ≠ .task (.capture c.generation) := fun heq =>
    hne (StationTask.capture.inj (Incident.task.inj heq))
  constructor
  · obtain ⟨ps, hps⟩ := hadvance.items_prefix
    have hforwarded : st.forwarded (.task (.capture t.generation)) = ps := by
      rw [forwarded, hx, inbound_become, ← hps, List.drop_left]
    have hnone := filter_forwarded_of_ne h.consistent hnot
    rw [hforwarded, List.filter_eq_nil_iff] at hnone
    have hothers : ps.filter (isFor i c.generation) = [] := by
      refine List.filter_eq_nil_iff.2 fun p hp hfor => hnone p hp ?_
      have hboth := of_decide_eq_true hfor
      exact decide_eq_true hboth.2
    rw [← hps, List.filter_append, hothers, List.append_nil]
  · have hdue := due_after_of_ne h.consistent hnot
    rw [hx] at hdue
    rw [carried, hdue, captureTask?_become_of_ne (Ne.symm hne), carried]

/-- **A rival that gets a frame** is a rival no more. -/
theorem length_rivals_lt_of_got (h : st.Tended)
    (hthen : (st.become t.generation (some (.holding bytes)) lo box).Tended)
    (hnames : st.registry.NamesApart) (hc : st.registry.capture? i = some c)
    (hne : t.generation ≠ c.generation) (ht : st.captureTask? t.generation = some t)
    (hadvance : st.Advance t (some (.holding bytes)) lo box) (hreading : t.phase = .reading)
    (hlink : st.linkOf? t.handle = st.linkOf? c.handle) :
    ((st.become t.generation (some (.holding bytes)) lo box).rivals c).length <
      (st.rivals c).length := by
  have hranked := hthen.consistent.ranked
  have hsubset := h.rivals_become hnames hc ht hadvance hranked
  have hbefore : t.generation ∈ st.rivals c :=
    (mem_rivals h.consistent.ranked).2 ⟨hne, t, ht, by rw [hreading]; rfl, hlink⟩
  have hafter : t.generation ∉
      (st.become t.generation (some (.holding bytes)) lo box).rivals c := by
    intro hmem
    obtain ⟨-, u, hu, hread, -⟩ := (mem_rivals hranked).1 hmem
    rw [captureTask?_become ht] at hu
    obtain rfl := Option.some.inj hu
    cases hread
  exact (List.subperm_of_subset (List.nodup_cons.2 ⟨hafter, nodup_rivals hranked c⟩)
    (List.cons_subset.2 ⟨hbefore, hsubset⟩)).length_le

/-- **A step of another task** takes one frame that is underway from the link at the most, and
then that task is a rival no more. -/
theorem underway_become_of_ne (h : st.Tended)
    (hthen : (st.become t.generation phase? lo box).Tended) (hnames : st.registry.NamesApart)
    (hc : st.registry.capture? i = some c) (hne : t.generation ≠ c.generation)
    (hx : st.after (.task (.capture t.generation)) = st.become t.generation phase? lo box)
    (ht : st.captureTask? t.generation = some t) (hadvance : st.Advance t phase? lo box) :
    ((st.become t.generation phase? lo box).underway i c).Sublist (st.underway i c) ∧
      (st.underway i c).length + ((st.become t.generation phase? lo box).rivals c).length ≤
        ((st.become t.generation phase? lo box).underway i c).length + (st.rivals c).length := by
  obtain ⟨s, link, l, -, hlink, -, -⟩ := h.exists_port hc
  obtain ⟨link', hlink', -⟩ := h.exists_linkOf? (mem_of_captureTask? ht)
  obtain ⟨hitems, hcarried⟩ := h.apart_become_of_ne (i := i) hne hx hadvance
  have hafter : (st.become t.generation phase? lo box).linkOf? c.handle = some link := by
    rw [linkOf?_become hadvance, hlink]
  have hfewer := length_rivals_le hthen.consistent.ranked
    (h.rivals_become hnames hc ht hadvance hthen.consistent.ranked)
  have hthereafter : (st.become t.generation phase? lo box).underway i c =
      (st.inbound.items.filter (isFor i c.generation)).map Inbound.bytes ++
        st.carried c.generation ++ lo.unreadAt link := by
    rw [underway_of_linkOf? hafter, inbound_become, backend_become, hcarried, ← hitems]
  rw [hthereafter, underway_of_linkOf? hlink]
  rcases hadvance.unread_cases hlink' with ⟨bytes, hreading, rfl, -, htaken⟩ | ⟨-, hsame⟩
  · rw [htaken link]
    split_ifs with hk
    · have hlt := h.length_rivals_lt_of_got hthen hnames hc hne ht hadvance hreading
        (hlink'.trans (hk ▸ hlink.symm))
      refine ⟨List.Sublist.append_left (List.sublist_cons_self _ _) _, ?_⟩
      simp only [List.length_append, List.length_singleton]
      omega
    · rw [List.nil_append]
      exact ⟨List.Sublist.refl _, Nat.add_le_add_left hfewer _⟩
  · rw [hsame link]
    exact ⟨List.Sublist.refl _, Nat.add_le_add_left hfewer _⟩

/-- **Where no task moves**, what is taken out of the mailbox is next of what is underway. -/
theorem underway_of_rests (h : st.Tended) (hrests : st.Rests ps st')
    (hc : st.registry.capture? i = some c) :
    (ps.filter (isFor i c.generation)).map Inbound.bytes ++ st'.underway i c =
      st.underway i c := by
  obtain ⟨s, link, l, -, hlink, -, -⟩ := h.exists_port hc
  obtain ⟨rest, hitems, hbox⟩ := hrests.inbound
  have htask := hrests.captureTask?_of_le (h.consistent.numbered.agree.le i c (.inl hc))
  have hcarried : st'.carried c.generation = st.carried c.generation := by
    rw [carried, due, htask, hbox, carried, due]
  rw [underway_of_linkOf? (linkOf?_of_quiet hrests.quiet hlink), underway_of_linkOf? hlink, hbox,
    hcarried, hrests.quiet.unread, hitems, List.filter_append, List.map_append]
  simp only [List.append_assoc]

theorem rivals_of_rests (h : st.Tended) (hthen : st'.Tended) (hrests : st.Rests ps st')
    (hc : st.registry.capture? i = some c) : st'.rivals c ⊆ st.rivals c := by
  intro g hg
  obtain ⟨hne, t, ht, hread, hsame⟩ := (mem_rivals hthen.consistent.ranked).1 hg
  rcases hrests.captureTask?_cases ht with hold | ⟨hphase, -⟩
  · obtain ⟨s, link, l, -, hlink, -, -⟩ := h.exists_port hc
    obtain ⟨link', hlink', -⟩ := h.exists_linkOf? (mem_of_captureTask? hold)
    rw [linkOf?_of_quiet hrests.quiet hlink, linkOf?_of_quiet hrests.quiet hlink'] at hsame
    exact (mem_rivals h.consistent.ranked).2
      ⟨hne, t, hold, hread, hlink'.trans (hsame.trans hlink.symm)⟩
  · rw [hphase] at hread
    cases hread

/-- **Frames that arrive** are underway last. -/
theorem underway_inject (h : st.Tended) (hs : st.registry.session? i = some s)
    (hc : s.capture = some c) (name : String) (frames : List Octets) :
    (st.onBackend (·.inject name frames)).underway i c =
        st.underway i c ++ (if name = s.port.name then frames else []) ∧
      (st.onBackend (·.inject name frames)).rivals c = st.rivals c := by
  have hcapture : st.registry.capture? i = some c := by
    rw [Registry.capture?, hs]
    exact hc
  obtain ⟨s', link, l, hs', hlink, hl, hname⟩ := h.exists_port hcapture
  obtain rfl := Option.some.inj (hs.symm.trans hs')
  have hlink' : (st.onBackend (·.inject name frames)).linkOf? c.handle = some link := by
    rw [linkOf?_inject, hlink]
  constructor
  · rw [underway_of_linkOf? hlink', underway_of_linkOf? hlink]
    show _ ++ (st.registry.backend.inject name frames).unreadAt link = _
    rw [h.sound.wired.backend.unreadAt_inject hl, hname, ← List.append_assoc]
    simp only [eq_comm]
    rfl
  · rw [rivals, linkOf?_inject, rivals]
    rfl

/-- **What an incident does to what is underway for a capture.**  What is taken out of the
mailbox for it and what is underway afterwards were underway before or have come in, in
the same order, and are fewer only by as many as there are fewer rivals. -/
theorem flow (h : st.Tended) (hx : x.isRoutine = true) (hnames : st.registry.NamesApart)
    (hs : st.registry.session? i = some s) (hc : s.capture = some c) :
    (((st.taken x).filter (isFor i c.generation)).map Inbound.bytes ++
        (st.after x).underway i c).Sublist (st.underway i c ++ x.injected s.port.name) ∧
      (st.underway i c ++ x.injected s.port.name).length + ((st.after x).rivals c).length ≤
        (((st.taken x).filter (isFor i c.generation)).map Inbound.bytes ++
          (st.after x).underway i c).length + (st.rivals c).length := by
  have hthen := h.after hx
  have hcapture : st.registry.capture? i = some c := by
    rw [Registry.capture?, hs]
    exact hc
  rcases routine_cases h.consistent.ranked hx with
    ⟨t, phase?, lo, box, rfl, ht, hadvance, heq⟩ | ⟨name, frames, rfl, heq⟩ | ⟨hnot, hrests⟩
  · rw [heq] at hthen ⊢
    show (_ : List Octets).Sublist (st.underway i c ++ []) ∧ (st.underway i c ++ []).length + _ ≤ _
    rw [List.append_nil]
    by_cases hg : t.generation = c.generation
    · have hsame := h.underway_become hthen hcapture hg ht hadvance
      have hfewer := length_rivals_le hthen.consistent.ranked
        (h.rivals_become hnames hcapture ht hadvance hthen.consistent.ranked)
      rw [hsame]
      exact ⟨List.Sublist.refl _, Nat.add_le_add_left hfewer _⟩
    · exact h.underway_become_of_ne hthen hnames hcapture hg heq ht hadvance
  · obtain ⟨hunderway, hrivals⟩ := h.underway_inject hs hc name frames
    rw [heq, hunderway, hrivals]
    exact ⟨List.Sublist.refl _, Nat.le_refl _⟩
  · have hinjected : x.injected s.port.name = [] := by
      unfold Incident.injected
      split
      · exact absurd rfl (hnot _ _)
      · rfl
    have hfewer := length_rivals_le hthen.consistent.ranked
      (h.rivals_of_rests hthen hrests hcapture)
    rw [h.underway_of_rests hrests hcapture, hinjected, List.append_nil]
    exact ⟨List.Sublist.refl _, Nat.add_le_add_left hfewer _⟩

/-! ### When nothing can go on -/

/-- Whoever waits for room in an empty mailbox does not wait long: the first of them can go
on. -/
theorem exists_ready_of_sending (h : st.Tended) (ht : st.captureTask? generation = some t)
    (hsending : t.phase = .sending) (hitems : st.inbound.items = []) :
    ∃ u ∈ st.registry.tasks, st.captureReady u = true := by
  obtain rfl := generation_of_captureTask? ht
  obtain ⟨bytes, hwaiting⟩ := h.consistent.awaits.sending ht hsending
  cases hall : st.inbound.waiting with
  | nil =>
    rw [hall] at hwaiting
    cases hwaiting
  | cons w rest =>
    rcases h.consistent.awaits w.1 with ⟨u, -, hu, hphase, -⟩ | ⟨-, hnone⟩
    · have hg := generation_of_captureTask? hu
      have hroom : st.inbound.room = (st.inbound.capacity - 1) + 1 := by
        have hcapacity := h.capacity
        rw [Mailbox.room, hitems, List.length_nil]
        omega
      refine ⟨u, mem_of_captureTask? hu, ?_⟩
      rw [captureReady, hphase]
      show st.inbound.canSettle u.generation = true
      rw [Mailbox.canSettle, hall, hroom, List.take_succ_cons, List.any_cons, hg]
      simp
    · rw [hall] at hnone
      simp at hnone

/-- Where frames wait, the first in line can go on. -/
theorem exists_ready_of_inLine (h : st.Tended) (hline : st.InLine link generation)
    (hunread : st.registry.backend.unreadAt link ≠ []) :
    ∃ u ∈ st.registry.tasks, st.captureReady u = true := by
  have hmem := ((h.line link).2 generation).2 hline
  cases htickets : st.registry.backend.ticketsAt link with
  | nil =>
    rw [htickets] at hmem
    cases hmem
  | cons g rest =>
    have hfirst : st.InLine link g := by
      rw [← (h.line link).2 g, htickets]
      exact List.mem_cons_self
    obtain ⟨u, hu, hphase, hlink⟩ := hfirst
    have hturn : st.hasTurn u = true := by
      rw [hasTurn, hlink, Option.any_some, Loopback.turn?_eq_head?, htickets,
        generation_of_captureTask? hu]
      exact decide_eq_true rfl
    have hserve : st.registry.backend.canServe link st.now = true :=
      Loopback.canServe_of_unreadAt hunread (by rw [htickets]; exact List.cons_ne_nil g rest)
    refine ⟨u, mem_of_captureTask? hu, ?_⟩
    rw [captureReady]
    cases hu' : u.phase with
    | waiting => exact hturn
    | reading =>
      show (st.hasTurn u && _) = true
      rw [hturn, hlink, Option.any_some, hserve]
      rfl
    | sending =>
      rw [hu'] at hphase
      cases hphase
    | _ => rfl

/-- **When no task can go on and the mailbox is empty**, nothing is underway. -/
theorem underway_eq_nil (h : st.Tended) (hc : st.registry.capture? i = some c)
    (hready : ∀ t ∈ st.registry.tasks, st.captureReady t = false)
    (hitems : st.inbound.items = []) : st.underway i c = [] := by
  have hnone : ¬∃ u ∈ st.registry.tasks, st.captureReady u = true := by
    rintro ⟨u, hu, hable⟩
    rw [hready u hu] at hable
    cases hable
  obtain ⟨t, ht, -, rfl⟩ := h.exists_task hc
  have hstuck := hready t (mem_of_captureTask? ht)
  have hinLine : t.phase.isInLine = true := by
    unfold captureReady at hstuck
    cases hphase : t.phase with
    | waiting => rfl
    | reading => rfl
    | sending => exact absurd (h.exists_ready_of_sending ht hphase hitems) hnone
    | _ =>
      rw [hphase] at hstuck
      cases hstuck
  obtain ⟨link, hlink, -⟩ := h.exists_linkOf? (mem_of_captureTask? ht)
  have hunread : st.registry.backend.unreadAt link = [] := by
    by_contra hne
    exact hnone (h.exists_ready_of_inLine ⟨t, ht, hinLine, hlink⟩ hne)
  have hcarried : st.carried t.capture.generation = [] := by
    refine carried_eq_nil h.consistent.awaits ht ?_ ?_ ?_
    all_goals
      intros
      intro hphase
      rw [hphase] at hinLine
      cases hinLine
  have hhandle : st.linkOf? t.capture.handle = some link := hlink
  rw [underway_of_linkOf? hhandle, hitems, hcarried, hunread]
  rfl

end Tended

end Station
end Lldp
