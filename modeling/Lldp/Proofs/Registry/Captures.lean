/-
# Where captures come from

A port gets a capture in one way only: it is registered and its interface is
opened, and the capture then has a generation that no capture had before, and a
task to read it.  `Recaptures` says what an operation may do with captures, once
for each operation and for those composed of others (`Recaptures.trans`), so that
what is proved of captures need not look at operations any more.  Registering a
port is left out, since it is the one operation after which there are more ports
than before; it touches no capture (`capture?_add`).

Since generations are not used again, a generation tells the port it was opened
for and the handle it is read through, for as long as a port or a task has it
(`CapturesAgree`).
-/

import Lldp.Proofs.Registry.Receivers

namespace Lldp

/-- The capture that a task reads. -/
def CaptureTask.capture (t : CaptureTask) : Capture := ⟨t.generation, t.handle⟩

namespace Registry

variable {r r' r'' : Registry} {i j : IfIndex} {c d : Capture} {now : Nat}

/-- The capture of a port. -/
def capture? (r : Registry) (i : IfIndex) : Option Capture := (r.session? i).bind (·.capture)

/-- A port is registered. -/
def isRegistered (r : Registry) (i : IfIndex) : Bool := (r.session? i).isSome

/-- Only registered ports have a capture. -/
theorem isRegistered_of_capture? (h : r.capture? i = some c) : r.isRegistered i = true := by
  obtain ⟨s, hs, -⟩ := Option.bind_eq_some_iff.1 h
  rw [isRegistered, hs]
  rfl

/-- Only registered ports have a neighbour. -/
theorem isRegistered_of_neighbor? {n : Neighbor} (h : r.neighbor? i = some n) :
    r.isRegistered i = true := by
  obtain ⟨v, hv, -⟩ := Option.bind_eq_some_iff.1 h
  obtain ⟨s, hs, -⟩ := Option.map_eq_some_iff.1 hv
  rw [isRegistered, hs]
  rfl

/-- **A current capture** is the one the port has. -/
theorem isCurrent_eq_true_iff {generation : Nat} :
    r.isCurrent i generation = true ↔ ∃ c, r.capture? i = some c ∧ c.generation = generation := by
  simp only [isCurrent, capture?, Option.any_eq_true, Option.bind_eq_some_iff, decide_eq_true_eq]
  constructor
  · rintro ⟨s, hs, c, hc, hg⟩
    exact ⟨c, ⟨s, hs, hc⟩, hg⟩
  · rintro ⟨c, ⟨s, hs, hc⟩, hg⟩
    exact ⟨s, hs, c, hc, hg⟩

/-! ### Generations tell captures apart -/

/-- A capture was opened for a port, and the port still has it or a task still reads
it. -/
def IsOpened (r : Registry) (i : IfIndex) (c : Capture) : Prop :=
  r.capture? i = some c ∨ ∃ t ∈ r.tasks, t.ifIndex = i ∧ t.capture = c

/-- **No generation is used twice**, and none is ahead of the last. -/
structure CapturesAgree (r : Registry) : Prop where
  le : ∀ i c, r.IsOpened i c → c.generation ≤ r.generation
  unique : ∀ i j c d, r.IsOpened i c → r.IsOpened j d → c.generation = d.generation →
    i = j ∧ c = d

namespace CapturesAgree

/-- Where nothing was captured yet, captures agree. -/
theorem ofSettings (settings : Settings) : (Registry.ofSettings settings).CapturesAgree := by
  have hnone : ∀ i c, ¬(Registry.ofSettings settings).IsOpened i c := by
    rintro i c (h | ⟨t, ht, -⟩)
    · cases h
    · cases ht
  exact ⟨fun i c h => absurd h (hnone i c), fun i _ c _ h => absurd h (hnone i c)⟩

/-- Captures may be given up. -/
theorem of_isOpened (h : r.CapturesAgree) (hg : r.generation ≤ r'.generation)
    (ho : ∀ i c, r'.IsOpened i c → r.IsOpened i c) : r'.CapturesAgree where
  le i c hc := Nat.le_trans (h.le i c (ho i c hc)) hg
  unique i j c d hc hd := h.unique i j c d (ho i c hc) (ho j d hd)

/-- A capture of the next generation may come to them. -/
theorem of_next (h : r.CapturesAgree) {handle : Nat} (hg : r'.generation = r.generation + 1)
    (ho : ∀ j c, r'.IsOpened j c → r.IsOpened j c ∨ j = i ∧ c = ⟨r.generation + 1, handle⟩) :
    r'.CapturesAgree where
  le j c hc := by
    rcases ho j c hc with hold | ⟨-, rfl⟩
    · have hle := h.le j c hold
      omega
    · exact Nat.le_of_eq hg.symm
  unique j k c d hc hd heq := by
    rcases ho j c hc with hold | ⟨rfl, rfl⟩
    · rcases ho k d hd with hold' | ⟨rfl, rfl⟩
      · exact h.unique j k c d hold hold' heq
      · have hle := h.le j c hold
        rw [heq] at hle
        exact absurd hle (Nat.not_succ_le_self _)
    · rcases ho k d hd with hold | ⟨rfl, rfl⟩
      · have hle := h.le k d hold
        rw [← heq] at hle
        exact absurd hle (Nat.not_succ_le_self _)
      · exact ⟨rfl, rfl⟩

/-- **The capture of a port is the one that the task of its generation reads.** -/
theorem eq_capture (h : r.CapturesAgree) {t : CaptureTask} (ht : t ∈ r.tasks)
    (hc : r.capture? i = some c) (hg : c.generation = t.generation) :
    i = t.ifIndex ∧ c = t.capture :=
  h.unique i t.ifIndex c t.capture (.inl hc) (.inr ⟨t, ht, rfl, rfl⟩) hg

end CapturesAgree

/-! ### What an operation does with captures -/

/-- No port is registered; a port that has a capture had it before or has one of a
new generation; a task was there before or has yet to begin. -/
structure Recaptures (r r' : Registry) : Prop where
  registered : ∀ i, r'.isRegistered i = true → r.isRegistered i = true
  generation : r.generation ≤ r'.generation
  capture : ∀ i c, r'.capture? i = some c → r.capture? i = some c ∨ r.generation < c.generation
  tasks : ∀ t ∈ r'.tasks, t ∈ r.tasks ∨ t.phase = .watching
  agree : r.CapturesAgree → r'.CapturesAgree

/-- A packet that is handed over begins no capture, and no task either. -/
theorem handleInbound_frame (r : Registry) (now : Nat) (packet : Inbound) :
    (r.handleInbound now packet).generation = r.generation ∧
      (r.handleInbound now packet).tasks = r.tasks := by
  rcases handleInbound_cases r now packet with
    ⟨-, heq⟩ | ⟨s, -, -, ⟨-, heq⟩ | ⟨n, -, heq⟩⟩
  · rw [heq]
    exact ⟨rfl, rfl⟩
  · rw [heq]
    exact ⟨rfl, rfl⟩
  · rw [heq]
    exact ⟨rfl, rfl⟩

namespace Recaptures

/-- Where nothing happens, captures are as they were. -/
theorem refl (r : Registry) : Recaptures r r where
  registered _ h := h
  generation := Nat.le_refl _
  capture _ _ h := Or.inl h
  tasks _ h := Or.inl h
  agree h := h

/-- What two operations may do with captures, they may do together. -/
theorem trans (h : Recaptures r r') (h' : Recaptures r' r'') : Recaptures r r'' where
  registered i hi := h.registered i (h'.registered i hi)
  generation := Nat.le_trans h.generation h'.generation
  capture i c hc := by
    rcases h'.capture i c hc with hold | hnew
    · exact h.capture i c hold
    · exact Or.inr (Nat.lt_of_le_of_lt h.generation hnew)
  tasks t ht := by
    rcases h'.tasks t ht with hold | hnew
    · exact h.tasks t hold
    · exact Or.inr hnew
  agree hr := h'.agree (h.agree hr)

/-- Sessions that have no capture which they had not before, and the same tasks. -/
theorem of_sessions (hs : ∀ j s', r'.session? j = some s' →
      ∃ s, r.session? j = some s ∧ ∀ c, s'.capture = some c → s.capture = some c)
    (hg : r'.generation = r.generation) (ht : r'.tasks = r.tasks) : Recaptures r r' := by
  have hcapture : ∀ i c, r'.capture? i = some c → r.capture? i = some c := by
    intro i c h
    obtain ⟨s', hs', hc⟩ := Option.bind_eq_some_iff.1 h
    obtain ⟨s, hsi, hsame⟩ := hs i s' hs'
    exact Option.bind_eq_some_iff.2 ⟨s, hsi, hsame c hc⟩
  refine ⟨fun i h => ?_, Nat.le_of_eq hg.symm, fun i c h => Or.inl (hcapture i c h),
    fun t h => Or.inl (ht ▸ h), fun h => h.of_isOpened (Nat.le_of_eq hg.symm) ?_⟩
  · obtain ⟨s', hs'⟩ := Option.isSome_iff_exists.1 h
    obtain ⟨s, hsi, -⟩ := hs i s' hs'
    exact Option.isSome_iff_exists.2 ⟨s, hsi⟩
  · rintro i c (hc | ⟨t, hmem, hi, hc⟩)
    · exact Or.inl (hcapture i c hc)
    · exact Or.inr ⟨t, ht ▸ hmem, hi, hc⟩

/-- The same sessions have the same captures. -/
theorem of_same (hs : r'.sessions = r.sessions) (hg : r'.generation = r.generation)
    (ht : r'.tasks = r.tasks) : Recaptures r r' := by
  refine .of_sessions (fun j s h => ⟨s, ?_, fun _ => id⟩) hg ht
  rwa [session?, hs] at h

/-- A change of all sessions that gives none of them a capture. -/
theorem of_map {change : Session → Session}
    (hs : ∀ j, r'.session? j = (r.session? j).map change)
    (hc : ∀ s c, (change s).capture = some c → s.capture = some c)
    (hg : r'.generation = r.generation) (ht : r'.tasks = r.tasks) : Recaptures r r' := by
  refine .of_sessions (fun j s' h => ?_) hg ht
  rw [hs] at h
  obtain ⟨s, hsj, rfl⟩ := Option.map_eq_some_iff.1 h
  exact ⟨s, hsj, hc s⟩

/-- A change of one session that does not give it a capture. -/
theorem of_ite {change : Session → Session}
    (hs : ∀ j, r'.session? j = if j = i then (r.session? j).map change else r.session? j)
    (hc : ∀ s c, (change s).capture = some c → s.capture = some c)
    (hg : r'.generation = r.generation) (ht : r'.tasks = r.tasks) : Recaptures r r' := by
  refine .of_sessions (fun j s' h => ?_) hg ht
  rw [hs] at h
  split_ifs at h
  · obtain ⟨s, hsj, rfl⟩ := Option.map_eq_some_iff.1 h
    exact ⟨s, hsj, hc s⟩
  · exact ⟨s', h, fun _ => id⟩

/-- **An interface is opened**: the port has the next capture. -/
theorem adopt {handle : Nat} : Recaptures r (r.adopt i handle) := by
  have hcapture : ∀ j c, (r.adopt i handle).capture? j = some c →
      r.capture? j = some c ∨ j = i ∧ c = ⟨r.generation + 1, handle⟩ := by
    intro j c h
    rw [capture?, session?_adopt] at h
    split_ifs at h with hj
    · obtain ⟨s', hs', hc⟩ := Option.bind_eq_some_iff.1 h
      obtain ⟨s, -, rfl⟩ := Option.map_eq_some_iff.1 hs'
      exact Or.inr ⟨hj, (Option.some.inj hc).symm⟩
    · exact Or.inl h
  refine ⟨fun j h => ?_, Nat.le_succ _, fun j c h => ?_, fun t h => ?_,
    fun h => @CapturesAgree.of_next r _ i h handle rfl ?_⟩
  · rw [isRegistered, session?_adopt] at h
    split_ifs at h
    · rwa [Option.isSome_map] at h
    · exact h
  · rcases hcapture j c h with hold | ⟨-, rfl⟩
    · exact Or.inl hold
    · exact Or.inr (Nat.lt_succ_self _)
  · rcases List.mem_append.1 h with hold | hnew
    · exact Or.inl hold
    · rw [List.mem_singleton.1 hnew]
      exact Or.inr rfl
  · rintro j c (hc | ⟨t, ht, rfl, rfl⟩)
    · rcases hcapture j c hc with hold | hnew
      · exact Or.inl (Or.inl hold)
      · exact Or.inr hnew
    · rcases List.mem_append.1 ht with hold | hnew
      · exact Or.inl (Or.inr ⟨t, hold, rfl, rfl⟩)
      · rw [List.mem_singleton.1 hnew]
        exact Or.inr ⟨rfl, rfl⟩

/-- **To start a port** may begin a capture, which is of a new generation. -/
theorem start : Recaptures r (r.start i).2 := by
  rcases start_cases r i with ⟨-, h⟩ | ⟨-, s, lo', -, -, -, h⟩
  · rw [h]
    exact .refl r
  · rw [h]
    have hopen : Recaptures r { r with backend := lo' } := .of_same rfl rfl rfl
    exact hopen.trans adopt

/-- **To stop a port** ends its capture. -/
theorem stop : Recaptures r (r.stop i).2 := by
  refine .of_ite (fun j => session?_stop) (fun s c h => by cases h) ?_ ?_
  · unfold Registry.stop
    split <;> rfl
  · unfold Registry.stop
    split <;> rfl

/-- Alarms have to do with no capture. -/
theorem cancelAlarm : Recaptures r (r.cancelAlarm i) := by
  refine .of_ite (fun j => session?_cancelAlarm) (fun s c h => h) ?_ ?_
  · unfold Registry.cancelAlarm
    split <;> rfl
  · unfold Registry.cancelAlarm
    split <;> rfl

/-- A port that is forgotten loses its capture. -/
theorem remove : Recaptures r (r.remove i).2 := by
  cases h : r.session? i with
  | none =>
    rw [remove_of_none h]
    exact .refl r
  | some s =>
    have hforget : Recaptures ((r.stop i).2.cancelAlarm i) (r.remove i).2 := by
      refine .of_sessions (fun j s' hs' => ?_) (by rw [remove_of_session? h])
        (by rw [remove_of_session? h])
      rw [session?_remove] at hs'
      split_ifs at hs' with hj
      refine ⟨s', ?_, fun _ => id⟩
      rw [session?_cancelAlarm, if_neg hj, session?_stop, if_neg hj]
      exact hs'
    exact (stop.trans cancelAlarm).trans hforget

/-- To record the state of a link begins no capture by itself. -/
theorem setLink {state : LinkState} : Recaptures r (r.setLink i state).2 := by
  refine .of_ite (fun j => session?_setLink) (fun s c h => h) ?_ ?_
  · rw [setLink_snd]
    rfl
  · rw [setLink_snd]
    rfl

/-- To start or stop a port as its switches say begins one new capture at the most. -/
theorem follow {on : Bool} : Recaptures r (r.follow i on) := by
  unfold Registry.follow
  split_ifs
  · exact start
  · exact stop

/-- For several ports, each that begins is newer than those before it. -/
theorem followAll {on : Bool} (is : List IfIndex) : Recaptures r (r.followAll is on) := by
  induction is generalizing r with
  | nil => exact .refl r
  | cons i is ih => exact follow.trans ih

/-- No change of settings brings a capture but by opening an interface. -/
theorem apply {change : Change} : Recaptures r (r.apply change).2 := by
  cases change with
  | globalEnable on =>
    have hset : Recaptures r (r.setEnabled on) := .of_same rfl rfl rfl
    exact hset.trans (followAll _)
  | portEnable i on =>
    rw [apply_portEnable]
    have hset : Recaptures r (r.setPortEnabled i on) :=
      .of_ite (fun j => session?_setPortEnabled) (fun s c h => h) rfl rfl
    exact hset.trans follow
  | timing interval multiplier =>
    rcases apply_timing_cases r interval multiplier with ⟨-, h⟩ | ⟨timing, -, -, h⟩
    · rw [h]
      exact .refl r
    · rw [h]
      exact .of_map (fun j => session?_retime) (fun s c h => h) rfl rfl

/-- **No request of a client** brings a capture but by opening an interface, and none
but one registers a port. -/
theorem execute {q : Request} (h : ∀ port, q ≠ .add port) : Recaptures r (r.execute q).2 := by
  cases q with
  | add port => exact absurd rfl (h port)
  | remove i => exact remove
  | reportLink i state =>
    show Recaptures r (r.reportLink i state).2
    rw [reportLink_snd]
    exact setLink.trans follow
  | neighbors start count => exact .refl r
  | counters i => exact .refl r
  | apply change => exact apply

/-- No packet that comes in begins a capture. -/
theorem handleInbound {packet : Inbound} : Recaptures r (r.handleInbound now packet) := by
  obtain ⟨change, hchange, hs⟩ := session?_handleInbound r now packet
  obtain ⟨hg, ht⟩ := handleInbound_frame r now packet
  refine .of_ite hs (fun s c h => ?_) hg ht
  obtain ⟨receiver, received, discarded, heq⟩ := hchange s
  rw [heq] at h
  exact h

/-- No transmission begins a capture. -/
theorem handleTransmit : Recaptures r (r.handleTransmit i) := by
  have hmodify : ∀ (r' : Registry) (change : Session → Session),
      (∀ s, (change s).port = s.port) → (∀ s, (change s).capture = s.capture) →
      Recaptures r' (r'.modify i change) := fun r' change hport hc =>
    .of_ite (fun j => session?_modify hport) (fun s c h => (hc s).symm.trans h) rfl rfl
  rcases handleTransmit_cases r i with
    ⟨-, h⟩ | ⟨s, c, -, -, ⟨-, h⟩ | ⟨-, -, h⟩ | ⟨-, lo', -, h⟩⟩
  · rw [h]
    exact .refl r
  · rw [h]
    exact hmodify r _ (fun _ => rfl) fun _ => rfl
  · rw [h]
    exact hmodify r _ (fun _ => rfl) fun _ => rfl
  · rw [h]
    have hwrite : Recaptures r { r with backend := lo' } := .of_same rfl rfl rfl
    exact hwrite.trans (hmodify _ _ (fun _ => rfl) fun _ => rfl)

/-- No alarm that goes off begins a capture. -/
theorem expire {alarm : Alarm} : Recaptures r (r.expire now alarm) := by
  refine .of_ite (i := alarm.ifIndex) (fun j => session?_handleExpiry) (fun s c h => h) ?_ ?_
  · unfold Registry.expire Registry.handleExpiry
    split <;> rfl
  · unfold Registry.expire Registry.handleExpiry
    split <;> rfl

/-- A registry that is abandoned begins none. -/
theorem abandon : Recaptures r r.abandon :=
  .of_map (fun j => @find?_map_session j
    (fun s => { s with transmitter := s.transmitter.stopTicker }) (fun _ => rfl) r.sessions)
    (fun _ _ h => h) rfl rfl

/-- **To stop all ports** begins none. -/
theorem shutdown : Recaptures r r.shutdown :=
  rel_shutdown refl (fun _ _ _ => trans) (fun _ _ => stop) (fun _ _ => cancelAlarm) r

end Recaptures

/-- **Registering a port touches no capture.** -/
theorem capture?_add {port : Port} : (r.add port).2.capture? i = r.capture? i := by
  cases h : r.session? port.ifIndex with
  | some s => rw [add_of_session? h]
  | none =>
    rw [capture?, session?_add h]
    split_ifs with hi
    · rw [capture?, hi, h]
      rfl
    · rfl

end Registry
end Lldp
