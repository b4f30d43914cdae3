/-
# When a port is captured

Three switches have to be on before a port may be captured: its link is up, it is
enabled, and the protocol is enabled as a whole (`Registry.admits`).  Each is
thrown by a request of its own, and each request starts or stops ports in its own
way and swallows the failure to open an interface.

Seen from one port an event does one of three things (`Registry.outcome_react`): it
leaves the switches and the capture as they were; it leaves a switch off and the
port not captured; or it summons the port, all switches being on, and then the
port is captured afterwards or its interface could not be opened.  So a captured
port is admitted, and a port that is admitted but not captured was summoned last
by an event whose open failed.

This is about the events that a dispatcher lets happen.  Single operations made by
hand could record a link's state without starting or stopping its port.
-/

import Lldp.Proofs.Registry.Alarms
import Lldp.Proofs.Registry.Sparing
import Lldp.Proofs.Registry.Traffic
import Mathlib.Data.List.Induction

namespace Lldp

/-- Whether an event tells a port to start. -/
def Event.wakes (i : IfIndex) : Event → Bool
  | .request (.reportLink j .up) => i = j
  | .request (.apply (.portEnable j true)) => i = j
  | .request (.apply (.globalEnable true)) => true
  | _ => false

namespace Registry

variable {r r' r₁ : Registry} {i j : IfIndex} {s : Session} {now : Nat} {e : Event}

/-- Whether a port is registered and all three switches are on. -/
def admits (r : Registry) (i : IfIndex) : Bool :=
  (r.session? i).any fun s => s.link = .up && r.settings.enabled && s.enabled

/-- Whether a port is registered and captured. -/
def isCapturing (r : Registry) (i : IfIndex) : Bool :=
  (r.session? i).any Session.isCapturing

/-- Whether a port is registered and its interface can be opened. -/
def canOpen (r : Registry) (i : IfIndex) : Bool :=
  (r.session? i).any fun s => s.port.name ∉ r.backend.failingOpens

/-- The registry once an event has thrown its switch, and before ports follow. -/
def switched (r : Registry) : Event → Registry
  | .request (.reportLink i state) => (r.setLink i state).2
  | .request (.apply (.portEnable i on)) => r.setPortEnabled i on
  | .request (.apply (.globalEnable on)) => r.setEnabled on
  | _ => r

/-- Whether an event tells a port to start and leaves all its switches on. -/
def summons (r : Registry) (i : IfIndex) (e : Event) : Bool :=
  e.wakes i && (r.switched e).admits i

/-- The start that an event tells a port to make fails, since its interface cannot
be opened.  Where the event starts other ports first, that makes no difference to
this one. -/
def OpenFails (r : Registry) (i : IfIndex) (e : Event) : Prop :=
  e.wakes i = true ∧ ∃ name, ((r.switched e).start i).1 = .error (.openFailed name)

/-! ### Starting and stopping -/

/-- A change to one port that a test of sessions does not see is none to it. -/
theorem any_of_ite {before after : Option Session} {test : Session → Bool}
    {change : Session → Session} {c : Prop} [Decidable c]
    (hs : after = if c then before.map change else before)
    (h : ∀ s, test (change s) = test s) : after.any test = before.any test := by
  split_ifs at hs
  · rw [hs, Option.any_map]
    exact congrArg before.any (funext h)
  · rw [hs]

/-- A start opens an interface if the port is admitted, not captured, and can be opened. -/
theorem opens_eq : r.opens i = (r.admits i && !r.isCapturing i && r.canOpen i) := by
  unfold opens admits isCapturing canOpen isDue
  cases r.session? i <;> rfl

/-- Without a session none of the three holds. -/
theorem of_session?_eq_none (h : r.session? i = none) :
    r.admits i = false ∧ r.isCapturing i = false ∧ r.canOpen i = false := by
  simp [admits, isCapturing, canOpen, h]

/-- Only registered ports are opened. -/
theorem mem_indexes_of_opens (h : r.opens i = true) : i ∈ r.indexes := by
  by_contra hi
  simp [opens, session?_eq_none_iff.2 hi] at h

/-- Only registered ports are captured. -/
theorem mem_indexes_of_isCapturing (h : r.isCapturing i = true) : i ∈ r.indexes := by
  by_contra hi
  simp [isCapturing, session?_eq_none_iff.2 hi] at h

/-- To start a port throws no switch. -/
@[simp] theorem admits_start : (r.start i).2.admits j = r.admits j := by
  unfold admits
  rw [start_settings]
  exact any_of_ite session?_start fun _ => rfl

/-- Nor does it change which interfaces can be opened. -/
@[simp] theorem canOpen_start : (r.start i).2.canOpen j = r.canOpen j := by
  unfold canOpen
  rw [start_failingOpens]
  exact any_of_ite session?_start fun _ => rfl

/-- **What starting does**: the port is captured if its interface was opened. -/
theorem isCapturing_start :
    (r.start i).2.isCapturing j = (r.isCapturing j || (j = i && r.opens j)) := by
  unfold isCapturing
  rw [session?_start]
  by_cases hj : j = i
  · subst hj
    cases ho : r.opens j with
    | false => simp
    | true =>
      obtain ⟨s, hs⟩ := exists_session?_of_mem (mem_indexes_of_opens ho)
      simp [hs, Session.start, Session.isCapturing]
  · simp [hj]

/-- A port is opened at most once. -/
theorem opens_start : (r.start i).2.opens j = (r.opens j && j ≠ i) := by
  rw [opens_eq, admits_start, canOpen_start, isCapturing_start]
  by_cases hj : j = i
  · rw [opens_eq]
    cases r.admits j <;> cases r.isCapturing j <;> cases r.canOpen j <;> simp [hj]
  · simp [hj, opens_eq]

/-- To stop a port throws no switch. -/
@[simp] theorem admits_stop : (r.stop i).2.admits j = r.admits j := by
  unfold admits
  rw [stop_settings]
  exact any_of_ite session?_stop fun _ => rfl

/-- **What stopping does**: the port is not captured any more, and all others are as they were. -/
theorem isCapturing_stop : (r.stop i).2.isCapturing j = (r.isCapturing j && j ≠ i) := by
  unfold isCapturing
  rw [session?_stop]
  by_cases hj : j = i
  · subst hj
    cases r.session? j <;> simp [Session.stop, Session.isCapturing]
  · simp [hj]

/-- To follow a switch throws none. -/
@[simp] theorem admits_follow {on : Bool} : (r.follow i on).admits j = r.admits j := by
  unfold follow
  split_ifs
  · exact admits_start
  · exact admits_stop

/-- Nor does it for several ports, one after another. -/
@[simp] theorem admits_followAll {on : Bool} (is : List IfIndex) :
    (r.followAll is on).admits j = r.admits j := by
  induction is generalizing r with
  | nil => rfl
  | cons i is ih => exact ih.trans admits_follow

/-- **Starting several ports** captures those of them that can be opened. -/
theorem isCapturing_followAll_on (is : List IfIndex) :
    (r.followAll is true).isCapturing j = (r.isCapturing j || (j ∈ is && r.opens j)) := by
  induction is generalizing r with
  | nil => simp [followAll]
  | cons i is ih =>
    have hstep : (r.followAll (i :: is) true) = (r.start i).2.followAll is true := rfl
    rw [hstep, ih, isCapturing_start, opens_start]
    by_cases hj : j = i
    · simp [hj]
    · simp [hj]

/-- **Stopping several ports** leaves none of them captured. -/
theorem isCapturing_followAll_off (is : List IfIndex) :
    (r.followAll is false).isCapturing j = (r.isCapturing j && j ∉ is) := by
  induction is generalizing r with
  | nil => simp [followAll]
  | cons i is ih =>
    have hstep : (r.followAll (i :: is) false) = (r.stop i).2.followAll is false := rfl
    rw [hstep, ih, isCapturing_stop]
    by_cases hj : j = i
    · simp [hj]
    · simp [hj]

/-- A start that finds all switches on, the port not captured and its interface
not to be opened says so. -/
theorem start_error (ha : r.admits i = true) (hc : r.isCapturing i = false)
    (ho : r.canOpen i = false) : ∃ name, (r.start i).1 = .error (.openFailed name) := by
  unfold start
  cases hs : r.session? i with
  | none => simp [admits, hs] at ha
  | some s =>
    have hdue : r.isDue s = true := by
      simp_all [admits, isCapturing, isDue]
    have hname : s.port.name ∈ r.backend.failingOpens := by
      simpa [canOpen, hs] using ho
    exact ⟨s.port.name, by simp [hdue, Loopback.openHandle_of_mem hname]⟩

/-! ### What an event does to one port -/

/-- Where the switches are spared, the port is admitted just if it was. -/
theorem Spares.admits (h : Spares r r' i) : r'.admits i = r.admits i := by
  rw [Registry.admits, Registry.admits, h.enabled]
  exact h.any fun s s' hs => by rw [hs.link, hs.enabled]

/-- And it is captured just if it was. -/
theorem Spares.isCapturing (h : Spares r r' i) : r'.isCapturing i = r.isCapturing i :=
  h.any fun s s' hs => by rw [Session.isCapturing, Session.isCapturing, hs.capture]

/-- The switches and the capture of a port are as they were. -/
structure Steady (r r' : Registry) (i : IfIndex) : Prop where
  admits : r'.admits i = r.admits i
  capturing : r'.isCapturing i = r.isCapturing i

namespace Steady

/-- Where nothing happens, a port is steady. -/
theorem refl (r : Registry) (i : IfIndex) : Steady r r i := ⟨rfl, rfl⟩

/-- Two changes over which a port is steady are so together. -/
theorem trans {r'' : Registry} (h : Steady r r' i) (h' : Steady r' r'' i) : Steady r r'' i where
  admits := h'.admits.trans h.admits
  capturing := h'.capturing.trans h.capturing

/-- A port whose session and main switch are the same is steady. -/
theorem of_session? (hset : r'.settings.enabled = r.settings.enabled)
    (hs : r'.session? i = r.session? i) : Steady r r' i where
  admits := by rw [Registry.admits, Registry.admits, hs, hset]
  capturing := by rw [isCapturing, isCapturing, hs]

/-- **What spares a port** leaves switches and capture as they were. -/
theorem of_spares (h : Spares r r' i) : Steady r r' i := ⟨h.admits, h.isCapturing⟩

end Steady

/-- **What an event that throws a switch on does to a port**: the switch may be
this port's or not, and the port may have been started and could be opened or
not. -/
theorem wake_cases (hadm : r'.admits i = r₁.admits i)
    (hcap : r'.isCapturing i = (r₁.isCapturing i || r₁.opens i))
    (hsame : r₁.isCapturing i = r.isCapturing i) (hup : r.admits i = true → r₁.admits i = true) :
    (r₁.admits i = false ∧ Steady r r' i) ∨
      (r₁.admits i = true ∧ r'.admits i = true ∧
        (r'.isCapturing i = true ∨
          r'.isCapturing i = false ∧ ∃ name, (r₁.start i).1 = .error (.openFailed name))) := by
  cases ha : r₁.admits i with
  | false =>
    have hoff : r.admits i = false := by
      refine Bool.eq_false_iff.2 fun h => ?_
      rw [hup h] at ha
      cases ha
    refine Or.inl ⟨rfl, hadm.trans (ha.trans hoff.symm), ?_⟩
    rw [hcap, opens_eq, ha, hsame]
    simp
  | true =>
    refine Or.inr ⟨rfl, hadm.trans ha, ?_⟩
    cases hc : r'.isCapturing i with
    | true => exact Or.inl rfl
    | false =>
      rw [hcap, opens_eq, ha] at hc
      obtain ⟨hnot, hopen⟩ := Bool.or_eq_false_iff.1 hc
      rw [hnot] at hopen
      exact Or.inr ⟨rfl, start_error ha hnot (by simpa using hopen)⟩

/-! ### Throwing switches -/

/-- **A link that is reported** decides whether its port is admitted, given the other switches. -/
theorem admits_setLink {state : LinkState} :
    (r.setLink j state).2.admits i =
      if i = j then (r.session? i).any fun s => state = .up && r.settings.enabled && s.enabled
      else r.admits i := by
  unfold admits
  rw [session?_setLink, setLink_snd]
  split_ifs
  · rw [Option.any_map]
    rfl
  · rfl

/-- To record the state of a link starts and stops nothing yet. -/
theorem isCapturing_setLink {state : LinkState} :
    (r.setLink j state).2.isCapturing i = r.isCapturing i :=
  any_of_ite session?_setLink fun _ => rfl

/-- **A port's own switch** decides whether it is admitted, given the others. -/
theorem admits_setPortEnabled {on : Bool} :
    (r.setPortEnabled j on).admits i =
      if i = j then (r.session? i).any fun s => s.link = .up && r.settings.enabled && on
      else r.admits i := by
  unfold admits
  rw [session?_setPortEnabled]
  split_ifs
  · rw [Option.any_map]
    rfl
  · rfl

/-- To throw it starts and stops nothing yet. -/
theorem isCapturing_setPortEnabled {on : Bool} :
    (r.setPortEnabled j on).isCapturing i = r.isCapturing i :=
  any_of_ite session?_setPortEnabled fun _ => rfl

/-- **The main switch** decides for all ports, given their own. -/
theorem admits_setEnabled {on : Bool} :
    (r.setEnabled on).admits i = (r.session? i).any fun s => s.link = .up && on && s.enabled := rfl

/-- To throw it starts and stops nothing yet. -/
theorem isCapturing_setEnabled {on : Bool} :
    (r.setEnabled on).isCapturing i = r.isCapturing i := rfl

/-- **What an event does to a port.**  It leaves switches and capture alone, or
it leaves a switch off and the port not captured, or it summons the port, and
then the port is captured or its interface could not be opened. -/
def Outcome (r : Registry) (now : Nat) (i : IfIndex) (e : Event) : Prop :=
  (r.summons i e = false ∧ Steady r (r.react now e) i) ∨
    (r.summons i e = false ∧ (r.react now e).admits i = false ∧
      (r.react now e).isCapturing i = false) ∨
    (r.summons i e = true ∧ (r.react now e).admits i = true ∧
      ((r.react now e).isCapturing i = true ∨
        (r.react now e).isCapturing i = false ∧ r.OpenFails i e))

/-- Registering a port throws no switch, and is no summons. -/
theorem outcome_add (port : Port) : r.Outcome now i (.request (.add port)) := by
  refine Or.inl ⟨rfl, ?_⟩
  change Steady r (r.add port).2 i
  cases hs : r.session? port.ifIndex with
  | some s =>
    rw [add_of_session? hs]
    exact .refl r i
  | none =>
    by_cases hi : i = port.ifIndex
    · subst hi
      obtain ⟨hadm, hcap, -⟩ := of_session?_eq_none hs
      constructor
      · rw [hadm, admits, session?_add hs, if_pos rfl]
        rfl
      · rw [hcap, isCapturing, session?_add hs, if_pos rfl]
        rfl
    · refine .of_session? (by rw [add_settings]) ?_
      rw [session?_add hs, if_neg hi]

/-- **A port that is forgotten** is neither admitted nor captured, and others are steady. -/
theorem outcome_remove : r.Outcome now i (.request (.remove j)) := by
  by_cases hi : i = j
  · have hs : (r.remove j).2.session? i = none := by rw [session?_remove, if_pos hi]
    obtain ⟨hadm, hcap, -⟩ := of_session?_eq_none hs
    exact Or.inr (Or.inl ⟨rfl, hadm, hcap⟩)
  · refine Or.inl ⟨rfl, .of_session? ?_ ?_⟩
    · change (r.remove j).2.settings.enabled = _
      rw [remove_settings]
    · change (r.remove j).2.session? i = _
      rw [session?_remove, if_neg hi]

/-- A port that is told to follow one of its own switches, now off, is stopped;
one that it is on, is started; and no other port is touched. -/
theorem outcome_follow (j : IfIndex) (on : Bool) (hw : e.wakes i = (decide (i = j) && on))
    (hreact : r.react now e = (r.switched e).follow j on)
    (hother : i ≠ j → Steady r (r.switched e) i)
    (hcap : (r.switched e).isCapturing i = r.isCapturing i)
    (hon : on = true → r.admits i = true → (r.switched e).admits i = true)
    (hoff : on = false → i = j → (r.switched e).admits i = false) :
    r.Outcome now i e := by
  unfold Outcome summons OpenFails
  rw [hreact, hw]
  by_cases hi : i = j
  · subst hi
    cases on with
    | true =>
      have hafter : ((r.switched e).follow i true).isCapturing i =
          ((r.switched e).isCapturing i || (r.switched e).opens i) := by
        change ((r.switched e).start i).2.isCapturing i = _
        simp [isCapturing_start]
      rcases wake_cases admits_follow hafter hcap (hon rfl) with h | ⟨ha, hadm, h⟩
      · exact Or.inl (by simpa using h)
      · exact Or.inr (Or.inr ⟨by simp [ha], hadm, by simpa using h⟩)
    | false =>
      refine Or.inr (Or.inl ⟨by simp, ?_, ?_⟩)
      · rw [admits_follow]
        exact hoff rfl rfl
      · change ((r.switched e).stop i).2.isCapturing i = _
        simp [isCapturing_stop]
  · refine Or.inl ⟨by simp [hi], (hother hi).trans ?_⟩
    cases on with
    | true => exact ⟨admits_follow, by simp [follow, isCapturing_start, hi]⟩
    | false => exact ⟨admits_follow, by simp [follow, isCapturing_stop, hi]⟩

/-- **A report of a link** starts its port or stops it, and others are steady. -/
theorem outcome_reportLink {state : LinkState} :
    r.Outcome now i (.request (.reportLink j state)) := by
  refine outcome_follow j (state = .up) ?_ reportLink_snd ?_ ?_ ?_ ?_
  · cases state <;> simp [Event.wakes]
  · intro hi
    refine .of_session? ?_ (session?_setLink.trans (if_neg hi))
    rw [switched, setLink_snd, modify_settings]
  · exact isCapturing_setLink
  · intro hon ha
    rw [switched, admits_setLink]
    split_ifs
    · cases hs : r.session? i with
      | none => simp [admits, hs] at ha
      | some s => simp_all [admits]
    · exact ha
  · intro hoff hi
    rw [switched, admits_setLink, if_pos hi]
    cases r.session? i with
    | none => rfl
    | some s => simp [hoff]

/-- **To enable or disable a port** starts or stops it, and others are steady. -/
theorem outcome_portEnable {on : Bool} :
    r.Outcome now i (.request (.apply (.portEnable j on))) := by
  refine outcome_follow j on ?_ apply_portEnable ?_ ?_ ?_ ?_
  · cases on <;> simp [Event.wakes]
  · exact fun hi => .of_session? rfl (session?_setPortEnabled.trans (if_neg hi))
  · exact isCapturing_setPortEnabled
  · intro hon ha
    rw [switched, admits_setPortEnabled]
    split_ifs
    · cases hs : r.session? i with
      | none => simp [admits, hs] at ha
      | some s => simp_all [admits]
    · exact ha
  · intro hoff hi
    rw [switched, admits_setPortEnabled, if_pos hi]
    cases r.session? i with
    | none => rfl
    | some s => simp [hoff]

/-- The switch that all ports share. -/
theorem outcome_globalEnable {on : Bool} :
    r.Outcome now i (.request (.apply (.globalEnable on))) := by
  have hreact : r.react now (.request (.apply (.globalEnable on))) =
      (r.setEnabled on).followAll r.indexes on := rfl
  unfold Outcome summons OpenFails
  rw [hreact]
  cases on with
  | true =>
    have hafter : ((r.setEnabled true).followAll r.indexes true).isCapturing i =
        ((r.setEnabled true).isCapturing i || (r.setEnabled true).opens i) := by
      rw [isCapturing_followAll_on]
      cases ho : (r.setEnabled true).opens i with
      | false => simp
      | true =>
        have hi : i ∈ (r.setEnabled true).indexes := mem_indexes_of_opens ho
        have hmem : i ∈ r.indexes := hi
        simp [hmem]
    have hup : r.admits i = true → (r.setEnabled true).admits i = true := by
      intro ha
      rw [admits_setEnabled]
      cases hs : r.session? i with
      | none => simp [admits, hs] at ha
      | some s => simp_all [admits]
    rcases wake_cases (admits_followAll _) hafter isCapturing_setEnabled hup with h | ⟨ha, hadm, h⟩
    · exact Or.inl (by simpa [Event.wakes, switched] using h)
    · exact Or.inr (Or.inr ⟨by simp [Event.wakes, switched, ha], hadm,
        by simpa [Event.wakes, switched] using h⟩)
  | false =>
    refine Or.inr (Or.inl ⟨rfl, ?_, ?_⟩)
    · rw [admits_followAll, admits_setEnabled]
      cases r.session? i with
      | none => rfl
      | some s => simp
    · rw [isCapturing_followAll_off, isCapturing_setEnabled]
      cases hc : r.isCapturing i with
      | false => rfl
      | true => simp [mem_indexes_of_isCapturing hc]

/-- Other timing starts and stops no port. -/
theorem outcome_timing {interval multiplier : Nat} :
    r.Outcome now i (.request (.apply (.timing interval multiplier))) := by
  refine Or.inl ⟨rfl, ?_⟩
  change Steady r (r.apply (.timing interval multiplier)).2 i
  rcases apply_timing_cases r interval multiplier with ⟨-, h⟩ | ⟨timing, -, -, h⟩
  · rw [h]
    exact .refl r i
  · rw [h]
    exact .of_spares .retime

/-- **Every event that a dispatcher lets happen** does one of the three. -/
theorem outcome_react (r : Registry) (now : Nat) (i : IfIndex) (h : e.isServed = true) :
    r.Outcome now i e := by
  cases e with
  | request q =>
    cases q with
    | add port => exact outcome_add port
    | remove j => exact outcome_remove
    | reportLink j state => exact outcome_reportLink
    | neighbors start count => exact Or.inl ⟨rfl, .refl r i⟩
    | counters j => exact Or.inl ⟨rfl, .refl r i⟩
    | apply change =>
      cases change with
      | globalEnable on => exact outcome_globalEnable
      | portEnable j on => exact outcome_portEnable
      | timing interval multiplier => exact outcome_timing
  | setLink j state => cases h
  | start j => cases h
  | stop j => cases h
  | inbound packet => exact Or.inl ⟨rfl, .of_spares .inbound⟩
  | transmit j => exact Or.inl ⟨rfl, .of_spares .transmit⟩
  | expire key =>
    refine Or.inl ⟨rfl, ?_⟩
    cases ha : r.alarms.dueUnder? now key with
    | none =>
      simp only [react, ha]
      exact .refl r i
    | some a =>
      simp only [react, ha]
      exact .of_spares .expire
  | surround x => exact Or.inl ⟨rfl, .of_spares .surround⟩
  | pass ms => exact Or.inl ⟨rfl, .refl r i⟩

/-! ### A port that is not admitted -/

/-- A port that is not captured neither sends nor hears. -/
theorem idle_of_isCapturing (now : Nat) (h : r.isCapturing i = false) :
    r.handleTransmit i = r ∧
      ∀ packet : Inbound, packet.ifIndex = i → r.handleInbound now packet = r := by
  constructor
  · rcases handleTransmit_cases r i with ⟨-, heq⟩ | ⟨s, c, hs, hc, -⟩
    · exact heq
    · simp [isCapturing, hs, Session.isCapturing, hc] at h
  · rintro packet rfl
    rcases handleInbound_cases r now packet with ⟨-, heq⟩ | ⟨s, hs, hc, -⟩
    · exact heq
    · simp [isCapturing, hs, hc] at h

/-- A port that is not captured does not get to know anybody. -/
theorem neighbor_of_isCapturing (hagree : r.AlarmsAgree) (h : r.isCapturing i = false)
    {v : Receiver} {n : Neighbor} (hv : (r.react now e).receiver? i = some v)
    (hn : v.neighbor = some n) : ∃ u, r.receiver? i = some u ∧ u.neighbor = some n := by
  by_cases ht : r.Touches now i e
  · cases ht with
    | @add port hi hs =>
      have hnew : (r.add port).2.receiver? i = some v := hv
      rw [receiver?, session?_add (hi ▸ hs), if_pos hi.symm] at hnew
      obtain rfl := Option.some.inj hnew
      cases hn
    | remove hs =>
      have hgone : (r.remove i).2.receiver? i = some v := hv
      rw [receiver?, session?_remove, if_pos rfl] at hgone
      cases hgone
    | accept hi ha =>
      obtain ⟨s, hs, hc, -⟩ := accept?_eq_some_iff.1 ha
      simp [isCapturing, ← hi, hs, hc] at h
    | @expire key a hi hdue =>
      subst hi
      simp only [react, hdue, receiver?, expire, session?_handleExpiry, if_true] at hv
      obtain ⟨s, hs, rfl⟩ := Option.map_eq_some_iff.1 hv
      obtain ⟨t, -, rfl⟩ := Option.map_eq_some_iff.1 hs
      cases hn
  · rw [(hagree.untouched ht).1] at hv
    exact ⟨v, hv, hn⟩

end Registry

/-! ### After any course of events -/

namespace Moment

open Registry

variable {i : IfIndex} {events : List Event}

/-- The last event that summoned a port could not open its interface. -/
def LastOpenFailed (m : Moment) (i : IfIndex) (events : List Event) : Prop :=
  ∃ before e rest, events = before ++ e :: rest ∧
    (m.run before).registry.summons i e = true ∧ (m.run before).registry.OpenFails i e ∧
    (m.run (before ++ [e])).Throughout (fun m e => m.registry.summons i e = false) rest

/-- An event that does not summon the port may follow. -/
theorem LastOpenFailed.concat {m : Moment} {e : Event} (h : m.LastOpenFailed i events)
    (he : (m.run events).registry.summons i e = false) : m.LastOpenFailed i (events ++ [e]) := by
  obtain ⟨before, e', rest, rfl, hsum, hfail, hrest⟩ := h
  refine ⟨before, e', rest ++ [e], by simp, hsum, hfail, hrest.concat ?_⟩
  rw [← run_append]
  simpa using he

/-- **A captured port is admitted, and a port that is admitted is captured unless
the last open failed.** -/
theorem gated_run (settings : Settings) (hserved : ∀ e ∈ events, e.isServed = true) :
    let m := (Moment.ofSettings settings).run events
    (m.registry.isCapturing i = true → m.registry.admits i = true) ∧
      (m.registry.admits i = true → m.registry.isCapturing i = false →
        (Moment.ofSettings settings).LastOpenFailed i events) := by
  induction events using List.reverseRecOn with
  | nil => exact ⟨fun h => absurd h Bool.false_ne_true, fun h => absurd h Bool.false_ne_true⟩
  | append_singleton events e ih =>
    obtain ⟨ihcap, ihdark⟩ := ih fun e' he' => hserved e' (List.mem_append_left _ he')
    have he : e.isServed = true := hserved e (by simp)
    simp only [run_append, run_cons, run_nil]
    rcases outcome_react ((Moment.ofSettings settings).run events).registry
        ((Moment.ofSettings settings).run events).now i he with
      ⟨hsum, hadm, hcap⟩ | ⟨-, hadm, hcap⟩ | ⟨hsum, hadm, hopen⟩
    · simp only [Moment.after, hadm, hcap]
      exact ⟨ihcap, fun ha hc => (ihdark ha hc).concat hsum⟩
    · simp only [Moment.after, hadm, hcap]
      exact ⟨fun h => absurd h Bool.false_ne_true, fun h => absurd h Bool.false_ne_true⟩
    · simp only [Moment.after, hadm]
      refine ⟨fun _ => trivial, fun _ hc => ?_⟩
      rcases hopen with hcap | ⟨-, hfail⟩
      · rw [hcap] at hc
        cases hc
      · exact ⟨events, e, [], rfl, hsum, hfail, .nil _⟩

/-- **A port is captured only while it is admitted.**  At every moment of every
course of events that a dispatcher lets happen, whatever interfaces cannot be
opened in the meantime: a captured port is registered, its link is up, it is
enabled and so is the protocol.  A port that is not admitted takes no notice of
packets and of requests to transmit, old ones among them, and no event lets it
know anybody; if a frame goes out on a link, an admitted port was asked to
transmit and sent it through its own capture.  A port that is admitted and not
captured was summoned last by an event whose open failed; where none fails, every
admitted port is captured. -/
theorem captured_only_if_admitted (settings : Settings) (events : List Event)
    (hserved : ∀ e ∈ events, e.isServed = true) (i : IfIndex) :
    let m := (Moment.ofSettings settings).run events
    (m.registry.isCapturing i = true → m.registry.admits i = true) ∧
      (m.registry.admits i = false →
        m.registry.handleTransmit i = m.registry ∧
        (∀ packet : Inbound, packet.ifIndex = i →
          m.registry.handleInbound m.now packet = m.registry) ∧
        ∀ e v n, (m.registry.react m.now e).receiver? i = some v → v.neighbor = some n →
          ∃ u, m.registry.receiver? i = some u ∧ u.neighbor = some n) ∧
      (∀ e link, (∀ x, e ≠ .surround x) →
        (m.registry.react m.now e).backend.sentAt link ≠ m.registry.backend.sentAt link →
        ∃ j s c hd, e = .transmit j ∧ m.registry.admits j = true ∧
          m.registry.session? j = some s ∧ s.capture = some c ∧
          m.registry.backend.handles[c.handle]? = some hd ∧ hd.link = link) ∧
      (m.registry.admits i = true → m.registry.isCapturing i = false →
        (Moment.ofSettings settings).LastOpenFailed i events) ∧
      ((Moment.ofSettings settings).Throughout (fun m e => ∀ j, ¬m.registry.OpenFails j e) events →
        m.registry.admits i = true → m.registry.isCapturing i = true) := by
  intro m
  have hgated : ∀ j, m.registry.isCapturing j = true → m.registry.admits j = true :=
    fun j => (gated_run settings hserved).1
  have hdark := (gated_run (i := i) settings hserved).2
  refine ⟨hgated i, fun hoff => ?_, fun e link hx hsent => ?_, hdark, fun hnone ha => ?_⟩
  · have hidle : m.registry.isCapturing i = false := by
      refine Bool.eq_false_iff.2 fun hc => ?_
      rw [hgated i hc] at hoff
      cases hoff
    obtain ⟨htransmit, hinbound⟩ := idle_of_isCapturing m.now hidle
    refine ⟨htransmit, hinbound, fun e v n hv hn => ?_⟩
    exact neighbor_of_isCapturing (alarmsAgree_run settings events) hidle hv hn
  · obtain ⟨j, s, c, hd, rfl, hs, hc, hhd, hlink, -, -⟩ := exists_of_sentAt_ne hx hsent
    have hcap : m.registry.isCapturing j = true := by
      simp [isCapturing, hs, hc, Session.isCapturing]
    exact ⟨j, s, c, hd, rfl, hgated j hcap, hs, hc, hhd, hlink⟩
  · by_contra hc
    rw [Bool.not_eq_true] at hc
    obtain ⟨before, e, rest, heq, -, hfail, -⟩ := hdark ha hc
    exact hnone before e rest heq i hfail

/-- A port whose interface cannot be opened when its link comes up stays dark. -/
theorem dark_after_failed_open :
    let port : Port := { ifIndex := 1, number := 1, name := "eth0", mac := ⟨2, 0, 0, 0, 0, 1⟩ }
    let events : List Event :=
      [.request (.add port),
        .surround
          { backend := { failingOpens := ["eth0"] }, tasks := [], triggers := .ofCapacity 1024,
            wheel := {}, ticker := fun _ t => t },
        .request (.reportLink 1 .up), .transmit 1]
    let m := (Moment.ofSettings {}).run events
    (∀ e ∈ events, e.isServed = true) ∧ m.registry.admits 1 = true ∧
      m.registry.isCapturing 1 = false ∧ (Moment.ofSettings {}).LastOpenFailed 1 events := by
  intro port events m
  have hserved : ∀ e ∈ events, e.isServed = true := by decide
  have hadmitted : m.registry.admits 1 = true := by decide
  have hdark : m.registry.isCapturing 1 = false := by decide
  exact ⟨hserved, hadmitted, hdark,
    (captured_only_if_admitted {} events hserved 1).2.2.2.1 hadmitted hdark⟩

end Moment
end Lldp
