/-
# A port that goes on listening

One operation starts ports or stops them, and never does both.  So captures are either
kept or given up (`Leans`), and a port that is captured before an operation and after it
has the same capture (`Numbered.operate_leans`): to be captured all the time is to have
one capture.

What such a port has heard is counted, whether it was accepted or discarded, and nothing
adds to that but a packet that is handed over for it (`Sound.heard_operate`).  The count is
read off the view of the port, in which each operation is one line.
-/

import Lldp.Proofs.Registry.ViewSteps

namespace Lldp

/-- Packets that a port has been handed while it was captured. -/
def Session.heard (s : Session) : Nat := s.counters.received + s.counters.discarded

/-- The packets that an operation hands over. -/
def Operation.handed : Operation → List Inbound
  | .inbound packet => [packet]
  | _ => []

namespace PortView

variable {v : PortView} {i : IfIndex} {s : Session} {now : Nat} {o : Operation}
  {change : Session → Session}

/-- What has been heard by the port of a view. -/
def heard (v : PortView) : Nat := v.session.elim 0 Session.heard

/-- A port hears nothing by being changed in something else. -/
theorem heard_modify (hs : v.session = some s) (h : (change s).heard = s.heard) :
    (v.modify change).heard = v.heard := by
  rw [heard, modify, hs, Option.map_some, Option.elim_some, h, heard, hs, Option.elim_some]

/-- To be started or stopped is to hear nothing yet. -/
theorem heard_follow (hs : v.session = some s) (on : Bool) : (v.follow on).heard = v.heard := by
  unfold follow start stop
  split_ifs
  · refine heard_modify hs ?_
    split_ifs <;> rfl
  · exact heard_modify hs rfl

/-- **A port that is captured hears what is handed over for it**, and nothing else is counted
so. -/
theorem heard_operate (hs : v.session = some s) (hc : s.isCapturing = true)
    (hthen : (v.operate now o).session.isSome = true) :
    (v.operate now o).heard = v.heard + o.handed.length := by
  have hset : ∀ {v' : PortView}, v'.session.map Session.heard = v.session.map Session.heard →
      ∀ on, (v'.follow on).heard = v.heard := by
    intro v' hsame on
    rw [hs] at hsame
    obtain ⟨s', hs', hheard⟩ := Option.map_eq_some_iff.1 hsame
    rw [heard_follow hs', heard, hs', heard, hs]
    exact hheard
  cases o with
  | request q =>
    cases q with
    | add port =>
      show (v.add port).heard = v.heard
      rw [add, heard, hs, heard, hs]
      rfl
    | remove j => cases hthen
    | reportLink j state =>
      refine hset ?_ _
      rw [setLink, modify, hs]
      rfl
    | neighbors start count => rfl
    | counters j => rfl
    | apply change =>
      cases change with
      | globalEnable on =>
        have hsame : (v.setEnabled on).session.map Session.heard =
            v.session.map Session.heard := rfl
        exact hset hsame on
      | portEnable j on =>
        refine hset ?_ _
        rw [setPortEnabled, modify, hs]
        rfl
      | timing interval multiplier =>
        rw [operate]
        cases Timing.ofNumbers interval multiplier with
        | error e => rfl
        | ok timing =>
          show (v.modify (·.retime timing)).heard = v.heard
          exact heard_modify hs rfl
  | setLink j state => exact heard_modify hs rfl
  | start j => exact heard_follow hs true
  | stop j => exact heard_follow hs false
  | inbound packet =>
    show (v.receive now packet.bytes).heard = v.heard + 1
    unfold receive
    rw [hs, Option.any_some, if_pos hc]
    cases Neighbor.ofPacket packet.bytes with
    | ok n =>
      show ((v.session.map _).elim 0 Session.heard) = _
      rw [heard, hs]
      show s.counters.received + 1 + s.counters.discarded = _
      exact Nat.add_right_comm ..
    | error e =>
      rw [heard, modify, heard, hs]
      rfl
  | transmit j =>
    refine heard_modify hs ?_
    unfold Session.transmit
    dsimp only
    split_ifs <;> rfl
  | fire j =>
    show (v.fire now).heard = v.heard
    unfold fire
    split_ifs
    · show (v.modify Session.forget).heard = v.heard
      refine heard_modify hs ?_
      unfold Session.forget Session.heard
      dsimp only
      split_ifs <;> rfl
    · rfl
  | links use => rfl
  | pass ms => rfl

end PortView

namespace Registry

variable {r r' r'' : Registry} {i j : IfIndex} {c d : Capture} {now : Nat} {o : Operation}
  {up : Bool} {log : List CaptureTask}

/-! ### Captures -/

/-- No capture is given up, if `up`; otherwise none is gained. -/
def Leans (up : Bool) (r r' : Registry) : Prop := ∀ i c,
  if up then r.capture? i = some c → r'.capture? i = some c
  else r'.capture? i = some c → r.capture? i = some c

namespace Leans

/-- Where captures are the same, none is given up and none gained. -/
theorem of_eq (h : ∀ i, r'.capture? i = r.capture? i) : Leans up r r' := by
  intro i c
  rw [h]
  split_ifs <;> exact id

/-- Two operations that lean the same way do so together. -/
theorem trans (h : Leans up r r') (h' : Leans up r' r'') : Leans up r r'' := by
  intro i c
  have hfirst := h i c
  have hthen := h' i c
  split_ifs at hfirst hthen ⊢
  · exact hthen ∘ hfirst
  · exact hfirst ∘ hthen

/-- **Ports are started or stopped.** -/
theorem follow (r : Registry) (i : IfIndex) (on : Bool) : Leans on r (r.follow i on) := by
  intro j c
  cases on with
  | true =>
    show r.capture? j = some c → (r.start i).2.capture? j = some c
    intro hc
    rw [capture?, session?_start]
    split_ifs with hopens
    · obtain ⟨rfl, hopen⟩ := hopens
      obtain ⟨s, hs, hsc⟩ := Option.bind_eq_some_iff.1 hc
      simp [opens, isDue, hs, Session.isCapturing, hsc] at hopen
    · exact hc
  | false =>
    show (r.stop i).2.capture? j = some c → r.capture? j = some c
    rw [capture?_stop]
    split_ifs
    · intro hc
      cases hc
    · exact id

/-- **To start ports** gives up no capture, and to stop them gains none. -/
theorem followAll (is : List IfIndex) (on : Bool) (r : Registry) :
    Leans on r (r.followAll is on) := by
  induction is generalizing r with
  | nil => exact of_eq fun _ => rfl
  | cons i is ih => exact (follow r i on).trans (ih _)

end Leans

/-- An alteration that sets no task off gains no capture. -/
theorem Numbered.leans_of_alters (h : r.Numbered) (a : r.Alters [] r') : Leans false r r' := by
  intro i c hc
  rcases a.capture? hc with hold | hnew
  · exact hold
  · have hle := (h.alters a).agree.le i c (.inl hc)
    rw [a.generations.2] at hle
    exact absurd hnew (Nat.not_lt.2 hle)

/-- **No operation starts ports and stops ports.** -/
theorem Numbered.operate_leans (h : r.Numbered) (now : Nat) (o : Operation) :
    ∃ up, Leans up r (r.operate now o).2 := by
  have hset : ∀ {i} {change : Session → Session} {up}, (∀ s, (change s).port = s.port) →
      (∀ s : Session, s.Keeps (change s)) → Leans up r (r.modify i change) :=
    fun hp hk => .of_eq fun _ => (Keeps.modify hp fun s _ => hk s).capture?
  cases o with
  | request q =>
    cases q with
    | add port => exact ⟨false, h.leans_of_alters .add⟩
    | remove i => exact ⟨false, h.leans_of_alters .remove⟩
    | reportLink i state =>
      have hrecorded : Leans (state = .up) r (r.modify i fun s => { s with link := state }) :=
        hset (fun _ => rfl) fun _ => .of_eq rfl rfl rfl
      refine ⟨state = .up, ?_⟩
      show Leans _ r (r.reportLink i state).2
      rw [reportLink_snd, setLink_snd]
      exact hrecorded.trans (.follow _ i _)
    | neighbors start count => exact ⟨true, .of_eq fun _ => rfl⟩
    | counters i => exact ⟨true, .of_eq fun _ => rfl⟩
    | apply change =>
      cases change with
      | globalEnable on =>
        have hswitched : Leans on r (r.setEnabled on) := .of_eq fun _ => rfl
        exact ⟨on, hswitched.trans (.followAll _ on _)⟩
      | portEnable i on =>
        have hrecorded : Leans on r (r.setPortEnabled i on) :=
          hset (fun _ => rfl) fun _ => .of_eq rfl rfl rfl
        refine ⟨on, ?_⟩
        show Leans on r (r.apply (.portEnable i on)).2
        rw [apply_portEnable]
        exact hrecorded.trans (.follow _ i on)
      | timing interval multiplier =>
        refine ⟨true, ?_⟩
        show Leans true r (r.apply (.timing interval multiplier)).2
        rcases apply_timing_cases r interval multiplier with ⟨-, heq⟩ | ⟨timing, -, -, heq⟩
        · rw [heq]
          exact .of_eq fun _ => rfl
        · rw [heq]
          exact .of_eq fun _ => capture?_retime
  | setLink i state => exact ⟨false, h.leans_of_alters .setLink⟩
  | start i => exact ⟨true, .follow r i true⟩
  | stop i => exact ⟨false, .follow r i false⟩
  | inbound packet => exact ⟨false, h.leans_of_alters .handleInbound⟩
  | transmit i => exact ⟨false, h.leans_of_alters .handleTransmit⟩
  | fire i =>
    refine ⟨false, ?_⟩
    unfold operate
    dsimp only
    cases r.alarms.dueOf? now i with
    | none => exact .of_eq fun _ => rfl
    | some alarm => exact h.leans_of_alters .expire
  | links use => exact ⟨true, .of_eq fun _ => rfl⟩
  | pass ms => exact ⟨true, .of_eq fun _ => rfl⟩

/-- **A port that is captured before and after** has one capture. -/
theorem Leans.eq (h : Leans up r r') (hc : r.capture? i = some c) (hd : r'.capture? i = some d) :
    d = c := by
  cases up with
  | true =>
    have hkept : r'.capture? i = some c := h i c hc
    exact Option.some.inj (hd.symm.trans hkept)
  | false =>
    have hold : r.capture? i = some d := h i d hd
    exact Option.some.inj (hold.symm.trans hc)

/-! ### What is heard -/

/-- The packets that a port has been handed while it was captured. -/
def heard (r : Registry) (i : IfIndex) : Nat := (r.session? i).elim 0 Session.heard

/-- What a port has heard is seen in its view. -/
theorem heard_eq_view : r.heard i = (r.view i).heard := by
  rw [heard, PortView.heard, view]
  cases r.session? i <;> rfl

/-- **A captured port hears the packets that are handed over for it.** -/
theorem Sound.heard_operate (h : r.Sound) (hc : r.isCapturing i = true)
    (hthen : (r.operate now o).2.isRegistered i = true) :
    (r.operate now o).2.heard i =
      r.heard i + (o.handed.filter (·.ifIndex = i)).length := by
  obtain ⟨s, hs, hsc⟩ := (Option.any_eq_true ..).1 hc
  rw [heard_eq_view, heard_eq_view]
  cases ho : o.concerns i with
  | true =>
    have hview : (r.view i).session = some s.unnumbered := by rw [view, hs]; rfl
    have hcapturing : s.unnumbered.isCapturing = true := by
      rw [Session.isCapturing, Session.unnumbered, Option.isSome_map]
      exact hsc
    have hstays : ((r.view i).operate now o).session.isSome = true := by
      rw [← h.view_operate ho, view, Option.isSome_map]
      exact hthen
    have hown : o.handed.filter (·.ifIndex = i) = o.handed := by
      refine List.filter_eq_self.2 fun p hp => ?_
      cases o with
      | inbound packet =>
        rw [List.mem_singleton.1 hp]
        simpa [Operation.concerns, Operation.port?] using ho
      | _ => cases hp
    rw [h.view_operate ho, PortView.heard_operate hview hcapturing hstays, hown]
  | false =>
    have hothers : o.handed.filter (·.ifIndex = i) = [] := by
      refine List.filter_eq_nil_iff.2 fun p hp => ?_
      cases o with
      | inbound packet =>
        rw [List.mem_singleton.1 hp]
        simpa [Operation.concerns, Operation.port?] using ho
      | _ => cases hp
    rw [h.view_operate_of_ne ho, hothers]
    rfl

end Registry
end Lldp
