/-
# What is refused, and what a refusal leaves behind

Some requests change settings or sessions before they come to the step that can fail, some
go through all ports, and one is made of two operations on the registry.  Still there are
five reasons to refuse a request and no other (`Registry.Refuses`), and a request that is
refused has changed nothing, whatever the state (`Service.refusal_changes_nothing`).  The
one exception is a link that comes up: that it is up is true even if its interface cannot
be opened, and it is recorded.

Switching ports on meets the same failure and does not tell: the port stays dark, and the
others follow the switch as if it had not been there (`Registry.isCapturing_globalEnable`).
-/

import Lldp.Proofs.Registry.Captures
import Lldp.Proofs.Registry.Gating
import Lldp.Service

namespace Lldp

/-- The port that a request is about, if it has to be registered. -/
def Request.port? : Request → Option IfIndex
  | .remove i | .reportLink i _ | .counters i | .apply (.portEnable i _) => some i
  | .add _ | .neighbors _ _ | .apply (.globalEnable _) | .apply (.timing _ _) => none

/-- What a client is told to be wrong with its request. -/
def Reply.error? : Reply → Option Error
  | .done (.error e) | .counted (.error e) => some e
  | .done (.ok _) | .counted (.ok _) | .page _ => none

/-- A reply without a value that tells of an error is that error. -/
theorem Reply.of_error? {result : Except Error Unit} {e : Error}
    (h : (Reply.done result).error? = some e) : result = .error e := by
  cases result with
  | ok u => cases h
  | error e' => exact congrArg Except.error (Option.some.inj h)

namespace Registry

/-- **The reasons to refuse a request.** -/
inductive Refuses (r : Registry) : Request → Error → Prop where
  /-- The port that is to be registered is registered. -/
  | taken {port : Port} (h : r.isRegistered port.ifIndex = true) :
      Refuses r (.add port) (.portExists port.name port.ifIndex)
  /-- The port that the request is about is not registered. -/
  | unknown {q : Request} {i : IfIndex} (hq : q.port? = some i) (h : r.isRegistered i = false) :
      Refuses r q (.portNotFound i)
  | zeroInterval (multiplier : Nat) : Refuses r (.apply (.timing 0 multiplier)) .zeroInterval
  | zeroMultiplier {interval : Nat} (h : interval ≠ 0) :
      Refuses r (.apply (.timing interval 0)) .zeroMultiplier
  /-- The link of an enabled port comes up, and its interface cannot be opened. -/
  | unopened {i : IfIndex} {s : Session} (hs : r.session? i = some s)
      (henabled : s.enabled = true) (hglobal : r.settings.enabled = true)
      (hidle : s.isCapturing = false) (hname : s.port.name ∈ r.backend.failingOpens) :
      Refuses r (.reportLink i .up) (.openFailed s.port.name)

variable {r : Registry} {q : Request} {e : Error} {i j : IfIndex} {s : Session} {on : Bool}

/-! ### Results -/

theorem isRegistered_eq_false_iff : r.isRegistered i = false ↔ r.session? i = none := by
  rw [isRegistered, Option.isSome_eq_false_iff, Option.isNone_iff_eq_none]

theorem isRegistered_of_session? (h : r.session? i = some s) : r.isRegistered i = true := by
  rw [isRegistered, h, Option.isSome_some]

/-- A start that is due and cannot open the interface fails. -/
theorem start_of_mem (hs : r.session? i = some s) (hdue : r.isDue s = true)
    (hname : s.port.name ∈ r.backend.failingOpens) :
    r.start i = (.error (.openFailed s.port.name), r) := by
  simp [start, hs, hdue, Loopback.openHandle_of_mem hname]

/-- **A start of a registered port fails for one reason**, and then changes nothing. -/
theorem start_of_error (hs : r.session? i = some s) (h : (r.start i).1 = .error e) :
    (r.start i).2 = r ∧ r.isDue s = true ∧ s.port.name ∈ r.backend.failingOpens ∧
      e = .openFailed s.port.name := by
  cases hdue : r.isDue s with
  | false => simp [start, hs, hdue] at h
  | true =>
    by_cases hname : s.port.name ∈ r.backend.failingOpens
    · rw [start_of_mem hs hdue hname] at h ⊢
      exact ⟨rfl, rfl, hname, (Except.error.inj h).symm⟩
    · obtain ⟨lo', hlo⟩ := Loopback.openHandle_of_notMem
        r.settings.capture.readTimeout Ethernet.captureFilter hname
      simp [start, hs, hdue, hlo] at h

/-- Whatever is asked about a port that is not registered is refused. -/
theorem execute_of_none (hq : q.port? = some i) (h : r.session? i = none) :
    (r.execute q).1.error? = some (.portNotFound i) ∧ (r.execute q).2 = r := by
  cases q with
  | remove k =>
    obtain rfl := Option.some.inj hq
    simp [execute, remove, stop, h, Reply.error?]
  | reportLink k state =>
    obtain rfl := Option.some.inj hq
    simp [execute, reportLink, setLink, h, Reply.error?]
  | counters k =>
    obtain rfl := Option.some.inj hq
    simp [execute, counters, h, Reply.error?]
  | apply change =>
    cases change with
    | portEnable k on =>
      obtain rfl := Option.some.inj hq
      simp [execute, apply, h, Reply.error?]
    | _ => cases hq
  | _ => cases hq

/-- The session of a port whose link has been recorded. -/
theorem session?_setLink_self {state : LinkState} (hs : r.session? i = some s) :
    (r.setLink i state).2.session? i = some { s with link := state } := by
  rw [session?_setLink, if_pos rfl, hs]
  rfl

theorem reportLink_up (hs : r.session? i = some s) :
    r.reportLink i .up = (r.setLink i .up).2.start i := by
  simp [reportLink, setLink, hs]

theorem reportLink_down (hs : r.session? i = some s) :
    r.reportLink i .down = (r.setLink i .down).2.stop i := by
  simp [reportLink, setLink, hs]

theorem fst_stop (hs : r.session? i = some s) : (r.stop i).1 = .ok () := by
  rw [stop, hs]

/-- **Whatever is asked about a port that is registered is done**, unless its link comes
up. -/
theorem error?_of_session? (hq : q.port? = some i) (hs : r.session? i = some s)
    (hup : q ≠ .reportLink i .up) : (r.execute q).1.error? = none := by
  cases q with
  | remove k =>
    obtain rfl := Option.some.inj hq
    simp [execute, remove, stop, hs, Reply.error?]
  | reportLink k state =>
    obtain rfl := Option.some.inj hq
    cases state with
    | up => exact absurd rfl hup
    | down =>
      simp only [execute, reportLink_down hs, fst_stop (session?_setLink_self hs)]
      rfl
  | counters k =>
    obtain rfl := Option.some.inj hq
    simp [execute, counters, hs, Reply.error?]
  | apply change =>
    cases change with
    | portEnable k on =>
      obtain rfl := Option.some.inj hq
      simp [execute, apply, hs, Reply.error?]
    | _ => cases hq
  | _ => cases hq

/-- A port whose link is recorded to be up is due if nothing else stands against it. -/
theorem isDue_setLink_up :
    (r.setLink i .up).2.isDue { s with link := .up } = true ↔
      r.settings.enabled = true ∧ s.enabled = true ∧ s.isCapturing = false := by
  rw [setLink_snd]
  simp [isDue, Session.isCapturing, and_assoc]

/-- **When a link comes up** and its interface cannot be opened, that it is up is recorded
and nothing else. -/
theorem reportLink_up_of_error (hs : r.session? i = some s)
    (h : (r.reportLink i .up).1 = .error e) :
    r.Refuses (.reportLink i .up) e ∧ e = .openFailed s.port.name ∧
      (r.reportLink i .up).2 = (r.setLink i .up).2 := by
  rw [reportLink_up hs] at h ⊢
  obtain ⟨heq, hdue, hname, rfl⟩ := start_of_error (session?_setLink_self hs) h
  obtain ⟨hglobal, henabled, hidle⟩ := isDue_setLink_up.1 hdue
  rw [setLink_snd] at hname
  exact ⟨.unopened (s := s) hs henabled hglobal hidle hname, rfl, heq⟩

/-- Other timing is refused if one of its numbers is zero. -/
theorem refuses_timing {interval multiplier : Nat}
    (h : (r.execute (.apply (.timing interval multiplier))).1.error? = some e) :
    r.Refuses (.apply (.timing interval multiplier)) e ∧ (∀ name, e ≠ .openFailed name) ∧
      (r.execute (.apply (.timing interval multiplier))).2 = r := by
  by_cases hi : interval = 0
  · subst hi
    obtain rfl := Option.some.inj h
    exact ⟨.zeroInterval multiplier, by simp, rfl⟩
  · by_cases hm : multiplier = 0
    · subst hm
      have happly : r.apply (.timing interval 0) = (.error .zeroMultiplier, r) := by
        simp [apply, Timing.ofNumbers, hi]
      obtain rfl : Error.zeroMultiplier = e := by simpa [execute, happly, Reply.error?] using h
      exact ⟨.zeroMultiplier hi, by simp, congrArg Prod.snd happly⟩
    · simp [execute, apply, Timing.ofNumbers, hi, hm, Reply.error?] at h

/-- **Every reason leads to a refusal.** -/
theorem error?_of_refuses (h : r.Refuses q e) : (r.execute q).1.error? = some e := by
  cases h with
  | @taken port h =>
    obtain ⟨s, hs⟩ := Option.isSome_iff_exists.1 h
    simp [execute, add, hs, Reply.error?]
  | unknown hq h => exact (execute_of_none hq (isRegistered_eq_false_iff.1 h)).1
  | zeroInterval multiplier => rfl
  | zeroMultiplier h => simp [execute, apply, Timing.ofNumbers, h, Reply.error?]
  | @unopened i s hs henabled hglobal hidle hname =>
    have hdue := isDue_setLink_up (i := i).2 ⟨hglobal, henabled, hidle⟩
    have hfailing : s.port.name ∈ (r.setLink i .up).2.backend.failingOpens := by
      rw [setLink_snd]
      exact hname
    simp only [execute, reportLink_up hs, start_of_mem (session?_setLink_self hs) hdue hfailing]
    rfl

/-- **Every refusal has one of the reasons**, and leaves the registry as it was, except
that a link that has come up is recorded. -/
theorem refuses_of_error? (h : (r.execute q).1.error? = some e) :
    r.Refuses q e ∧
      ((∀ name, e ≠ .openFailed name) ∧ (r.execute q).2 = r ∨
        ∃ i s, q = .reportLink i .up ∧ r.session? i = some s ∧ e = .openFailed s.port.name ∧
          (r.execute q).2 = (r.setLink i .up).2) := by
  cases hq : q.port? with
  | some i =>
    -- What is asked about a port that is there can be refused in one case only.
    cases hs : r.session? i with
    | none =>
      obtain ⟨he, hsame⟩ := execute_of_none hq hs
      obtain rfl := Option.some.inj (h.symm.trans he)
      exact ⟨.unknown hq (isRegistered_eq_false_iff.2 hs), Or.inl ⟨by simp, hsame⟩⟩
    | some s =>
      by_cases hup : q = .reportLink i .up
      · subst hup
        obtain ⟨hrefuses, he, hafter⟩ := reportLink_up_of_error hs (Reply.of_error? h)
        exact ⟨hrefuses, Or.inr ⟨i, s, rfl, hs, he, hafter⟩⟩
      · rw [error?_of_session? hq hs hup] at h
        cases h
  | none =>
    cases q with
    | add port =>
      cases hs : r.session? port.ifIndex with
      | none => simp [execute, add, hs, Reply.error?] at h
      | some s =>
        have hadd : r.add port = (.error (.portExists port.name port.ifIndex), r) := by
          rw [add, hs]
        obtain rfl : Error.portExists port.name port.ifIndex = e := by
          simpa [execute, hadd, Reply.error?] using h
        exact ⟨.taken (isRegistered_of_session? hs), Or.inl ⟨by simp, congrArg Prod.snd hadd⟩⟩
    | neighbors start count => cases h
    | apply change =>
      cases change with
      | globalEnable on => cases h
      | timing interval multiplier =>
        obtain ⟨hrefuses, hother, hsame⟩ := refuses_timing h
        exact ⟨hrefuses, Or.inl ⟨hother, hsame⟩⟩
      | portEnable i on => cases hq
    | _ => cases hq

/-! ### Failures that are not told -/

/-- A start of a port leaves every other port, and one that it cannot open, as it was. -/
theorem session?_start_of_not (h : j ≠ i ∨ r.opens j = false) :
    (r.start i).2.session? j = r.session? j := by
  rw [session?_start]
  refine if_neg ?_
  rintro ⟨rfl, hopens⟩
  rcases h with hne | hnot
  · exact hne rfl
  · rw [hopens] at hnot
    cases hnot

/-- **A port that cannot be opened stays as it was** when several ports are started. -/
theorem session?_followAll_of_not (is : List IfIndex) (h : r.opens j = false) :
    (r.followAll is true).session? j = r.session? j := by
  induction is generalizing r with
  | nil => rfl
  | cons i is ih =>
    have hrest : (r.start i).2.opens j = false := by rw [opens_start, h, Bool.false_and]
    exact (ih hrest).trans (session?_start_of_not (Or.inr h))

theorem opens_of_canOpen (h : r.canOpen j = false) : r.opens j = false := by
  rw [opens_eq, h, Bool.and_false]

/-- **The protocol is switched on or off as a whole.**  Afterwards those ports are captured
that may be, and were or can be opened, whatever became of the others. -/
theorem isCapturing_globalEnable :
    (r.apply (.globalEnable on)).2.isCapturing j =
      (on && (r.isCapturing j ||
        ((r.apply (.globalEnable on)).2.admits j && r.canOpen j))) := by
  have hcapturing : (r.setEnabled on).isCapturing j = r.isCapturing j := isCapturing_setEnabled
  have hcanOpen : (r.setEnabled on).canOpen j = r.canOpen j := rfl
  rw [apply_globalEnable, admits_followAll]
  cases on with
  | false =>
    rw [isCapturing_followAll_off, hcapturing, Bool.false_and]
    cases hc : r.isCapturing j with
    | false => rfl
    | true => simp [mem_indexes_of_isCapturing hc]
  | true =>
    have hlisted : (decide (j ∈ r.indexes) && (r.setEnabled true).opens j) =
        (r.setEnabled true).opens j := by
      cases hopens : (r.setEnabled true).opens j with
      | false => exact Bool.and_false _
      | true =>
        have hmem : j ∈ (r.setEnabled true).indexes := mem_indexes_of_opens hopens
        exact (Bool.and_true _).trans (decide_eq_true hmem)
    rw [isCapturing_followAll_on, hlisted, hcapturing, opens_eq, hcapturing, hcanOpen]
    cases r.isCapturing j <;> simp

/-- **A port is switched on or off.**  Afterwards it is captured if it may be, and was or
can be opened; the others are as they were. -/
theorem isCapturing_portEnable :
    (r.apply (.portEnable i on)).2.isCapturing i =
        (on && (r.isCapturing i ||
          ((r.apply (.portEnable i on)).2.admits i && r.canOpen i))) ∧
      ∀ j, j ≠ i → (r.apply (.portEnable i on)).2.session? j = r.session? j := by
  have hcapturing : (r.setPortEnabled i on).isCapturing i = r.isCapturing i :=
    isCapturing_setPortEnabled
  have hcanOpen : (r.setPortEnabled i on).canOpen i = r.canOpen i :=
    any_of_ite session?_setPortEnabled fun _ => rfl
  have hother : ∀ j, j ≠ i → (r.setPortEnabled i on).session? j = r.session? j := by
    intro j hj
    rw [session?_setPortEnabled, if_neg hj]
  rw [apply_portEnable, admits_follow]
  cases on with
  | false =>
    refine ⟨?_, fun j hj => ?_⟩
    · show ((r.setPortEnabled i false).stop i).2.isCapturing i = _
      simp [isCapturing_stop]
    · show ((r.setPortEnabled i false).stop i).2.session? j = _
      rw [session?_stop, if_neg hj, hother j hj]
  | true =>
    refine ⟨?_, fun j hj => ?_⟩
    · show ((r.setPortEnabled i true).start i).2.isCapturing i = _
      rw [isCapturing_start, opens_eq, hcapturing, hcanOpen]
      cases r.isCapturing i <;> simp
    · show ((r.setPortEnabled i true).start i).2.session? j = _
      rw [session?_start_of_not (Or.inl hj), hother j hj]

end Registry

namespace Service

/-- **A request that is refused changes nothing**, whatever the state.  It is refused for
one of five reasons and for no other.  Nothing but the client that is told differs after
it, with one exception: where the link of a port comes up and its interface cannot be
opened, that the link is up is recorded, and nothing else.  Switching the protocol on or
off as a whole is never refused, nor is switching a registered port.  A port that cannot
be opened then stays dark, as it was, and does not keep the others from following. -/
theorem refusal_changes_nothing (s : Service) (number : Nat) (q : Request) :
    let r := s.station.registry
    let reply := (r.execute q).1
    let r' := (s.executeNext number q).station.registry
    (∀ e, reply.error? = some e ↔ r.Refuses q e) ∧
      (∀ e, reply.error? = some e → (∀ name, e ≠ .openFailed name) →
        s.executeNext number q = s.setClient number (.answered (.ok reply))) ∧
      (∀ name, reply.error? = some (.openFailed name) →
        ∃ i t, q = .reportLink i .up ∧ r.session? i = some t ∧ t.port.name = name ∧
          s.executeNext number q =
            (s.onRegistry fun r => r.modify i fun t => { t with link := .up }).setClient number
              (.answered (.ok reply))) ∧
      (∀ on, q = .apply (.globalEnable on) → reply.error? = none ∧
        ∀ j, r'.isCapturing j = (on && (r.isCapturing j || (r'.admits j && r.canOpen j))) ∧
          (on = true → r.canOpen j = false → r'.session? j = r.session? j)) ∧
      ∀ i on, q = .apply (.portEnable i on) → r.isRegistered i = true → reply.error? = none ∧
        r'.isCapturing i = (on && (r.isCapturing i || (r'.admits i && r.canOpen i))) ∧
        ∀ j, j ≠ i → r'.session? j = r.session? j := by
  intro r reply r'
  refine ⟨fun e => ⟨fun h => (Registry.refuses_of_error? h).1, Registry.error?_of_refuses⟩,
    fun e h hother => ?_, fun name h => ?_, ?_, ?_⟩
  · obtain ⟨-, ⟨-, hsame⟩ | ⟨i, t, -, -, rfl, -⟩⟩ := Registry.refuses_of_error? h
    · show { s with station := { s.station with registry := (r.execute q).2 } }.setClient number
        (.answered (.ok reply)) = _
      rw [hsame]
    · exact absurd rfl (hother _)
  · obtain ⟨-, ⟨hother, -⟩ | ⟨i, t, rfl, ht, hname, hsame⟩⟩ := Registry.refuses_of_error? h
    · exact absurd rfl (hother name)
    · refine ⟨i, t, rfl, ht, (Error.openFailed.inj hname).symm, ?_⟩
      show { s with station := { s.station with
        registry := (r.execute (.reportLink i .up)).2 } }.setClient number _ = _
      rw [hsame, Registry.setLink_snd]
      rfl
  · rintro on rfl
    refine ⟨rfl, fun j => ⟨Registry.isCapturing_globalEnable, ?_⟩⟩
    rintro rfl hclosed
    exact Registry.session?_followAll_of_not (r := r.setEnabled true) r.indexes
      (Registry.opens_of_canOpen hclosed)
  · rintro i on rfl hregistered
    obtain ⟨t, ht⟩ := Option.isSome_iff_exists.1 hregistered
    exact ⟨Registry.error?_of_session? rfl ht nofun, Registry.isCapturing_portEnable⟩

/-- A service with two ports whose links are up; the interface of the first cannot be
opened. -/
def halfDark : Service :=
  let add (i : IfIndex) (name : String) (s : Service) : Service :=
    s.executeNext operator (.add { ifIndex := i, number := 1, name, mac := Mac.zero })
  let ready := (add 2 "Ethernet4" (add 1 "Ethernet0" (ofSettings {}))).executeNext operator
    (.reportLink 2 .up)
  ready.onRegistry fun r => { r with backend := r.backend.setFailOpen "Ethernet0" true }

/-- The first port is told that its link is up, in vain; switched on, it stays dark and the
second does not. -/
theorem refused_half_dark :
    halfDark.executeNext operator (.reportLink 1 .up) =
        (halfDark.onRegistry fun r => r.modify 1 fun t => { t with link := .up }).setClient
          operator (.answered (.ok (.done (.error (.openFailed "Ethernet0"))))) ∧
      halfDark.executeNext operator (.counters 3) =
        halfDark.setClient operator (.answered (.ok (.counted (.error (.portNotFound 3))))) ∧
      (halfDark.executeNext operator (.apply (.globalEnable true))).station.registry.isCapturing
        2 = true := by
  obtain ⟨-, -, hopen, -⟩ := refusal_changes_nothing halfDark operator (.reportLink 1 .up)
  obtain ⟨-, hsame, -⟩ := refusal_changes_nothing halfDark operator (.counters 3)
  obtain ⟨-, -, -, hglobal, -⟩ :=
    refusal_changes_nothing halfDark operator (.apply (.globalEnable true))
  refine ⟨?_, hsame _ rfl nofun, ?_⟩
  · obtain ⟨i, t, hq, -, -, hafter⟩ := hopen "Ethernet0" (by decide +kernel)
    cases hq
    exact hafter
  · rw [((hglobal true rfl).2 2).1]
    decide +kernel

end Service
end Lldp
