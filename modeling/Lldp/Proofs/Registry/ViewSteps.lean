/-
# What an operation is to one port

A registry and the view of a port go together.  An operation that concerns the port does
to the view of the registry what it does to the view itself (`Sound.view_operate`), an
operation that names another port does nothing to it (`Sound.view_operate_of_ne`), and the
reply to one that names the port is told by the view (`reply_operate`).

There is one lemma for each operation; those that end in starting or stopping a port share
`Wired.view_follow`.  An operation on all ports comes to each of them once, and what it
does to others on the way is not seen (`Wired.view_followAll`).
-/

import Lldp.Proofs.Registry.View

namespace Lldp
namespace Registry

variable {r r' : Registry} {i j : IfIndex} {s : Session} {now : Nat} {o : Operation} {on : Bool}

/-- **Alterations are seen** by what they do to the session, the alarm and the settings. -/
theorem Wired.view_eq (h : r.Wired) {log : List CaptureTask} (a : r.Alters log r')
    {session : Option Session} (hs : (r'.session? i).map Session.unnumbered = session)
    {deadline : Option Nat} (hd : r'.alarms.deadline? i = deadline) :
    r'.view i =
      { r.view i with session := session, deadline := deadline, settings := r'.settings } := by
  obtain ⟨hopen, hwrite⟩ := h.fails a
  rw [view, hs, hd, hopen, hwrite]
  rfl

theorem view_isDue : (r.view i).isDue s.unnumbered = r.isDue s := by
  unfold PortView.isDue isDue Session.isCapturing Session.unnumbered
  rw [Option.isSome_map]
  rfl

/-- **Starting a port.** -/
theorem Wired.view_start (h : r.Wired) : (r.start i).2.view i = (r.view i).start := by
  have hsession : ((r.start i).2.session? i).map Session.unnumbered =
      (r.view i).start.session := by
    show _ = ((r.session? i).map Session.unnumbered).map _
    rw [session?_start]
    cases hs : r.session? i with
    | none => split_ifs <;> rfl
    | some s =>
      have hopens : r.opens i =
          ((r.view i).isDue s.unnumbered && !(r.view i).failsOpen s.unnumbered.port.name) := by
        rw [view_isDue, opens, hs, Option.any_some, decide_not]
        rfl
      show Option.map _ (if i = i ∧ _ then _ else _) =
        some (if (_ && _) = true then s.unnumbered.start ⟨0, 0⟩ else s.unnumbered)
      rw [← hopens]
      cases r.opens i with
      | true =>
        rw [if_pos ⟨rfl, rfl⟩, if_pos rfl]
        rfl
      | false =>
        rw [if_neg (by simp), if_neg Bool.false_ne_true]
        rfl
  obtain ⟨log, a⟩ := Alters.start r i
  rw [h.view_eq a hsession (congrArg (Expiry.deadline? · i) start_alarms), start_settings]
  rfl

/-- **Stopping it.** -/
theorem Wired.view_stop (h : r.Wired) : (r.stop i).2.view i = (r.view i).stop := by
  have hsession : ((r.stop i).2.session? i).map Session.unnumbered =
      ((r.session? i).map Session.unnumbered).map Session.stop := by
    rw [session?_stop, if_pos rfl, Option.map_map, Option.map_map]
    rfl
  rw [h.view_eq .stop hsession (congrArg (Expiry.deadline? · i) stop_alarms), stop_settings]
  rfl

theorem Wired.view_follow (h : r.Wired) : (r.follow i on).view i = (r.view i).follow on := by
  unfold follow PortView.follow
  split_ifs
  · exact h.view_start
  · exact h.view_stop

theorem follow_of_ne (r : Registry) (on : Bool) (hij : i ≠ j) :
    (r.follow j on).session? i = r.session? i ∧ (r.follow j on).settings = r.settings ∧
      (r.follow j on).alarms = r.alarms := by
  unfold follow
  split_ifs
  · exact ⟨by rw [session?_start, if_neg fun hi => hij hi.1], start_settings, start_alarms⟩
  · exact ⟨by rw [session?_stop, if_neg hij], stop_settings, stop_alarms⟩

/-- **Starting and stopping another port.** -/
theorem Wired.view_follow_of_ne (h : r.Wired) (hij : i ≠ j) :
    (r.follow j on).view i = r.view i := by
  obtain ⟨hsession, hsettings, halarms⟩ := follow_of_ne r on hij
  obtain ⟨log, a⟩ := Alters.follow r j on
  rw [h.view_eq a (congrArg _ hsession) (congrArg (Expiry.deadline? · i) halarms), hsettings]
  rfl

/-- **Going through ports** comes to each of them once. -/
theorem Wired.view_followAll (is : List IfIndex) (hnodup : is.Nodup) :
    ∀ {r : Registry}, r.Wired →
      (r.followAll is on).view i = if i ∈ is then (r.view i).follow on else r.view i := by
  induction is with
  | nil => exact fun _ => rfl
  | cons j is ih =>
    intro r h
    obtain ⟨log, a⟩ := Alters.follow r j on
    have hrest := ih hnodup.of_cons (h.alters a)
    show ((r.follow j on).followAll is on).view i = _
    rw [hrest]
    by_cases hij : i = j
    · subst hij
      rw [if_neg (List.nodup_cons.1 hnodup).1, if_pos List.mem_cons_self, h.view_follow]
    · simp only [h.view_follow_of_ne hij, List.mem_cons, hij, false_or]

/-- One session is changed, alike whatever its numbers. -/
theorem view_modify {change change' : Session → Session} (hp : ∀ s, (change s).port = s.port)
    (hc : ∀ s, r.session? i = some s → (change s).unnumbered = change' s.unnumbered) :
    (r.modify i change).view i = (r.view i).modify change' := by
  have hsession : ((r.modify i change).session? i).map Session.unnumbered =
      ((r.session? i).map Session.unnumbered).map change' := by
    rw [session?_modify hp, if_pos rfl, Option.map_map, Option.map_map]
    cases hs : r.session? i with
    | none => rfl
    | some s => exact congrArg some (hc s hs)
  show PortView.mk _ _ _ _ _ = PortView.mk _ _ _ _ _
  rw [hsession]
  rfl

theorem view_setLink {state : LinkState} :
    (r.setLink i state).2.view i = (r.view i).setLink state := by
  rw [setLink_snd]
  exact view_modify (fun _ => rfl) fun _ _ => rfl

theorem view_setPortEnabled : (r.setPortEnabled i on).view i = (r.view i).setPortEnabled on :=
  view_modify (fun _ => rfl) fun _ _ => rfl

theorem view_setEnabled : (r.setEnabled on).view i = (r.view i).setEnabled on := rfl

theorem view_retime {timing : Timing} : (r.retime timing).view i = (r.view i).retime timing := by
  have hsession : ((r.retime timing).session? i).map Session.unnumbered =
      ((r.session? i).map Session.unnumbered).map (·.retime timing) := by
    rw [session?_retime, Option.map_map, Option.map_map]
    exact congrArg (Option.map · _) (funext fun s => s.unnumbered_retime)
  show PortView.mk _ _ _ _ _ = PortView.mk _ _ _ _ _
  rw [hsession]
  rfl

namespace Sound

/-- **Registering the port.** -/
theorem view_add (h : r.Sound) {port : Port} :
    (r.add port).2.view port.ifIndex = (r.view port.ifIndex).add port := by
  cases hs : r.session? port.ifIndex with
  | some s =>
    rw [add_of_session? hs, PortView.add, view, hs]
    rfl
  | none =>
    have hsession : ((r.add port).2.session? port.ifIndex).map Session.unnumbered =
        some (.ofPort port r.settings.timing) := by
      rw [session?_add hs, if_pos rfl]
      rfl
    rw [h.wired.view_eq .add hsession (congrArg (Expiry.deadline? · _) add_alarms), add_settings,
      PortView.add, view, hs]
    rfl

/-- **Forgetting it.** -/
theorem view_remove (h : r.Sound) : (r.remove i).2.view i = (r.view i).remove := by
  have hsession : ((r.remove i).2.session? i).map Session.unnumbered = none := by
    rw [session?_remove, if_pos rfl]
    rfl
  have hdeadline : (r.remove i).2.alarms.deadline? i = none := by
    refine AlarmsAgree.deadline?_eq_none fun a ha => ?_
    cases hs : r.session? i with
    | some s => exact (((h.alarms.remove hs).2 a).1 ha).2
    | none =>
      rw [remove_of_none hs] at ha
      rintro rfl
      obtain ⟨v, hv, -⟩ := h.alarms.owned a ha
      rw [receiver?, hs] at hv
      cases hv
  rw [h.wired.view_eq .remove hsession hdeadline, remove_settings]
  rfl

/-- **A packet for it.** -/
theorem view_handleInbound (h : r.Sound) {packet : Inbound} :
    (r.handleInbound now packet).view packet.ifIndex =
      (r.view packet.ifIndex).receive now packet.bytes := by
  unfold PortView.receive
  cases hs : r.session? packet.ifIndex with
  | none =>
    rw [handleInbound, hs, view, hs]
    rfl
  | some s =>
    have hcapturing : (r.view packet.ifIndex).session.any Session.isCapturing = s.isCapturing := by
      rw [view, hs]
      exact Option.isSome_map
    rw [hcapturing]
    cases hc : s.isCapturing with
    | false =>
      rw [handleInbound, hs]
      simp [hc]
    | true =>
      rw [if_pos rfl]
      cases hp : Neighbor.ofPacket packet.bytes with
      | error e =>
        have hrefused : r.handleInbound now packet = r.modify packet.ifIndex fun t =>
            { t with
              receiver := s.receiver
              counters := { t.counters with discarded := t.counters.discarded + 1 } } := by
          simp [handleInbound, hs, hc, Receiver.process, hp]
        rw [hrefused]
        refine view_modify (fun _ => rfl) fun t ht => ?_
        obtain rfl := Option.some.inj (hs.symm.trans ht)
        rfl
      | ok n =>
        have ha : r.accept? packet = some n := accept?_eq_some_iff.2 ⟨s, hs, hc, hp⟩
        have hsession : ((r.handleInbound now packet).session? packet.ifIndex).map
            Session.unnumbered = some { s.unnumbered with
              receiver := { neighbor := some n }
              counters := { s.counters with received := s.counters.received + 1 } } := by
          rw [handleInbound_of_accept hs ha]
          simp only [session?_modify, implies_true, if_true]
          show ((r.session? _).map _).map _ = _
          rw [hs]
          simp only [Option.map_some, Session.unnumbered, Receiver.neighbor_refresh]
        have hdeadline : (r.handleInbound now packet).alarms.deadline? packet.ifIndex =
            some (now + n.frame.ttl.toMillis) := by
          obtain ⟨hafter, ⟨v, hv, hn⟩, -, htimes, -⟩ :=
            @AlarmsAgree.accept r now n h.alarms packet ha
          obtain ⟨a, hmem, hi⟩ := hafter.exists_alarm hv hn
          exact hafter.deadline?_eq_some_iff.2 ⟨a, hmem, hi, htimes a hmem hi⟩
        rw [h.wired.view_eq .handleInbound hsession hdeadline, handleInbound_settings,
          PortView.modify, view, hs]
        rfl

/-- **A request to transmit on it.** -/
theorem view_handleTransmit (h : r.Sound) : (r.handleTransmit i).view i = (r.view i).transmit := by
  obtain ⟨starts, horder⟩ := h.ordered
  have hview : ∀ s, r.session? i = some s → (r.view i).session = some s.unnumbered := by
    intro s hs
    rw [view, hs]
    rfl
  rcases handleTransmit_cases r i with ⟨hidle, heq⟩ | ⟨s, c, hs, hc, hcases⟩
  · have hsame : (r.view i).transmit = r.view i := by
      cases hs : r.session? i with
      | none => exact PortView.modify_of_none (by rw [view, hs]; rfl)
      | some s =>
        have hcapturing : s.unnumbered.isCapturing = false := by
          rw [Session.isCapturing, Session.unnumbered, hidle s hs]
          rfl
        rw [PortView.transmit, PortView.modify, hview s hs, Option.map_some, hcapturing,
          if_neg Bool.false_ne_true, ← hview s hs]
    rw [heq, hsame]
  · -- A captured port sends the packet that it has ready, whatever its numbers are.
    have hcapturing : s.unnumbered.isCapturing = true := by
      rw [Session.isCapturing, Session.unnumbered, hc]
      rfl
    have htransmit : s.unnumbered.transmit ((r.view i).failsWrite s.port.name) =
        let made := s.transmitter.current s.port.mac s.port.name
        if made.1.isEmpty then s.unnumbered.countSendFailure made.2
        else if r.backend.failsWrite s.port.name then
          s.unnumbered.countSendFailure made.2.invalidate
        else s.unnumbered.countSent made.2 := rfl
    have hmodify : ∀ {r' : Registry} {change : Session → Session}, r'.view i = r.view i →
        r'.session? i = some s → (∀ s, (change s).port = s.port) →
        (change s).unnumbered = s.unnumbered.transmit ((r.view i).failsWrite s.port.name) →
        (r'.modify i change).view i = (r.view i).transmit := by
      intro r' change hsame hs' hp hchange
      rw [PortView.transmit, ← hsame]
      refine view_modify hp fun t ht => ?_
      obtain rfl := Option.some.inj (hs'.symm.trans ht)
      rw [hcapturing, if_pos rfl, hsame]
      exact hchange
    rcases hcases with ⟨hempty, heq⟩ | ⟨hmade, ⟨e, hw⟩, heq⟩ | ⟨hmade, lo', hw, heq⟩
    · rw [heq]
      refine hmodify rfl hs (fun _ => rfl) ?_
      simp only [htransmit, hempty, List.isEmpty_nil, if_true]
      rfl
    · have hfails : r.backend.failsWrite s.port.name = true := by
        rcases h.wired.write_cases horder hs hc _ with ⟨hfails, -⟩ | ⟨-, lo, hok⟩
        · exact hfails
        · cases hw.symm.trans hok
      rw [heq]
      refine hmodify rfl hs (fun _ => rfl) ?_
      simp only [htransmit, List.isEmpty_iff, hmade, if_false, hfails, if_true]
      rfl
    · have hfails : r.backend.failsWrite s.port.name = false := by
        rcases h.wired.write_cases horder hs hc _ with ⟨-, e, herror⟩ | ⟨hfails, -⟩
        · cases hw.symm.trans herror
        · exact hfails
      have hwritten : { r with backend := lo' }.view i = r.view i := by
        have hkeep : r.Keeps { r with backend := lo' } :=
          ⟨rfl, fun _ s hs => ⟨s, hs, .refl s⟩, rfl, rfl, rfl, rfl, Or.inr ⟨_, _, hw⟩⟩
        exact h.wired.view_eq (.keep hkeep) rfl rfl
      rw [heq]
      refine hmodify hwritten hs (fun _ => rfl) ?_
      simp only [htransmit, List.isEmpty_iff, hmade, hfails, if_false, Bool.false_eq_true]
      rfl

/-- **Its alarm.** -/
theorem view_fire (h : r.Sound) :
    (r.operate now (.fire i)).2.view i = (r.view i).fire now := by
  unfold PortView.fire
  cases hdue : r.alarms.dueOf? now i with
  | none =>
    have hnot : ¬(r.view i).deadline.any (· ≤ now) = true := by
      intro hany
      obtain ⟨deadline, hdeadline, hnow⟩ := (Option.any_eq_true ..).1 hany
      obtain ⟨a, ha, hi, rfl⟩ := h.alarms.deadline?_eq_some_iff.1 hdeadline
      have hnone := List.find?_eq_none.1 hdue a ha
      simp only [hi, decide_eq_true_eq, true_and] at hnone
      exact hnone (of_decide_eq_true hnow)
    rw [if_neg hnot, Registry.operate, hdue]
    rfl
  | some a =>
    have hmem := List.mem_of_find?_eq_some hdue
    obtain ⟨rfl, hnow⟩ : a.ifIndex = i ∧ a.deadline ≤ now := by simpa using List.find?_some hdue
    have hdeadline : (r.view a.ifIndex).deadline = some a.deadline :=
      h.alarms.deadline?_eq_some_iff.2 ⟨a, hmem, rfl, rfl⟩
    have hgone : (r.expire now a).alarms.deadline? a.ifIndex = none :=
      AlarmsAgree.deadline?_eq_none fun b hb => (((h.alarms.expire hmem).2 b).1 hb).2
    have hsession : ((r.expire now a).session? a.ifIndex).map Session.unnumbered =
        ((r.session? a.ifIndex).map Session.unnumbered).map Session.forget := by
      rw [expire, session?_handleExpiry, if_pos rfl, Option.map_map, Option.map_map]
      rfl
    have hsettings : (r.expire now a).settings = r.settings := handleExpiry_frame.1
    rw [hdeadline, Registry.operate, hdue]
    show (r.expire now a).view a.ifIndex = _
    rw [h.wired.view_eq .expire hsession hgone, hsettings]
    simp only [Option.any_some, hnow, decide_true, if_true]
    rfl

/-- **What an operation that concerns a port does to it** is seen from the port alone. -/
theorem view_operate (h : r.Sound) (ho : o.concerns i = true) :
    (r.operate now o).2.view i = (r.view i).operate now o := by
  have hport : ∀ j, o.port? = some j → j = i := by
    intro j hj
    rw [Operation.concerns, hj, Option.all_some, decide_eq_true_eq] at ho
    exact ho
  cases o with
  | request q =>
    cases q with
    | add port =>
      obtain rfl := hport _ rfl
      exact h.view_add
    | remove j =>
      obtain rfl := hport _ rfl
      exact h.view_remove
    | reportLink j state =>
      obtain rfl := hport _ rfl
      show (r.reportLink j state).2.view j = _
      rw [reportLink_snd, (h.wired.alters .setLink).view_follow, view_setLink]
      rfl
    | neighbors start count => rfl
    | counters j => rfl
    | apply change =>
      cases change with
      | globalEnable on =>
        have hall : (r.setEnabled on).Wired := h.wired.alters .setEnabled
        show ((r.setEnabled on).followAll r.indexes on).view i =
          ((r.view i).setEnabled on).follow on
        rw [hall.view_followAll r.indexes h.alarms.distinct, view_setEnabled]
        split_ifs with hi
        · rfl
        · refine (PortView.follow_of_none ?_).symm
          rw [PortView.setEnabled, view, session?_eq_none_iff.2 hi]
          rfl
      | portEnable j on =>
        obtain rfl := hport _ rfl
        have hset : (r.setPortEnabled j on).Wired :=
          h.wired.alters (.keep (.modify (fun _ => rfl) fun s _ => .of_eq rfl rfl rfl))
        show (r.apply (.portEnable j on)).2.view j = _
        rw [apply_portEnable, hset.view_follow, view_setPortEnabled]
        rfl
      | timing interval multiplier =>
        show (r.apply (.timing interval multiplier)).2.view i = _
        unfold apply PortView.operate
        dsimp only
        cases Timing.ofNumbers interval multiplier with
        | error e => rfl
        | ok timing => exact view_retime
  | setLink j state =>
    obtain rfl := hport _ rfl
    exact view_setLink
  | start j =>
    obtain rfl := hport _ rfl
    exact h.wired.view_start
  | stop j =>
    obtain rfl := hport _ rfl
    exact h.wired.view_stop
  | inbound packet =>
    obtain rfl := hport _ rfl
    exact h.view_handleInbound
  | transmit j =>
    obtain rfl := hport _ rfl
    exact h.view_handleTransmit
  | fire j =>
    obtain rfl := hport _ rfl
    exact h.view_fire
  | links use =>
    show PortView.mk _ _ _ (r.backend.use use).failsOpen (r.backend.use use).failsWrite = _
    rw [Loopback.failsOpen_use, h.wired.backend.failsWrite_use]
    rfl
  | pass ms => rfl

end Sound

/-- **An operation that names one port** leaves the sessions of the others and the settings
alone. -/
theorem operate_of_ne (r : Registry) (now : Nat) (ho : o.port? = some j) (hij : i ≠ j) :
    (r.operate now o).2.session? i = r.session? i ∧
      (r.operate now o).2.settings = r.settings := by
  have hfollow : ∀ (r : Registry) on, (r.follow j on).session? i = r.session? i ∧
      (r.follow j on).settings = r.settings := by
    intro r on
    obtain ⟨hsession, hsettings, -⟩ := follow_of_ne r on hij
    exact ⟨hsession, hsettings⟩
  cases o with
  | request q =>
    cases q with
    | add port =>
      obtain rfl := Option.some.inj ho
      refine ⟨?_, add_settings⟩
      show (r.add port).2.session? i = _
      cases hs : r.session? port.ifIndex with
      | some s => rw [add_of_session? hs]
      | none => rw [session?_add hs, if_neg hij]
    | remove k =>
      obtain rfl := Option.some.inj ho
      exact ⟨session?_remove.trans (if_neg hij), remove_settings⟩
    | reportLink k state =>
      obtain rfl := Option.some.inj ho
      obtain ⟨hsession, hsettings⟩ := hfollow (r.setLink k state).2 (state = .up)
      show (r.reportLink k state).2.session? i = _ ∧ (r.reportLink k state).2.settings = _
      rw [reportLink_snd, hsession, hsettings, session?_setLink, if_neg hij, setLink_snd]
      exact ⟨rfl, rfl⟩
    | neighbors start count => cases ho
    | counters k => exact ⟨rfl, rfl⟩
    | apply change =>
      cases change with
      | portEnable k on =>
        obtain rfl := Option.some.inj ho
        obtain ⟨hsession, hsettings⟩ := hfollow (r.setPortEnabled k on) on
        show (r.apply (.portEnable k on)).2.session? i = _ ∧
          (r.apply (.portEnable k on)).2.settings = _
        rw [apply_portEnable, hsession, hsettings, session?_setPortEnabled, if_neg hij]
        exact ⟨rfl, rfl⟩
      | globalEnable on => cases ho
      | timing interval multiplier => cases ho
  | setLink k state =>
    obtain rfl := Option.some.inj ho
    show (r.setLink k state).2.session? i = _ ∧ (r.setLink k state).2.settings = _
    rw [session?_setLink, if_neg hij, setLink_snd]
    exact ⟨rfl, rfl⟩
  | start k =>
    obtain rfl := Option.some.inj ho
    exact hfollow r true
  | stop k =>
    obtain rfl := Option.some.inj ho
    exact hfollow r false
  | inbound packet =>
    obtain rfl := Option.some.inj ho
    obtain ⟨change, -, hsession⟩ := session?_handleInbound r now packet
    exact ⟨(hsession i).trans (if_neg hij), handleInbound_settings⟩
  | transmit k =>
    obtain rfl := Option.some.inj ho
    have hmodify : ∀ (r' : Registry) (change : Session → Session),
        (∀ s, (change s).port = s.port) → (r'.modify k change).session? i = r'.session? i := by
      intro r' change hp
      rw [session?_modify hp, if_neg hij]
    show (r.handleTransmit k).session? i = _ ∧ (r.handleTransmit k).settings = _
    rcases handleTransmit_cases r k with
      ⟨-, heq⟩ | ⟨s, c, -, -, ⟨-, heq⟩ | ⟨-, -, heq⟩ | ⟨-, lo', -, heq⟩⟩
    · rw [heq]
      exact ⟨rfl, rfl⟩
    · rw [heq]
      exact ⟨hmodify _ _ fun _ => rfl, rfl⟩
    · rw [heq]
      exact ⟨hmodify _ _ fun _ => rfl, rfl⟩
    · rw [heq]
      exact ⟨hmodify _ _ fun _ => rfl, rfl⟩
  | fire k =>
    obtain rfl := Option.some.inj ho
    unfold operate
    dsimp only
    cases hdue : r.alarms.dueOf? now k with
    | none => exact ⟨rfl, rfl⟩
    | some a =>
      have hk : a.ifIndex = k ∧ a.deadline ≤ now := by simpa using List.find?_some hdue
      refine ⟨?_, handleExpiry_frame.1⟩
      show (r.expire now a).session? i = _
      rw [expire, session?_handleExpiry, if_neg (hk.1 ▸ hij)]
      rfl
  | links use => cases ho
  | pass ms => cases ho

/-- **An operation that names another port is not seen at all.** -/
theorem Sound.view_operate_of_ne (h : r.Sound) (ho : o.concerns i = false) :
    (r.operate now o).2.view i = r.view i := by
  obtain ⟨j, hj, hij⟩ : ∃ j, o.port? = some j ∧ i ≠ j := by
    rw [Operation.concerns] at ho
    cases hj : o.port? with
    | none => simp [hj] at ho
    | some j =>
      rw [hj, Option.all_some, decide_eq_false_iff_not] at ho
      exact ⟨j, rfl, Ne.symm ho⟩
  obtain ⟨hsession, hsettings⟩ := operate_of_ne r now hj hij
  have hdeadline : (r.operate now o).2.alarms.deadline? i = r.alarms.deadline? i := by
    obtain ⟨e, he, htouch⟩ := h.alarms.operate_eq_react now o
    have huntouched := h.alarms.untouched (htouch i (by rw [hj]; simpa using Ne.symm hij))
    refine h.alarms.deadline?_congr (h.operate now o).alarms fun a ha => ?_
    rw [he]
    exact huntouched.2 a ha
  rcases r.operate_cases now o with ⟨log, a⟩ | ⟨use, rfl, -⟩
  · rw [h.wired.view_eq a (congrArg _ hsession) hdeadline, hsettings]
    rfl
  · cases hj

/-! ### Replies -/

/-- What comes of an operation that needs the port to be registered. -/
theorem view_known : (r.view i).known i =
    match r.session? i with
    | none => .error (.portNotFound i)
    | some _ => .ok () := by
  rw [PortView.known, view]
  cases r.session? i <;> rfl

/-- **What comes of starting a port.** -/
theorem view_opening : (r.view i).opening i = (r.start i).1 := by
  unfold start
  cases hs : r.session? i with
  | none => rw [PortView.opening, view, hs]; rfl
  | some s =>
    have hopening : (r.view i).opening i =
        if r.isDue s && r.backend.failsOpen s.port.name then .error (.openFailed s.port.name)
        else .ok () := by
      have hview : (r.view i).session = some s.unnumbered := by
        rw [view, hs]
        rfl
      rw [PortView.opening, hview, ← view_isDue]
      rfl
    rw [hopening]
    dsimp only
    cases hdue : r.isDue s with
    | false => simp
    | true =>
      by_cases hname : s.port.name ∈ r.backend.failingOpens
      · simp [Loopback.failsOpen, hname, Loopback.openHandle_of_mem hname]
      · obtain ⟨lo', hlo⟩ := Loopback.openHandle_of_notMem
          r.settings.capture.readTimeout Ethernet.captureFilter hname
        simp [Loopback.failsOpen, hname, hlo]

/-- **The reply to an operation that names a port** depends on its view alone. -/
theorem reply_operate (hi : o.port? = some i) : (r.operate now o).1 = (r.view i).reply o := by
  have hsome : (r.view i).session.isSome = (r.session? i).isSome := Option.isSome_map
  cases o with
  | request q =>
    cases q with
    | add port =>
      obtain rfl := Option.some.inj hi
      show some (Reply.done (r.add port).1) = some (.done (if _ then _ else _))
      rw [hsome, add]
      cases r.session? port.ifIndex <;> rfl
    | remove k =>
      obtain rfl := Option.some.inj hi
      show some (Reply.done (r.remove k).1) = some (.done ((r.view k).known k))
      rw [view_known, remove, stop]
      cases r.session? k <;> rfl
    | reportLink k state =>
      obtain rfl := Option.some.inj hi
      show some (Reply.done (r.reportLink k state).1) = some (.done (if _ then _ else _))
      rw [view_known, ← view_setLink, view_opening]
      unfold reportLink setLink
      cases hs : r.session? k with
      | none =>
        cases state
        · rfl
        · simp [start, hs]
      | some s =>
        have hset : (r.modify k fun s => { s with link := state }).session? k =
            some { s with link := state } := by
          have hlink : (r.setLink k state).2.session? k = _ := session?_setLink
          rw [if_pos rfl, hs, setLink_snd] at hlink
          exact hlink
        cases state
        · simp [stop, hset]
        · rfl
    | neighbors start count => cases hi
    | counters k =>
      obtain rfl := Option.some.inj hi
      show some (Reply.counted (r.counters k)) = some (.counted _)
      rw [counters, view]
      cases r.session? k <;> rfl
    | apply change =>
      cases change with
      | portEnable k on =>
        obtain rfl := Option.some.inj hi
        show some (Reply.done (r.apply (.portEnable k on)).1) = some (.done ((r.view k).known k))
        rw [view_known, apply]
        cases r.session? k <;> rfl
      | globalEnable on => cases hi
      | timing interval multiplier => cases hi
  | setLink k state =>
    obtain rfl := Option.some.inj hi
    show some (Reply.done (r.setLink k state).1) = some (.done ((r.view k).known k))
    rw [view_known, setLink]
    cases r.session? k <;> rfl
  | start k =>
    obtain rfl := Option.some.inj hi
    exact congrArg (fun result => some (Reply.done result)) view_opening.symm
  | stop k =>
    obtain rfl := Option.some.inj hi
    show some (Reply.done (r.stop k).1) = some (.done ((r.view k).known k))
    rw [view_known, stop]
    cases r.session? k <;> rfl
  | inbound packet => rfl
  | transmit k => rfl
  | fire k => rfl
  | links use => cases hi
  | pass ms => cases hi

end Registry
end Lldp
