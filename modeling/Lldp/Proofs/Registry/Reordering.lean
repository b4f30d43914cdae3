/-
# Stopping ports in another order

The sessions of a registry are gone through in some order, and nothing says in which.
`Reordered` compares two registries that differ in that order alone.  Changing timing,
switching the protocol off and shutting down are seen to lead from one such pair to another
(`Reordered.retime`, `Reordered.followAll_off`, `Reordered.shutdown`).

For that, what is done to one port is to commute with what is done to another.  Stopping a
port closes a handle, takes the port out of a list and a sender out of a mailbox, and these
commute whatever they are.  An alarm that is cancelled takes a peg off the wheel, which is
then to be turned at another time if the first slot with a peg begins at another: after two
pegs are off it is to be turned when the first slot begins, unless that is when it began
before either was (`Wheel.wake_remove_remove`), and this does not mention their order.
-/

import Lldp.Proofs.Registry.Effects

namespace Lldp

/-! ### Two pegs off the wheel -/

namespace Wheel

variable {w : Wheel} {key key' : Nat}

/-- **The wheel is next to be turned** when the earliest slot with a peg begins. -/
theorem next?_eq_min? (w : Wheel) : w.next? = (w.pegs.map Peg.slotStart).min? := by
  rw [next?, first?]
  cases w.pegs with
  | nil => rfl
  | cons b pegs =>
    rw [List.foldl_cons, List.map_cons, List.min?_cons']
    dsimp only
    induction pegs generalizing b with
    | nil => rfl
    | cons p pegs ih =>
      simp only [List.foldl_cons, List.map_cons]
      split_ifs with hfirst
      · rw [ih, show min b.slotStart p.slotStart = p.slotStart by omega]
      · rw [ih, show min b.slotStart p.slotStart = b.slotStart by omega]

/-- Fewer pegs, a later turn. -/
theorem next?_erase_le (w : Wheel) (key : Nat) {time : Nat} (h : (w.erase key).next? = some time) :
    ∃ sooner, w.next? = some sooner ∧ sooner ≤ time := by
  have hsub : ∀ t ∈ (w.erase key).pegs.map Peg.slotStart, t ∈ w.pegs.map Peg.slotStart := by
    intro t ht
    obtain ⟨p, hp, rfl⟩ := List.mem_map.1 ht
    exact List.mem_map_of_mem (List.mem_filter.1 hp).1
  rw [next?_eq_min?] at h ⊢
  have hmem := hsub time (List.min?_mem h)
  cases hmin : (w.pegs.map Peg.slotStart).min? with
  | none =>
    rw [List.min?_eq_none_iff.1 hmin] at hmem
    cases hmem
  | some sooner => exact ⟨sooner, rfl, (List.min?_eq_some_iff.1 hmin).2 time hmem⟩

/-- Two pegs are taken out in either order. -/
theorem erase_erase (w : Wheel) (key key' : Nat) :
    (w.erase key).erase key' = (w.erase key').erase key := by
  simp only [erase, List.filter_filter, Bool.and_comm]

/-- What is in between two turns that are the same is the same. -/
theorem next?_erase_of_eq (h : ((w.erase key).erase key').next? = w.next?) :
    (w.erase key).next? = w.next? := by
  cases hmid : (w.erase key).next? with
  | none =>
    cases hlast : ((w.erase key).erase key').next? with
    | none => rw [← h, hlast]
    | some time =>
      obtain ⟨sooner, hsooner, -⟩ := next?_erase_le _ _ hlast
      cases hmid.symm.trans hsooner
  | some time =>
    obtain ⟨first, hfirst, hle⟩ := next?_erase_le w key hmid
    obtain ⟨sooner, hsooner, hle'⟩ := next?_erase_le _ _ (h.trans hfirst)
    obtain rfl := Option.some.inj (hmid.symm.trans hsooner)
    rw [hfirst, Nat.le_antisymm hle hle']

/-- **Two pegs off**: the wheel is to be turned anew if its first slot is another one. -/
theorem wake_remove_remove (w : Wheel) (key key' : Nat) :
    ((w.remove key).remove key').wake =
      if ((w.erase key).erase key').next? ≠ w.next? then ((w.erase key).erase key').next?
      else w.wake := by
  show (if ((w.erase key).erase key').next? ≠ (w.erase key).next? then
    ((w.erase key).erase key').next? else
      if (w.erase key).next? ≠ w.next? then (w.erase key).next? else w.wake) = _
  by_cases hlast : ((w.erase key).erase key').next? = (w.erase key).next?
  · simp only [hlast, ne_eq, not_true_eq_false, if_false]
  · rw [if_pos hlast, if_pos fun h => hlast (h.trans (next?_erase_of_eq h).symm)]

/-- **Two pegs may come off the wheel in either order**, also as to when it is next turned. -/
theorem remove_comm (w : Wheel) (key key' : Nat) :
    (w.remove key).remove key' = (w.remove key').remove key := by
  have hwake : ((w.remove key).remove key').wake = ((w.remove key').remove key).wake := by
    rw [wake_remove_remove, wake_remove_remove, erase_erase]
  have hrest : ∀ a b, (w.remove a).remove b =
      { (w.erase a).erase b with wake := ((w.remove a).remove b).wake } := fun _ _ => rfl
  rw [hrest, hrest key', hwake, erase_erase]

end Wheel

/-- **Two alarms may be cancelled in either order.** -/
theorem Expiry.remove_comm (q : Expiry) (key key' : Nat) :
    (q.remove key).remove key' = (q.remove key').remove key := by
  by_cases hkey : key = key'
  · rw [hkey]
  · have hholds : ∀ {a b : Nat}, a ≠ b → (q.remove a).holds b = q.holds b := by
      intro a b hab
      simp only [holds, remove, List.any_filter]
      congr 1
      funext alarm
      by_cases hb : alarm.key = b
      · simp [hb, Ne.symm hab]
      · simp [hb]
    have hmisused : ((q.remove key).remove key').misused =
        ((q.remove key').remove key).misused := by
      show ((q.misused || !q.holds key) || !(q.remove key).holds key') =
        ((q.misused || !q.holds key') || !(q.remove key').holds key)
      rw [hholds hkey, hholds (Ne.symm hkey), Bool.or_right_comm]
    have hrest : ∀ a b, (q.remove a).remove b =
        { alarms := (q.alarms.filter fun x => x.key ≠ a).filter fun x => x.key ≠ b
          fresh := q.fresh
          wheel := (q.wheel.remove a).remove b
          misused := ((q.remove a).remove b).misused } := fun _ _ => rfl
    rw [hrest, hrest key', hmisused, Wheel.remove_comm, List.filter_filter, List.filter_filter]
    simp only [Bool.and_comm]

/-- Two alarms may be cancelled in either order. -/
theorem Receiver.cancel_comm (v v' : Receiver) (q : Expiry) :
    (v'.cancel (v.cancel q).2).2 = (v.cancel (v'.cancel q).2).2 := by
  obtain ⟨n, a⟩ := v
  obtain ⟨n', a'⟩ := v'
  cases a with
  | none => rfl
  | some key =>
    cases a' with
    | none => rfl
    | some key' => exact q.remove_comm key key'

/-- **Two handles may be closed in either order.** -/
theorem Loopback.close_comm (lo : Loopback) (handle handle' : Nat) :
    (lo.close handle).close handle' = (lo.close handle').close handle := by
  have hhandles : ((lo.close handle).close handle').handles =
      ((lo.close handle').close handle).handles := by
    refine List.ext_getElem? fun k => ?_
    simp only [close, List.getElem?_modify]
    cases lo.handles[k]? with
    | none => rfl
    | some hd =>
      simp only [Option.map_eq_map, Option.map_some]
      split_ifs <;> rfl
  exact congrArg (fun handles => { lo with handles }) hhandles

/-- **Two senders may give up in either order.** -/
theorem Mailbox.withdraw_comm {σ α : Type} [DecidableEq σ] (b : Mailbox σ α)
    (sender sender' : σ) :
    (b.withdraw sender).withdraw sender' = (b.withdraw sender').withdraw sender := by
  simp only [withdraw, List.filter_filter, Bool.and_comm]

namespace Registry

variable {r r' : Registry} {i j : IfIndex} {s t : Session} {timing : Timing}

/-! ### One port after another -/

/-- To stop a registered port is to change its session and what is kept of it elsewhere. -/
theorem stop_of_session? (hs : r.session? i = some s) :
    (r.stop i).2 =
      { r with
        sessions := r.sessions.map fun t => if t.port.ifIndex = i then t.stop else t
        backend := s.capture.elim r.backend fun c => r.backend.close c.handle
        upPorts := r.upPorts.filter (· ≠ i)
        triggers := r.triggers.withdraw i } := by
  rw [stop, hs]
  cases hc : s.capture <;> simp only [hc] <;> rfl

/-- To cancel an alarm is to change its port's session and the queue. -/
theorem cancelAlarm_of_session? (hs : r.session? i = some s) :
    r.cancelAlarm i =
      { r with
        sessions := r.sessions.map fun t =>
          if t.port.ifIndex = i then { t with receiver := (s.receiver.cancel r.alarms).1 } else t
        alarms := (s.receiver.cancel r.alarms).2 } := by
  rw [cancelAlarm, hs]
  rfl

/-- A port that is not registered has no alarm to cancel. -/
theorem cancelAlarm_of_none (h : r.session? i = none) : r.cancelAlarm i = r := by
  rw [cancelAlarm, h]

/-- Changes of two sessions commute. -/
theorem map_ite_comm (change change' : Session → Session)
    (hp : ∀ t, (change t).port = t.port) (hp' : ∀ t, (change' t).port = t.port) (hij : i ≠ j)
    (ss : List Session) :
    (ss.map fun t => if t.port.ifIndex = i then change t else t).map
        (fun t => if t.port.ifIndex = j then change' t else t) =
      (ss.map fun t => if t.port.ifIndex = j then change' t else t).map
        fun t => if t.port.ifIndex = i then change t else t := by
  rw [List.map_map, List.map_map]
  refine List.map_congr_left fun t _ => ?_
  simp only [Function.comp]
  by_cases hi : t.port.ifIndex = i
  · have hj : t.port.ifIndex ≠ j := fun h => hij (hi.symm.trans h)
    simp only [hi, hp, if_neg hij, if_true]
  · by_cases hj : t.port.ifIndex = j
    · simp only [hj, hp', if_neg (Ne.symm hij), if_true]
    · simp only [if_neg hi, if_neg hj]

/-- **Two ports may be stopped in either order.** -/
theorem stop_comm (r : Registry) (i j : IfIndex) :
    ((r.stop i).2.stop j).2 = ((r.stop j).2.stop i).2 := by
  by_cases hij : i = j
  · rw [hij]
  have hi : (r.stop j).2.session? i = r.session? i := session?_stop.trans (if_neg hij)
  have hj : (r.stop i).2.session? j = r.session? j := session?_stop.trans (if_neg (Ne.symm hij))
  cases hs : r.session? i with
  | none => rw [stop_of_none hs, stop_of_none (hi.trans hs)]
  | some s =>
    cases ht : r.session? j with
    | none => rw [stop_of_none ht, stop_of_none (hj.trans ht)]
    | some t =>
      have hclose : t.capture.elim (s.capture.elim r.backend fun c => r.backend.close c.handle)
            (fun c => (s.capture.elim r.backend fun c => r.backend.close c.handle).close c.handle) =
          s.capture.elim (t.capture.elim r.backend fun c => r.backend.close c.handle)
            fun c => (t.capture.elim r.backend fun c => r.backend.close c.handle).close c.handle := by
        cases s.capture with
        | none => rfl
        | some c =>
          cases t.capture with
          | none => rfl
          | some d => exact Loopback.close_comm ..
      rw [stop_of_session? (hj.trans ht), stop_of_session? (hi.trans hs), stop_of_session? hs,
        stop_of_session? ht]
      dsimp only
      rw [map_ite_comm Session.stop Session.stop (fun _ => rfl) (fun _ => rfl) hij, hclose,
        Mailbox.withdraw_comm, List.filter_comm]

/-- **So may two alarms be cancelled**, -/
theorem cancelAlarm_comm (r : Registry) (i j : IfIndex) :
    (r.cancelAlarm i).cancelAlarm j = (r.cancelAlarm j).cancelAlarm i := by
  by_cases hij : i = j
  · rw [hij]
  have hi : (r.cancelAlarm j).session? i = r.session? i :=
    session?_cancelAlarm.trans (if_neg hij)
  have hj : (r.cancelAlarm i).session? j = r.session? j :=
    session?_cancelAlarm.trans (if_neg (Ne.symm hij))
  cases hs : r.session? i with
  | none => rw [cancelAlarm_of_none hs, cancelAlarm_of_none (hi.trans hs)]
  | some s =>
    cases ht : r.session? j with
    | none => rw [cancelAlarm_of_none ht, cancelAlarm_of_none (hj.trans ht)]
    | some t =>
      rw [cancelAlarm_of_session? (hj.trans ht), cancelAlarm_of_session? (hi.trans hs),
        cancelAlarm_of_session? hs, cancelAlarm_of_session? ht]
      dsimp only
      simp only [Receiver.cancel_fst, Receiver.cancel_comm t.receiver]
      rw [map_ite_comm (fun u => { u with receiver := { s.receiver with alarm := none } })
        (fun u => { u with receiver := { t.receiver with alarm := none } })
        (fun _ => rfl) (fun _ => rfl) hij]

/-- **and a port be stopped** before or after the alarm of another is cancelled. -/
theorem stop_cancelAlarm_comm (r : Registry) (hij : i ≠ j) :
    (r.stop i).2.cancelAlarm j = ((r.cancelAlarm j).stop i).2 := by
  have hi : (r.cancelAlarm j).session? i = r.session? i :=
    session?_cancelAlarm.trans (if_neg hij)
  have hj : (r.stop i).2.session? j = r.session? j := session?_stop.trans (if_neg (Ne.symm hij))
  cases hs : r.session? i with
  | none => rw [stop_of_none hs, stop_of_none (hi.trans hs)]
  | some s =>
    cases ht : r.session? j with
    | none => rw [cancelAlarm_of_none ht, cancelAlarm_of_none (hj.trans ht)]
    | some t =>
      rw [cancelAlarm_of_session? (hj.trans ht), stop_of_session? (hi.trans hs),
        stop_of_session? hs, cancelAlarm_of_session? ht]
      dsimp only
      rw [map_ite_comm Session.stop
        (fun u => { u with receiver := (t.receiver.cancel r.alarms).1 })
        (fun _ => rfl) (fun _ => rfl) hij]

/-! ### Another order -/

/-- The same but for the order in which the sessions are gone through. -/
structure Reordered (r r' : Registry) : Prop where
  sessions : r.sessions.Perm r'.sessions
  rest : r' = { r with sessions := r'.sessions }

namespace Reordered

/-- Sessions may stand in another order. -/
theorem of_perm {ss : List Session} (h : r.sessions.Perm ss) :
    Reordered r { r with sessions := ss } :=
  ⟨h, rfl⟩

/-- The same indexes are registered. -/
theorem indexes (h : Reordered r r') : r.indexes.Perm r'.indexes := h.sessions.map _

/-- Indexes that never repeat do not in another order. -/
theorem distinct (h : Reordered r r') (hd : r.Distinct) : r'.Distinct :=
  h.indexes.nodup_iff.1 hd

/-- **A port is found in any order.** -/
theorem session? (h : Reordered r r') (hd : r.Distinct) (i : IfIndex) :
    r'.session? i = r.session? i := by
  cases hs : r.session? i with
  | some s =>
    have hmem := h.sessions.mem_iff.1 (mem_of_session? hs)
    rw [← ifIndex_of_session? hs]
    exact session?_of_mem (h.distinct hd) hmem
  | none =>
    rw [session?_eq_none_iff] at hs ⊢
    exact fun hi => hs (h.indexes.mem_iff.2 hi)

/-- **To stop a port** does not depend on the order. -/
theorem stop (h : Reordered r r') (hd : r.Distinct) (i : IfIndex) :
    Reordered (r.stop i).2 (r'.stop i).2 := by
  have hs' := h.session? hd i
  cases hs : r.session? i with
  | none =>
    rw [stop_of_none hs, stop_of_none (hs'.trans hs)]
    exact h
  | some s =>
    rw [stop_of_session? hs, stop_of_session? (hs'.trans hs)]
    refine ⟨h.sessions.map _, ?_⟩
    rw [h.rest]

/-- Nor does it to cancel its alarm. -/
theorem cancelAlarm (h : Reordered r r') (hd : r.Distinct) (i : IfIndex) :
    Reordered (r.cancelAlarm i) (r'.cancelAlarm i) := by
  have hs' := h.session? hd i
  cases hs : r.session? i with
  | none =>
    rw [cancelAlarm_of_none hs, cancelAlarm_of_none (hs'.trans hs)]
    exact h
  | some s =>
    rw [cancelAlarm_of_session? hs, cancelAlarm_of_session? (hs'.trans hs)]
    have halarms : r'.alarms = r.alarms := by rw [h.rest]
    rw [halarms]
    refine ⟨h.sessions.map _, ?_⟩
    rw [h.rest]

/-- **Timing is changed** in any order alike. -/
theorem retime (h : Reordered r r') (hd : r.Distinct) (timing : Timing) :
    Reordered (r.retime timing) (r'.retime timing) := by
  have hs : r'.session? = r.session? := funext (h.session? hd)
  refine ⟨h.sessions.map _, ?_⟩
  unfold Registry.retime
  rw [hs, h.rest]

/-- What is done to one port after another, each step of which does not mind the order. -/
theorem foldl {step : Registry → IfIndex → Registry}
    (hstep : ∀ {r r' : Registry}, Reordered r r' → r.Distinct → ∀ i, Reordered (step r i) (step r' i))
    (hdistinct : ∀ r i, (step r i).indexes = r.indexes) (is : List IfIndex) :
    ∀ {r r' : Registry}, Reordered r r' → r.Distinct →
      Reordered (is.foldl step r) (is.foldl step r') := by
  induction is with
  | nil => exact fun h _ => h
  | cons i is ih =>
    intro r r' h hd
    refine ih (hstep h hd i) ?_
    rw [Distinct, hdistinct]
    exact hd

/-- **All ports are stopped** in any order alike. -/
theorem followAll_off (h : Reordered r r') (hd : r.Distinct) :
    Reordered (r.followAll r.indexes false) (r'.followAll r'.indexes false) := by
  have hsame : r'.followAll r.indexes false = r'.followAll r'.indexes false :=
    h.indexes.foldl_eq' (fun i _ j _ q => q.stop_comm i j) r'
  rw [← hsame]
  exact foldl (fun h hd i => h.stop hd i) (fun q i => q.stop_indexes) r.indexes h hd

/-- **Shutting down** is the same in any order. -/
theorem shutdown (h : Reordered r r') (hd : r.Distinct) : Reordered r.shutdown r'.shutdown := by
  have hcomm : ∀ (q : Registry) (i j : IfIndex),
      (((q.stop i).2.cancelAlarm i).stop j).2.cancelAlarm j =
        (((q.stop j).2.cancelAlarm j).stop i).2.cancelAlarm i := by
    intro q i j
    by_cases hij : i = j
    · rw [hij]
    · rw [← stop_cancelAlarm_comm _ (Ne.symm hij), stop_comm, cancelAlarm_comm,
        stop_cancelAlarm_comm _ hij]
  have hsame : r.indexes.foldl (fun q i => (q.stop i).2.cancelAlarm i) r' = r'.shutdown :=
    h.indexes.foldl_eq' (fun i _ j _ q => hcomm q i j) r'
  rw [← hsame]
  refine foldl (fun h hd i => (h.stop hd i).cancelAlarm ?_ i) (fun q i => ?_) r.indexes h hd
  · rw [Distinct, stop_indexes]
    exact hd
  · rw [indexes_cancelAlarm, stop_indexes]

end Reordered

end Registry
end Lldp
