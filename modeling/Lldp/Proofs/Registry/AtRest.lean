/-
# A registry at rest

To shut a registry down is to stop its ports and cancel their alarms, one port after
another (`Registry.retire`).  What is at rest afterwards is more than these ports: the
list of captured ports, the queue of alarms, the tickers that wait for room and the handles
are kept elsewhere, and they are empty or closed only because nothing was in them but what
belonged to a port (`Registry.InOrder`, `Registry.KeysKept`, `Registry.TickersAgree`).  So
`atRest_shutdown` asks for all three.

What the ports were told and have counted is left as it was (`sessions_shutdown`).

A registry at rest stays as it is when it is shut down again, and when it is given a
packet, a request to transmit or time for its alarms (`AtRest.shutdown`,
`AtRest.handleInbound`, `AtRest.handleTransmit`, `AtRest.fire`).
-/

import Lldp.Proofs.Registry.Alarms
import Lldp.Proofs.Registry.Order
import Lldp.Proofs.Registry.Prompting
import Lldp.Proofs.Registry.Remembering
import Lldp.Proofs.Registry.Reordering

namespace Lldp

/-- A handle that is closed, whether or not it was. -/
def Handle.shut (hd : Handle) : Handle := { hd with closed := true }

/-- Closing a handle makes no difference to handles all of which are closed after all. -/
theorem Loopback.map_shut_close {lo : Loopback} {handle : Nat} :
    (lo.close handle).handles.map Handle.shut = lo.handles.map Handle.shut := by
  refine List.ext_getElem? fun k => ?_
  simp only [close, List.getElem?_map, List.getElem?_modify]
  cases lo.handles[k]? with
  | none => rfl
  | some hd =>
    simp only [Option.map_eq_map, Option.map_some]
    split_ifs <;> rfl

namespace Session

/-- The session of a port that is not captured, has nothing running and nothing ready,
and waits for no alarm.  What it was told and has counted is as it was. -/
def rest (s : Session) : Session :=
  { s with
    capture := none
    receiver := { s.receiver with alarm := none }
    transmitter := { s.transmitter with ticker := none, cached := none } }

/-- A session that is at rest stays as it is. -/
theorem rest_rest (s : Session) : s.rest.rest = s.rest := rfl

end Session

namespace Registry

variable {r r' : Registry} {i j : IfIndex} {s : Session} {starts : List IfIndex} {now : Nat}

/-! ### One port -/

/-- A port is stopped and its alarm cancelled. -/
def retire (r : Registry) (i : IfIndex) : Registry := ((r.stop i).2).cancelAlarm i

/-- To shut down is to retire one port after another. -/
theorem shutdown_eq (r : Registry) : r.shutdown = r.indexes.foldl retire r := rfl

/-- **A port that is retired** is at rest, and no other is touched. -/
theorem session?_retire :
    (r.retire i).session? j = if j = i then (r.session? j).map Session.rest else r.session? j := by
  rw [retire, session?_cancelAlarm, session?_stop]
  split_ifs
  · rw [Option.map_map]
    rfl
  · rfl

/-- It has no key any more. -/
theorem key?_retire : (r.retire i).key? j = if j = i then none else r.key? j := by
  rw [key?, memory?, session?_retire]
  split_ifs
  · cases r.session? j <;> rfl
  · rfl

/-- Its alarm is taken out of the queue. -/
theorem alarms_retire (hs : r.session? i = some s) :
    (r.retire i).alarms = (s.receiver.cancel r.alarms).2 := by
  have hstopped : (r.stop i).2.session? i = some s.stop := by
    rw [session?_stop, if_pos rfl, hs, Option.map_some]
  rw [retire, cancelAlarm_alarms hstopped, stop_alarms]
  rfl

/-! ### All ports -/

/-- **The sessions of ports that were retired** are at rest, and no other is touched. -/
theorem session?_foldl_retire (is : List IfIndex) (r : Registry) :
    (is.foldl retire r).session? j =
      if j ∈ is then (r.session? j).map Session.rest else r.session? j := by
  induction is generalizing r with
  | nil => rfl
  | cons i is ih =>
    rw [List.foldl_cons, ih, session?_retire]
    by_cases hi : j = i
    · rw [if_pos hi, if_pos (List.mem_cons.2 (Or.inl hi)), Option.map_map]
      split_ifs <;> rfl
    · simp only [hi, if_false, List.mem_cons, false_or]

/-- **The session of every port is at rest** after the registry was shut down. -/
theorem session?_shutdown : r.shutdown.session? j = (r.session? j).map Session.rest := by
  rw [shutdown_eq, session?_foldl_retire]
  split_ifs with hj
  · rfl
  · rw [session?_eq_none_iff.2 hj, Option.map_none]

/-- To shut down forgets no port. -/
theorem indexes_shutdown : r.shutdown.indexes = r.indexes :=
  @rel_shutdown (fun q q' => q'.indexes = q.indexes) (fun _ => rfl)
    (fun _ _ _ h h' => h'.trans h) (fun _ _ => stop_indexes) (fun _ _ => indexes_cancelAlarm) r

/-- Nor does it change settings. -/
theorem settings_shutdown : r.shutdown.settings = r.settings :=
  @rel_shutdown (fun q q' => q'.settings = q.settings) (fun _ => rfl)
    (fun _ _ _ h h' => h'.trans h) (fun _ _ => stop_settings) (fun _ _ => cancelAlarm_frame.1) r

/-- To shut down sets no task off and ends none. -/
theorem tasks_shutdown : r.shutdown.tasks = r.tasks := by
  rw [(Alters.shutdown (r := r)).tasks, List.append_nil]

/-- To shut down does nothing to links: reads that queue keep their places. -/
theorem links_shutdown : r.shutdown.backend.links = r.backend.links :=
  @rel_shutdown (fun q q' => q'.backend.links = q.backend.links) (fun _ => rfl)
    (fun _ _ _ h h' => h'.trans h) (fun _ _ => stop_links)
    (fun _ _ => by rw [cancelAlarm_frame.2]) r

/-- Nor is anything written. -/
theorem sentAt_shutdown {link : Nat} :
    r.shutdown.backend.sentAt link = r.backend.sentAt link := by
  rw [Loopback.sentAt, links_shutdown, Loopback.sentAt]

/-- To stop a port opens no handle. -/
theorem map_shut_stop :
    (r.stop i).2.backend.handles.map Handle.shut = r.backend.handles.map Handle.shut := by
  cases hs : r.session? i with
  | none => rw [stop_of_none hs]
  | some s =>
    rw [stop_of_session? hs]
    cases s.capture with
    | none => rfl
    | some c => exact Loopback.map_shut_close

/-- Whatever handles there were are there still, but for being closed. -/
def HandlesKept (r r' : Registry) : Prop :=
  r.backend.handles.map Handle.shut <+: r'.backend.handles.map Handle.shut

/-- Where handles are the same, they are kept. -/
theorem HandlesKept.of_handles (h : r'.backend.handles = r.backend.handles) :
    HandlesKept r r' :=
  ⟨[], by rw [h, List.append_nil]⟩

/-- Handles that are kept twice are kept. -/
theorem HandlesKept.trans {r'' : Registry} (h : HandlesKept r r') (h' : HandlesKept r' r'') :
    HandlesKept r r'' :=
  List.IsPrefix.trans h h'

/-- A handle keeps its number. -/
theorem HandlesKept.getElem? {k : Nat} {hd : Handle} (h : HandlesKept r r')
    (hk : r.backend.handles[k]? = some hd) :
    (r'.backend.handles.map Handle.shut)[k]? = some hd.shut := by
  obtain ⟨more, heq⟩ := h
  have hlt : k < r.backend.handles.length := (List.getElem?_eq_some_iff.1 hk).1
  rw [← heq, List.getElem?_append_left (by rwa [List.length_map]), List.getElem?_map, hk]
  rfl

/-- **No alteration gives a handle up.** -/
theorem Alters.handlesKept {log : List CaptureTask} (a : Alters r log r') : HandlesKept r r' := by
  induction a with
  | keep k =>
    rcases k.backend with hb | ⟨handle, bytes, hb⟩
    · exact .of_handles (congrArg Loopback.handles hb)
    · exact .of_handles (Loopback.handles_of_write hb)
  | @opened r i s lo' hs hdue hopen =>
    obtain ⟨-, link, hhandles⟩ := Loopback.handles_of_openHandle hopen
    show r.backend.handles.map Handle.shut <+: lo'.handles.map Handle.shut
    rw [hhandles, List.map_append]
    exact List.prefix_append _ _
  | stopped hs => exact ⟨[], by rw [map_shut_stop, List.append_nil]⟩
  | @added r port hs =>
    refine .of_handles ?_
    rw [Registry.add]
    split <;> rfl
  | dropped hs hc => exact .of_handles rfl
  | retimed timing => exact .of_handles rfl
  | trans h h' ih ih' => exact ih.trans ih'

/-- Sessions are known by their indexes and what is found under these. -/
theorem sessions_eq_of_session? (h : r.Distinct) (hi : r'.indexes = r.indexes)
    (hs : ∀ j, r'.session? j = r.session? j) : r'.sessions = r.sessions := by
  have h' : r'.Distinct := by rwa [Distinct, hi]
  have hlength : r'.sessions.length = r.sessions.length := by
    have := congrArg List.length hi
    rwa [indexes, indexes, List.length_map, List.length_map] at this
  refine List.ext_getElem hlength fun k hk' hk => ?_
  have hsame : r'.sessions[k].port.ifIndex = r.sessions[k].port.ifIndex := by
    have := congrArg (·[k]?) hi
    simpa [indexes, hk, hk'] using this
  have hfound := session?_of_mem h (List.getElem_mem hk)
  have hfound' := session?_of_mem h' (List.getElem_mem hk')
  rw [hsame, hs, hfound] at hfound'
  exact (Option.some.inj hfound').symm

/-- **What ports keep when they are shut down**: everything but their capture, ticker,
packet and alarm. -/
theorem sessions_shutdown (h : r.Distinct) : r.shutdown.sessions = r.sessions.map Session.rest := by
  have hindexes : { r with sessions := r.sessions.map Session.rest }.indexes = r.indexes := by
    simp only [indexes, List.map_map]
    rfl
  have hdistinct : { r with sessions := r.sessions.map Session.rest }.Distinct := by
    rwa [Distinct, hindexes]
  refine sessions_eq_of_session? (r := { r with sessions := r.sessions.map Session.rest })
    hdistinct (indexes_shutdown.trans hindexes.symm) fun j => ?_
  exact session?_shutdown.trans
    (@find?_map_session j Session.rest (fun _ => rfl) r.sessions).symm

/-! ### What is kept elsewhere -/

/-- Every alarm belongs to the port it is set for, every key to an alarm, and no key to two
ports; and so it was whenever an alarm was moved or cancelled. -/
structure KeysKept (r : Registry) : Prop where
  used : r.alarms.misused = false
  live : ∀ i key, r.key? i = some key → r.alarms.holds key = true
  owned : ∀ a ∈ r.alarms.alarms, r.key? a.ifIndex = some a.key
  apart : ∀ i j key, r.key? i = some key → r.key? j = some key → i = j

/-- A key is that of a port's receiver. -/
theorem receiver?_of_key? {key : Nat} (h : r.key? i = some key) :
    ∃ v, r.receiver? i = some v ∧ v.alarm = some key := by
  rw [key?, memory?] at h
  cases hs : r.session? i with
  | none =>
    rw [hs] at h
    cases h
  | some s =>
    rw [hs] at h
    exact ⟨s.receiver, receiver?_of_session? hs, h⟩

/-- It is the one that the receiver knows of. -/
theorem key?_of_receiver? {v : Receiver} (h : r.receiver? i = some v) : r.key? i = v.alarm := by
  obtain ⟨s, hs, rfl⟩ := Option.map_eq_some_iff.1 h
  rw [key?, memory?, hs]
  rfl

/-- Where alarms agree with ports, keys are kept. -/
theorem AlarmsAgree.keysKept (h : r.AlarmsAgree) : r.KeysKept where
  used := h.used
  live i key hkey := by
    obtain ⟨v, hv, hk⟩ := receiver?_of_key? hkey
    obtain ⟨a, ha, hak, -⟩ := h.live i v key hv hk
    exact Expiry.holds_iff.2 ⟨a, ha, hak⟩
  owned a ha := by
    obtain ⟨v, hv, hk⟩ := h.owned a ha
    rw [key?_of_receiver? hv, hk]
  apart i j key hi hj := by
    obtain ⟨v, hv, hk⟩ := receiver?_of_key? hi
    obtain ⟨w, hw, hk'⟩ := receiver?_of_key? hj
    obtain ⟨a, ha, hak, rfl⟩ := h.live i v key hv hk
    obtain ⟨b, hb, hbk, rfl⟩ := h.live j w key hw hk'
    rw [h.eq_of_key ha hb (hak.trans hbk.symm)]

/-- **A port that is retired takes its alarm along**, and no other. -/
theorem KeysKept.retire (h : r.KeysKept) (i : IfIndex) : (r.retire i).KeysKept := by
  cases hs : r.session? i with
  | none =>
    have hsame : r.retire i = r := by rw [Registry.retire, stop_of_none hs, cancelAlarm_of_none hs]
    rw [hsame]
    exact h
  | some s =>
    have hown : r.key? i = s.receiver.alarm := key?_of_receiver? (receiver?_of_session? hs)
    have halarms := alarms_retire hs
    cases hk : s.receiver.alarm with
    | none =>
      have hkey : ∀ j, (r.retire i).key? j = r.key? j := by
        intro j
        rw [key?_retire]
        split_ifs with hj
        · rw [hj, hown, hk]
        · rfl
      simp only [Receiver.cancel, hk] at halarms
      exact {
        used := by rw [halarms]; exact h.used
        live := fun j key hj => by rw [halarms]; exact h.live j key (hkey j ▸ hj)
        owned := fun a ha => by rw [hkey]; exact h.owned a (halarms ▸ ha)
        apart := fun j k key hj hj' => h.apart j k key (hkey j ▸ hj) (hkey k ▸ hj') }
    | some key =>
      rw [hk] at hown
      simp only [Receiver.cancel, hk] at halarms
      exact {
        used := by
          rw [halarms]
          simp [Expiry.remove, h.used, h.live i key hown]
        live := fun j other hj => by
          rw [key?_retire] at hj
          split_ifs at hj with hji
          obtain ⟨a, ha, hak⟩ := Expiry.holds_iff.1 (h.live j other hj)
          have hne : a.key ≠ key := fun hsame =>
            hji (h.apart j i key (by rw [hj, ← hak, hsame]) hown)
          rw [halarms]
          exact Expiry.holds_iff.2 ⟨a, Expiry.mem_remove.2 ⟨ha, hne⟩, hak⟩
        owned := fun a ha => by
          rw [halarms] at ha
          obtain ⟨ha, hne⟩ := Expiry.mem_remove.1 ha
          have hkey := h.owned a ha
          rw [key?_retire, if_neg fun hai => hne ?_]
          · exact hkey
          · rw [hai, hown] at hkey
            exact (Option.some.inj hkey).symm
        apart := fun j k other hj hk' => by
          rw [key?_retire] at hj hk'
          split_ifs at hj hk'
          exact h.apart j k other hj hk' }

/-- Keys are still kept when everything has been shut down. -/
theorem KeysKept.shutdown (h : r.KeysKept) : r.shutdown.KeysKept := by
  rw [shutdown_eq]
  generalize r.indexes = is
  induction is generalizing r with
  | nil => exact h
  | cons i is ih => exact ih (h.retire i)

/-- **No alarm is left**, since none was set but for a port. -/
theorem KeysKept.alarms_shutdown (h : r.KeysKept) : r.shutdown.alarms.alarms = [] := by
  refine List.eq_nil_iff_forall_not_mem.2 fun a ha => ?_
  have hkey := h.shutdown.owned a ha
  rw [key?, memory?, session?_shutdown] at hkey
  cases hs : r.session? a.ifIndex with
  | none =>
    rw [hs] at hkey
    cases hkey
  | some s =>
    rw [hs] at hkey
    cases hkey

/-- **No ticker waits for room**, since none did but that of a port. -/
theorem TickersAgree.waiting_shutdown (h : r.TickersAgree) : r.shutdown.triggers.waiting = [] := by
  have hthen : r.shutdown.TickersAgree :=
    @TickersAgree.prompts r r.shutdown False h fun i => Prompts.shutdown r i
  refine List.eq_nil_iff_forall_not_mem.2 fun w hw => ?_
  have hbeat : r.shutdown.beat? w.1 = none := by
    rw [beat?, session?_shutdown]
    cases r.session? w.1 <;> rfl
  have hheld : w ∈ r.shutdown.triggers.held w.1 := List.mem_filter.2 ⟨hw, by simp⟩
  rw [hthen.idle _ hbeat] at hheld
  cases hheld

/-! ### At rest -/

/-- No port is captured or has anything running, ready or awaited, and nothing is left of
captures, alarms and tickers where they are kept elsewhere. -/
structure AtRest (r : Registry) : Prop where
  distinct : r.Distinct
  sessions : ∀ s ∈ r.sessions, s.rest = s
  upPorts : r.upPorts = []
  alarms : r.alarms.alarms = []
  handles : ∀ hd ∈ r.backend.handles, hd.shut = hd
  waiting : r.triggers.waiting = []

/-- Handles none of which is open are all closed. -/
theorem handles_of_openHandles {lo : Loopback} (h : lo.openHandles = []) :
    ∀ hd ∈ lo.handles, hd.shut = hd := by
  intro hd hmem
  obtain ⟨k, hk⟩ := List.mem_iff_getElem?.1 hmem
  have hnot : ¬lo.isOpen k = true := by
    rw [← Loopback.mem_openHandles, h]
    exact List.not_mem_nil
  rw [Loopback.isOpen, hk, Option.any_some] at hnot
  obtain ⟨link, interface, patience, closed⟩ := hd
  obtain rfl : closed = true := by simpa using hnot
  rfl

/-- **A registry that was shut down is at rest**, if captures, alarms and tickers were in
order. -/
theorem atRest_shutdown (h : r.InOrder starts) (hkeys : r.KeysKept) (htickers : r.TickersAgree) :
    r.shutdown.AtRest := by
  have hsessions := sessions_shutdown h.distinct
  have horder := h.alters Alters.shutdown
  have hidle : r.shutdown.isCapturing = fun _ => false := by
    funext j
    rw [isCapturing, session?_shutdown]
    cases r.session? j <;> rfl
  have hup : r.shutdown.upPorts = [] := by
    rw [horder.upPorts, hidle]
    exact List.filter_false _
  have hopen : r.shutdown.backend.openHandles = [] := by
    have hnone := horder.handles
    rw [hup] at hnone
    exact List.map_eq_nil_iff.1 hnone.symm
  exact {
    distinct := horder.distinct
    sessions := by
      rw [hsessions]
      intro s hs
      obtain ⟨t, -, rfl⟩ := List.mem_map.1 hs
      exact t.rest_rest
    upPorts := hup
    alarms := hkeys.alarms_shutdown
    handles := handles_of_openHandles hopen
    waiting := htickers.waiting_shutdown }

namespace AtRest

/-- At rest, no port is captured. -/
theorem capture_eq_none (h : r.AtRest) (hs : r.session? i = some s) : s.capture = none :=
  (congrArg Session.capture (h.sessions s (mem_of_session? hs))).symm

/-- So no port counts as captured, registered or not. -/
theorem isCapturing (h : r.AtRest) (i : IfIndex) : r.isCapturing i = false := by
  rw [Registry.isCapturing]
  cases hs : r.session? i with
  | none => rfl
  | some s => simp [Session.isCapturing, h.capture_eq_none hs]

/-- **To stop a port that is at rest changes nothing.** -/
theorem stop (h : r.AtRest) (i : IfIndex) : (r.stop i).2 = r := by
  cases hs : r.session? i with
  | none => exact stop_of_none hs
  | some s =>
    have hsessions : (r.sessions.map fun t => if t.port.ifIndex = i then t.stop else t) =
        r.sessions := by
      refine (List.map_congr_left fun t ht => ?_).trans (List.map_id _)
      split_ifs
      · rw [← h.sessions t ht]
        rfl
      · rfl
    have hup : r.upPorts.filter (· ≠ i) = r.upPorts := by
      rw [h.upPorts]
      rfl
    have htriggers : r.triggers.withdraw i = r.triggers := by
      have hkept : r.triggers.waiting.filter (·.1 ≠ i) = r.triggers.waiting := by
        rw [h.waiting]
        rfl
      rw [Mailbox.withdraw, hkept]
    rw [stop_of_session? hs, h.capture_eq_none hs, hsessions, hup, htriggers]
    rfl

/-- A port that is at rest has no alarm to be cancelled. -/
theorem cancelAlarm (h : r.AtRest) (i : IfIndex) : r.cancelAlarm i = r := by
  cases hs : r.session? i with
  | none => exact cancelAlarm_of_none hs
  | some s =>
    have hnone : s.receiver.alarm = none :=
      (congrArg (·.receiver.alarm) (h.sessions s (mem_of_session? hs))).symm
    have hsessions : (r.sessions.map fun t =>
        if t.port.ifIndex = i then { t with receiver := s.receiver } else t) = r.sessions := by
      refine (List.map_congr_left fun t ht => ?_).trans (List.map_id _)
      split_ifs with hti
      · have hfound := session?_of_mem h.distinct ht
        rw [hti, hs] at hfound
        obtain rfl := Option.some.inj hfound
        rfl
      · rfl
    rw [cancelAlarm_of_session? hs]
    simp only [Receiver.cancel, hnone, hsessions]

/-- **To shut down what is at rest changes nothing.** -/
theorem shutdown (h : r.AtRest) : r.shutdown = r := by
  have hretire : ∀ i, r.retire i = r := fun i => by
    rw [Registry.retire, h.stop, h.cancelAlarm]
  rw [shutdown_eq]
  generalize r.indexes = is
  induction is with
  | nil => rfl
  | cons i is ih => rw [List.foldl_cons, hretire, ih]

/-- **No packet reaches a port that is at rest.** -/
theorem handleInbound (h : r.AtRest) (now : Nat) (packet : Inbound) :
    r.handleInbound now packet = r := by
  unfold Registry.handleInbound
  cases hs : r.session? packet.ifIndex with
  | none => rfl
  | some s => simp [Session.isCapturing, h.capture_eq_none hs]

/-- **No request to transmit reaches a port that is at rest.** -/
theorem handleTransmit (h : r.AtRest) (i : IfIndex) : r.handleTransmit i = r := by
  unfold Registry.handleTransmit
  cases hs : r.session? i with
  | none => rfl
  | some s => simp [h.capture_eq_none hs]

/-- **No alarm goes off.** -/
theorem expireNext? (h : r.AtRest) (now : Nat) : r.expireNext? now = none := by
  rw [Registry.expireNext?, Expiry.due?, h.alarms]
  rfl

/-- At rest, there is no alarm whose time could come. -/
theorem fire (h : r.AtRest) (now : Nat) : r.fire now = ([], r) := by
  rw [Registry.fire, h.alarms]
  rfl

end AtRest
end Registry
end Lldp
