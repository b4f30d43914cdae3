/-
# What a port remembers

A port remembers its neighbour until an alarm for it goes off.  The alarms of all ports lie
in one queue, where they are found by key when they are moved or cancelled and by deadline
when they go off, so a port can be sure of its neighbour only if every alarm that is set
for it goes by its own key, and if nobody else has that key (`OwnsAlarms`).

This is so at the beginning, and every operation leaves it so (`OwnsAlarms.operate`),
whatever has become of the neighbour and the alarm of any other port.  An operation on
another port, and anything but a packet, an alarm or the end of the port itself, leaves the
port with what it remembers (`Leaves`, `Leaves.operate`); a packet that is accepted makes it
remember the sender until the packet's time is up (`Remembers.handleInbound`).
-/

import Lldp.Proofs.Registry.Captures
import Lldp.Proofs.Registry.View

namespace Lldp

/-- What a port has received, and how often it has forgotten a neighbour. -/
def Session.memory (s : Session) : Receiver × Nat := (s.receiver, s.counters.ageouts)

namespace Registry

variable {r r' r'' : Registry} {i j k : IfIndex} {s : Session} {now : Nat} {a : Alarm}
  {n : Neighbor} {packet : Inbound}

def memory? (r : Registry) (i : IfIndex) : Option (Receiver × Nat) :=
  (r.session? i).map Session.memory

/-- The key of the alarm that a port has set. -/
def key? (r : Registry) (i : IfIndex) : Option Nat := (r.memory? i).bind (·.1.alarm)

/-- The neighbour of a port, and how often the port has forgotten one. -/
def known? (r : Registry) (i : IfIndex) : Option (Option Neighbor × Nat) :=
  (r.memory? i).map fun m => (m.1.neighbor, m.2)

/-- Sessions that are changed in something else. -/
theorem memory?_of_ite {p : Prop} [Decidable p] {change : Session → Session}
    (hs : r'.session? i = if p then (r.session? i).map change else r.session? i)
    (hchange : ∀ s, r.session? i = some s → p → (change s).memory = s.memory) :
    r'.memory? i = r.memory? i := by
  rw [memory?, hs]
  split_ifs with hp
  · cases hsession : r.session? i with
    | none => rw [memory?, hsession]; rfl
    | some s =>
      rw [memory?, hsession]
      exact congrArg some (hchange s hsession hp)
  · rfl

/-! ### Alarms of one's own -/

/-- The alarms that are set for a port go by the key of the port, which no other port
has; and keys were given out. -/
structure OwnsAlarms (r : Registry) (k : IfIndex) : Prop where
  own : ∀ a ∈ r.alarms.alarms, a.ifIndex = k → r.key? k = some a.key
  used : ∀ i key, r.key? i = some key → key < r.alarms.fresh
  apart : ∀ i key, r.key? i = some key → r.key? k = some key → i = k

namespace OwnsAlarms

/-- Where no alarm was set, each port owns its alarms. -/
theorem ofSettings (settings : Settings) (k : IfIndex) :
    (Registry.ofSettings settings).OwnsAlarms k where
  own a ha := absurd ha List.not_mem_nil
  used i key h := by cases h
  apart i key h := by cases h

/-- Keys and alarms are as they were. -/
theorem of_same (h : r.OwnsAlarms k) (hkey : ∀ i, r'.key? i = r.key? i)
    (halarms : r'.alarms.alarms = r.alarms.alarms) (hfresh : r'.alarms.fresh = r.alarms.fresh) :
    r'.OwnsAlarms k where
  own a ha hi := (hkey k).trans (h.own a (halarms ▸ ha) hi)
  used i key hi := hfresh ▸ h.used i key (hkey i ▸ hi)
  apart i key hi hk := h.apart i key (hkey i ▸ hi) (hkey k ▸ hk)

/-- **A port loses its key**, and with it the alarms that go by it. -/
theorem drop (h : r.OwnsAlarms k) (hkey : ∀ i, r'.key? i = if i = j then none else r.key? i)
    (halarms : ∀ a ∈ r'.alarms.alarms, a ∈ r.alarms.alarms ∧
      (j = k → r.key? k ≠ some a.key))
    (hfresh : r'.alarms.fresh = r.alarms.fresh) : r'.OwnsAlarms k where
  own a ha hi := by
    obtain ⟨hmem, hnot⟩ := halarms a ha
    have hown := h.own a hmem hi
    rw [hkey, if_neg fun hkj => hnot hkj.symm hown]
    exact hown
  used i key hi := by
    rw [hkey] at hi
    split_ifs at hi
    exact hfresh ▸ h.used i key hi
  apart i key hi hk := by
    rw [hkey] at hi hk
    split_ifs at hi hk
    exact h.apart i key hi hk

/-- **A port sets an alarm** that had none. -/
theorem arm {deadline : Nat} (h : r.OwnsAlarms k) (hnone : r.key? j = none)
    (hkey : ∀ i, r'.key? i = if i = j then some r.alarms.fresh else r.key? i)
    (halarms : r'.alarms = (r.alarms.arm j deadline).2) : r'.OwnsAlarms k where
  own a ha hi := by
    rw [halarms, Expiry.mem_arm] at ha
    rw [hkey]
    rcases ha with ha | rfl
    · have hown := h.own a ha hi
      rw [if_neg fun hkj => by rw [hkj, hnone] at hown; cases hown]
      exact hown
    · rw [if_pos hi.symm]
  used i key hi := by
    rw [hkey] at hi
    have hnext : r'.alarms.fresh = r.alarms.fresh + 1 := by rw [halarms]; rfl
    rw [hnext]
    split_ifs at hi
    · obtain rfl := Option.some.inj hi
      exact Nat.lt_succ_self _
    · exact Nat.lt_succ_of_lt (h.used i key hi)
  apart i key hi hk := by
    rw [hkey] at hi hk
    split_ifs at hi hk with hij hkj hkj
    · rw [hij, hkj]
    · obtain rfl := Option.some.inj hi
      exact absurd (h.used k _ hk) (Nat.lt_irrefl _)
    · obtain rfl := Option.some.inj hk
      exact absurd (h.used i _ hi) (Nat.lt_irrefl _)
    · exact h.apart i key hi hk

/-- **An alarm is moved.** -/
theorem move {key deadline : Nat} (h : r.OwnsAlarms k) (hkey : ∀ i, r'.key? i = r.key? i)
    (halarms : r'.alarms = r.alarms.move key deadline) : r'.OwnsAlarms k where
  own a ha hi := by
    rw [halarms, Expiry.mem_move] at ha
    rw [hkey]
    rcases ha with ⟨ha, -⟩ | ⟨b, hb, -, rfl⟩
    · exact h.own a ha hi
    · exact h.own b hb hi
  used i other hi := by
    have hsame : r'.alarms.fresh = r.alarms.fresh := by rw [halarms]; rfl
    rw [hsame]
    exact h.used i other (hkey i ▸ hi)
  apart i other hi hk := h.apart i other (hkey i ▸ hi) (hkey k ▸ hk)

end OwnsAlarms

/-! ### Leaving a port alone -/

/-- A port is left with what it remembers, and with its alarms. -/
structure Leaves (r r' : Registry) (k : IfIndex) : Prop where
  known : r'.known? k = r.known? k
  owns : r.OwnsAlarms k → r'.OwnsAlarms k
  alarms : r.OwnsAlarms k → ∀ a ∈ r'.alarms.alarms, a.ifIndex = k → a ∈ r.alarms.alarms

namespace Leaves

/-- Where nothing happens, a port is left alone. -/
theorem refl (r : Registry) (k : IfIndex) : Leaves r r k := ⟨rfl, id, fun _ _ ha _ => ha⟩

/-- Two changes that leave a port alone do so together. -/
theorem trans (h : Leaves r r' k) (h' : Leaves r' r'' k) : Leaves r r'' k where
  known := h'.known.trans h.known
  owns ho := h'.owns (h.owns ho)
  alarms ho a ha hi := h.alarms ho a (h'.alarms (h.owns ho) a ha hi) hi

/-- Nothing is done to memories and alarms. -/
theorem of_same (hm : ∀ i, r'.memory? i = r.memory? i)
    (halarms : r'.alarms.alarms = r.alarms.alarms) (hfresh : r'.alarms.fresh = r.alarms.fresh) :
    Leaves r r' k where
  known := by rw [known?, hm]; rfl
  owns ho := ho.of_same (fun i => by rw [key?, hm]; rfl) halarms hfresh
  alarms _ a ha _ := halarms ▸ ha

/-- One session is changed in something else. -/
theorem of_ite {change : Session → Session} {p : IfIndex → Prop} [DecidablePred p]
    (halarms : r'.alarms = r.alarms)
    (hs : ∀ i, r'.session? i = if p i then (r.session? i).map change else r.session? i)
    (hchange : ∀ s : Session, (change s).memory = s.memory) : Leaves r r' k :=
  of_same (fun i => memory?_of_ite (hs i) fun s _ _ => hchange s) (by rw [halarms])
    (by rw [halarms])

/-- A change of sessions in something else leaves every port with what it remembers. -/
theorem modify {change : Session → Session} (hp : ∀ s, (change s).port = s.port)
    (hchange : ∀ s : Session, (change s).memory = s.memory) : Leaves r (r.modify j change) k :=
  of_ite rfl (fun _ => session?_modify hp) hchange

/-- To start a port makes none forget. -/
theorem start : Leaves r (r.start j).2 k :=
  of_ite start_alarms (fun _ => session?_start) fun _ => rfl

/-- To stop a port makes none forget, not even that one. -/
theorem stop : Leaves r (r.stop j).2 k :=
  of_ite stop_alarms (fun _ => session?_stop) fun _ => rfl

/-- The state of a link has to do with no neighbour. -/
theorem setLink {state : LinkState} : Leaves r (r.setLink j state).2 k := by
  rw [setLink_snd]
  exact modify (fun _ => rfl) fun _ => rfl

/-- To start or stop a port as its switches say makes none forget. -/
theorem follow {on : Bool} : Leaves r (r.follow j on) k := by
  unfold Registry.follow
  split_ifs
  · exact start
  · exact stop

/-- Nor does it for several ports, one after another. -/
theorem followAll {on : Bool} (is : List IfIndex) : Leaves r (r.followAll is on) k := by
  induction is generalizing r with
  | nil => exact refl r k
  | cons i is ih => exact follow.trans ih

/-- Other timing concerns what ports say, and not what they have heard. -/
theorem retime {timing : Timing} : Leaves r (r.retime timing) k := by
  refine of_same (fun i => ?_) rfl rfl
  rw [memory?, session?_retime, Option.map_map]
  rfl

/-- **No change of settings** has to do with what a port remembers. -/
theorem apply {change : Change} : Leaves r (r.apply change).2 k := by
  cases change with
  | globalEnable on =>
    have hset : Leaves r (r.setEnabled on) k := of_same (fun _ => rfl) rfl rfl
    rw [apply_globalEnable]
    exact hset.trans (followAll _)
  | portEnable i on =>
    have hset : Leaves r (r.setPortEnabled i on) k := modify (fun _ => rfl) fun _ => rfl
    rw [apply_portEnable]
    exact hset.trans follow
  | timing interval multiplier =>
    rcases apply_timing_cases r interval multiplier with ⟨-, heq⟩ | ⟨timing, -, -, heq⟩
    · rw [heq]
      exact refl r k
    · rw [heq]
      exact retime

/-- A transmission makes no port forget. -/
theorem handleTransmit : Leaves r (r.handleTransmit j) k := by
  rcases handleTransmit_cases r j with
    ⟨-, heq⟩ | ⟨s, c, -, -, ⟨-, heq⟩ | ⟨-, -, heq⟩ | ⟨-, lo, -, heq⟩⟩
  · rw [heq]
    exact refl r k
  · rw [heq]
    exact modify (fun _ => rfl) fun _ => rfl
  · rw [heq]
    exact modify (fun _ => rfl) fun _ => rfl
  · have hwrite : Leaves r { r with backend := lo } k := of_same (fun _ => rfl) rfl rfl
    rw [heq]
    exact hwrite.trans (modify (fun _ => rfl) fun _ => rfl)

/-- What others do to links and mailboxes makes no port forget. -/
theorem surround {x : Surroundings} : Leaves r (r.surround x) k := by
  refine of_same (fun i => ?_) rfl rfl
  rw [memory?, session?_surround, Option.map_map]
  rfl

/-- **An alarm that is cancelled** takes no neighbour along. -/
theorem cancelAlarm (r : Registry) (j k : IfIndex) : Leaves r (r.cancelAlarm j) k := by
  have hmemory : ∀ i, (r.cancelAlarm j).memory? i =
      if i = j then (r.memory? i).map fun m => ({ m.1 with alarm := none }, m.2)
      else r.memory? i := by
    intro i
    rw [memory?, session?_cancelAlarm]
    split_ifs
    · rw [memory?, Option.map_map, Option.map_map]
      rfl
    · rfl
  have hkey : ∀ i, (r.cancelAlarm j).key? i = if i = j then none else r.key? i := by
    intro i
    rw [key?, hmemory]
    split_ifs
    · cases r.memory? i <;> rfl
    · rfl
  have hgone : ((r.cancelAlarm j).alarms.fresh = r.alarms.fresh) ∧
      ∀ a ∈ (r.cancelAlarm j).alarms.alarms, a ∈ r.alarms.alarms ∧ r.key? j ≠ some a.key := by
    cases hs : r.session? j with
    | none =>
      have hnone : r.key? j = none := by rw [key?, memory?, hs]; rfl
      rw [Registry.cancelAlarm, hs]
      exact ⟨rfl, fun a ha => ⟨ha, by simp [hnone]⟩⟩
    | some s =>
      have hown : r.key? j = s.receiver.alarm := by rw [key?, memory?, hs]; rfl
      rw [cancelAlarm_alarms hs, hown, Receiver.cancel]
      cases s.receiver.alarm with
      | none => exact ⟨rfl, fun a ha => ⟨ha, by simp⟩⟩
      | some key =>
        refine ⟨rfl, fun a ha => ?_⟩
        obtain ⟨hmem, hne⟩ := Expiry.mem_remove.1 ha
        exact ⟨hmem, fun hkey => hne (Option.some.inj hkey).symm⟩
  refine ⟨?_, fun ho => ?_, fun _ a ha _ => (hgone.2 a ha).1⟩
  · rw [known?, hmemory]
    split_ifs
    · rw [Option.map_map]
      rfl
    · rfl
  · refine ho.drop hkey (fun a ha => ?_) hgone.1
    obtain ⟨hmem, hne⟩ := hgone.2 a ha
    exact ⟨hmem, fun hjk => hjk ▸ hne⟩

/-- **To stop all ports** makes none forget. -/
theorem shutdown : Leaves r r.shutdown k :=
  @rel_shutdown (Leaves · · k) (fun q => refl q k) (fun _ _ _ => trans) (fun _ _ => stop)
    (fun q j => cancelAlarm q j k) r

end Leaves

/-! ### Ports that come and go -/

/-- **A new port** knows nobody and has no alarm. -/
theorem key?_add {port : Port} : (r.add port).2.key? i = r.key? i := by
  cases hs : r.session? port.ifIndex with
  | some s => rw [add_of_session? hs]
  | none =>
    rw [key?, memory?, session?_add hs]
    split_ifs with hi
    · rw [key?, memory?, hi, hs]
      rfl
    · rfl

/-- A new port has no key, so that it shares none. -/
theorem OwnsAlarms.add (h : r.OwnsAlarms k) {port : Port} : (r.add port).2.OwnsAlarms k :=
  h.of_same (fun _ => key?_add) (by rw [add_alarms]) (by rw [add_alarms])

/-- A port that is registered is left alone when another is. -/
theorem Leaves.add {port : Port} (hk : r.isRegistered k = true) : Leaves r (r.add port).2 k := by
  refine ⟨?_, fun ho => ho.add, fun _ a ha _ => add_alarms ▸ ha⟩
  cases hs : r.session? port.ifIndex with
  | some s => rw [add_of_session? hs]
  | none =>
    rw [known?, memory?, session?_add hs, if_neg]
    · rfl
    · rintro rfl
      rw [isRegistered, hs] at hk
      cases hk

/-- **A port that is forgotten** leaves no alarm behind. -/
theorem OwnsAlarms.remove (h : r.OwnsAlarms k) : (r.remove j).2.OwnsAlarms k := by
  cases hs : r.session? j with
  | none =>
    rw [remove_of_none hs]
    exact h
  | some s =>
    have hcancelled : ((r.stop j).2.cancelAlarm j).OwnsAlarms k :=
      (Leaves.stop.trans (Leaves.cancelAlarm _ j k)).owns h
    have hnone : ((r.stop j).2.cancelAlarm j).key? j = none := by
      rw [key?, memory?, session?_cancelAlarm, if_pos rfl]
      cases (r.stop j).2.session? j <;> rfl
    rw [remove_of_session? hs]
    have hkey : ∀ i, { (r.stop j).2.cancelAlarm j with
        sessions := ((r.stop j).2.cancelAlarm j).sessions.filter (·.port.ifIndex ≠ j) }.key? i =
          if i = j then none else ((r.stop j).2.cancelAlarm j).key? i := by
      intro i
      rw [key?, memory?, session?_drop]
      split_ifs <;> rfl
    refine hcancelled.drop hkey (fun a ha => ⟨ha, fun hjk => ?_⟩) rfl
    subst hjk
    simp [hnone]

/-- A port that is still registered is left alone when another is forgotten. -/
theorem Leaves.remove (hk : (r.remove j).2.isRegistered k = true) :
    Leaves r (r.remove j).2 k := by
  have hkj : k ≠ j := by
    rintro rfl
    rw [isRegistered, session?_remove, if_pos rfl] at hk
    cases hk
  refine ⟨?_, fun ho => ho.remove, fun _ a ha _ => ?_⟩
  · rw [known?, memory?, session?_remove, if_neg hkj]
    rfl
  · cases hs : r.session? j with
    | none =>
      rw [remove_of_none hs] at ha
      exact ha
    | some s =>
      rw [remove_alarms hs, Receiver.cancel] at ha
      cases halarm : s.receiver.alarm with
      | none =>
        rw [halarm] at ha
        exact ha
      | some key =>
        rw [halarm] at ha
        exact (Expiry.mem_remove.1 ha).1

/-! ### Alarms that go off -/

/-- A port that is told that its alarm has gone off has no key any more. -/
theorem key?_handleExpiry :
    (r.handleExpiry j).key? i = if i = j then none else r.key? i := by
  rw [key?, memory?, session?_handleExpiry]
  split_ifs
  · cases r.session? i <;> rfl
  · rfl

/-- A port that forgets its neighbour leaves the others with theirs. -/
theorem Leaves.handleExpiry (hjk : j ≠ k) : Leaves r (r.handleExpiry j) k := by
  refine ⟨?_, fun ho => ho.drop (fun _ => key?_handleExpiry) (fun a ha => ⟨?_, ?_⟩) ?_,
    fun _ a ha _ => ?_⟩
  · rw [known?, memory?, session?_handleExpiry, if_neg (Ne.symm hjk)]
    rfl
  · rwa [handleExpiry_frame.2.2] at ha
  · exact fun heq => absurd heq hjk
  · rw [handleExpiry_frame.2.2]
  · rwa [handleExpiry_frame.2.2] at ha

/-- **An alarm that goes off** takes the key of its port along. -/
theorem OwnsAlarms.expire (h : r.OwnsAlarms k) (ha : a ∈ r.alarms.alarms) :
    (r.expire now a).OwnsAlarms k := by
  have hq : (r.expire now a).alarms = r.alarms.take now a := handleExpiry_frame.2.2
  have hkey : ∀ i, (r.expire now a).key? i = if i = a.ifIndex then none else r.key? i :=
    fun _ => key?_handleExpiry
  refine h.drop hkey (fun b hb => ?_) (by rw [hq]; rfl)
  rw [hq, Expiry.mem_take] at hb
  refine ⟨hb.1, fun hak hkey => hb.2 ?_⟩
  exact Option.some.inj (hkey.symm.trans (h.own a ha hak))

/-- **An alarm that goes off** is none of the business of other ports. -/
theorem Leaves.expire (ha : a ∈ r.alarms.alarms) (hak : a.ifIndex ≠ k) :
    Leaves r (r.expire now a) k := by
  have hq : (r.expire now a).alarms = r.alarms.take now a := handleExpiry_frame.2.2
  have hexpiry : Leaves { r with alarms := r.alarms.take now a } (r.expire now a) k :=
    .handleExpiry hak
  refine ⟨hexpiry.known, fun ho => ho.expire ha, fun _ b hb _ => ?_⟩
  rw [hq, Expiry.mem_take] at hb
  exact hb.1

/-! ### Packets -/

/-- A packet that is refused leaves every port alone. -/
theorem Leaves.of_refuse (h : r.accept? packet = none) :
    Leaves r (r.handleInbound now packet) k := by
  rcases handleInbound_cases r now packet with
    ⟨-, heq⟩ | ⟨s, hs, -, ⟨-, heq⟩ | ⟨n, hn, -⟩⟩
  · rw [heq]
    exact .refl r k
  · rw [heq]
    refine .of_same (fun i => memory?_of_ite (session?_modify fun _ => rfl) ?_) rfl rfl
    rintro t ht rfl
    obtain rfl := Option.some.inj (hs.symm.trans ht)
    rfl
  · cases h.symm.trans hn

/-- **A packet that is accepted** makes its port set its alarm or move it. -/
theorem OwnsAlarms.accept (h : r.OwnsAlarms k) (ha : r.accept? packet = some n) :
    (r.handleInbound now packet).OwnsAlarms k := by
  obtain ⟨s, hs, -, -⟩ := accept?_eq_some_iff.1 ha
  have hmine : r.key? packet.ifIndex = s.receiver.alarm := by rw [key?, memory?, hs]; rfl
  have hkey : ∀ i, (r.handleInbound now packet).key? i =
      if i = packet.ifIndex then
        ({ s.receiver with neighbor := some n }.refresh r.alarms packet.ifIndex
          (now + n.frame.ttl.toMillis)).1.alarm
      else r.key? i := by
    intro i
    have hrecv := @receiver?_accept r i s now packet n hs ha
    rw [receiver?] at hrecv
    rw [key?, memory?]
    split_ifs with hi
    · rw [if_pos hi] at hrecv
      obtain ⟨t, ht, hreceiver⟩ := Option.map_eq_some_iff.1 hrecv
      rw [ht]
      exact congrArg Receiver.alarm hreceiver
    · rw [handleInbound_of_accept hs ha]
      simp only [session?_modify, implies_true, if_neg hi]
      rfl
  have halarms : (r.handleInbound now packet).alarms = _ := alarms_accept hs ha
  unfold Receiver.refresh at hkey halarms
  cases halarm : s.receiver.alarm with
  | none =>
    simp only [halarm] at hkey halarms
    exact h.arm (hmine.trans halarm) hkey halarms
  | some key =>
    simp only [halarm] at hkey halarms
    refine h.move (fun i => ?_) halarms
    rw [hkey]
    split_ifs with hi
    · rw [hi, hmine, halarm]
    · rfl

/-- **An accepted packet** sets an alarm under a key that nobody else has. -/
theorem OwnsAlarms.handleInbound (h : r.OwnsAlarms k) :
    (r.handleInbound now packet).OwnsAlarms k := by
  cases ha : r.accept? packet with
  | none => exact (Leaves.of_refuse ha).owns h
  | some n => exact h.accept ha

/-- **A packet for another port** does not reach this one's alarm. -/
theorem Leaves.handleInbound (hk : packet.ifIndex ≠ k) :
    Leaves r (r.handleInbound now packet) k := by
  cases ha : r.accept? packet with
  | none => exact .of_refuse ha
  | some n =>
    obtain ⟨s, hs, -, -⟩ := accept?_eq_some_iff.1 ha
    refine ⟨?_, fun ho => ho.accept ha, fun ho a hmem hi => ?_⟩
    · rw [known?, memory?, handleInbound_of_accept hs ha]
      simp only [session?_modify, implies_true, if_neg (Ne.symm hk)]
      rfl
    · rw [alarms_accept hs ha, Receiver.refresh] at hmem
      cases halarm : s.receiver.alarm with
      | none =>
        simp only [halarm] at hmem
        rcases Expiry.mem_arm.1 hmem with hmem | rfl
        · exact hmem
        · exact absurd hi hk
      | some key =>
        simp only [halarm] at hmem
        rcases Expiry.mem_move.1 hmem with ⟨hmem, -⟩ | ⟨b, hb, hkey, rfl⟩
        · exact hmem
        · -- The other port would have to have this one's key.
          refine absurd (ho.apart packet.ifIndex b.key ?_ (ho.own b hb hi)) hk
          rw [key?, memory?, hs]
          exact halarm.trans (congrArg some hkey.symm)

/-! ### Remembering a neighbour -/

/-- A port knows its neighbour, has forgotten so many before, and no alarm is set for it that
goes off before a deadline. -/
structure Remembers (r : Registry) (k : IfIndex) (n : Neighbor) (ageouts deadline : Nat) :
    Prop where
  known : r.known? k = some (some n, ageouts)
  owns : r.OwnsAlarms k
  alarms : ∀ a ∈ r.alarms.alarms, a.ifIndex = k → deadline ≤ a.deadline

/-- A port that is left alone goes on remembering. -/
theorem Leaves.remembers {ageouts deadline : Nat} (h : Leaves r r' k)
    (hr : r.Remembers k n ageouts deadline) : r'.Remembers k n ageouts deadline where
  known := h.known.trans hr.known
  owns := h.owns hr.owns
  alarms a ha hi := hr.alarms a (h.alarms hr.owns a ha hi) hi

/-- **A packet that is accepted** makes its port remember the sender until the time of the
packet is up, whatever it remembered before. -/
theorem Remembers.handleInbound (h : r.OwnsAlarms packet.ifIndex) {v : Receiver × Nat}
    (hv : r.memory? packet.ifIndex = some v) (ha : r.accept? packet = some n) :
    (r.handleInbound now packet).Remembers packet.ifIndex n v.2 (now + n.frame.ttl.toMillis) := by
  obtain ⟨s, hs, -, -⟩ := accept?_eq_some_iff.1 ha
  refine ⟨?_, h.accept ha, fun a hmem hi => ?_⟩
  · rw [memory?, hs] at hv
    obtain rfl := Option.some.inj hv
    rw [known?, memory?, handleInbound_of_accept hs ha]
    simp only [session?_modify, implies_true, if_true]
    change Option.map _ (((r.session? packet.ifIndex).map _).map _) = _
    rw [hs]
    simp only [Option.map_some, Session.memory, Receiver.neighbor_refresh]
  · rw [alarms_accept hs ha, Receiver.refresh] at hmem
    have hmine : r.key? packet.ifIndex = s.receiver.alarm := by rw [key?, memory?, hs]; rfl
    cases halarm : s.receiver.alarm with
    | none =>
      simp only [halarm] at hmem
      rcases Expiry.mem_arm.1 hmem with hmem | rfl
      · cases (h.own a hmem hi).symm.trans (hmine.trans halarm)
      · exact Nat.le_refl _
    | some key =>
      simp only [halarm] at hmem
      rcases Expiry.mem_move.1 hmem with ⟨hmem, hne⟩ | ⟨b, -, -, rfl⟩
      · refine absurd ?_ hne
        exact Option.some.inj ((h.own a hmem hi).symm.trans (hmine.trans halarm))
      · exact Nat.le_refl _

/-! ### Operations -/

/-- An alarm that is due. -/
theorem of_dueOf? (h : r.alarms.dueOf? now j = some a) :
    a ∈ r.alarms.alarms ∧ a.ifIndex = j ∧ a.deadline ≤ now :=
  ⟨List.mem_of_find?_eq_some h, by simpa using List.find?_some h⟩

/-- **Every operation leaves a port's alarms its own.** -/
theorem OwnsAlarms.operate (h : r.OwnsAlarms k) (now : Nat) (o : Operation) :
    (r.operate now o).2.OwnsAlarms k := by
  cases o with
  | request q =>
    cases q with
    | add port => exact h.add
    | remove i => exact h.remove
    | reportLink i state =>
      show (r.reportLink i state).2.OwnsAlarms k
      rw [reportLink_snd]
      exact (Leaves.setLink.trans .follow).owns h
    | neighbors start count => exact h
    | counters i => exact h
    | apply change => exact Leaves.apply.owns h
  | setLink i state => exact Leaves.setLink.owns h
  | start i => exact Leaves.start.owns h
  | stop i => exact Leaves.stop.owns h
  | inbound packet => exact h.handleInbound
  | transmit i => exact Leaves.handleTransmit.owns h
  | fire i =>
    show ((r.alarms.dueOf? now i).elim r (r.expire now)).OwnsAlarms k
    cases ha : r.alarms.dueOf? now i with
    | none => exact h
    | some a => exact h.expire (of_dueOf? ha).1
  | links use => exact h.of_same (fun _ => rfl) rfl rfl
  | pass ms => exact h

/-- **A port is left alone** by every operation but a packet for it and its end, as long as
none of its alarms is due. -/
theorem Leaves.operate (o : Operation) (hk : r.isRegistered k = true)
    (hk' : (r.operate now o).2.isRegistered k = true)
    (hpacket : ∀ packet, o = .inbound packet → packet.ifIndex ≠ k)
    (hdue : r.alarms.dueOf? now k = none) : Leaves r (r.operate now o).2 k := by
  cases o with
  | request q =>
    cases q with
    | add port => exact .add hk
    | remove i => exact .remove hk'
    | reportLink i state =>
      show Leaves r (r.reportLink i state).2 k
      rw [reportLink_snd]
      exact setLink.trans follow
    | neighbors start count => exact refl r k
    | counters i => exact refl r k
    | apply change => exact apply
  | setLink i state => exact setLink
  | start i => exact start
  | stop i => exact stop
  | inbound packet => exact .handleInbound (hpacket packet rfl)
  | transmit i => exact handleTransmit
  | fire i =>
    show Leaves r ((r.alarms.dueOf? now i).elim r (r.expire now)) k
    cases ha : r.alarms.dueOf? now i with
    | none => exact refl r k
    | some a =>
      obtain ⟨hmem, hai, -⟩ := of_dueOf? ha
      refine .expire hmem fun hak => ?_
      cases hdue.symm.trans (hai.symm.trans hak ▸ ha)
  | links use => exact of_same (fun _ => rfl) rfl rfl
  | pass ms => exact refl r k

end Registry
end Lldp
