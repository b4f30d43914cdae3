/-
# Alarms and sessions correspond

The queue of alarms knows nothing of sessions, and a session knows of its alarm
only the key.  Each operation touches one half: setting, moving and cancelling
an alarm are the queue's, remembering and forgetting a key are the receiver's.
`AlarmsAgree` is what holds the halves together: keys and alarms are in one to
one correspondence, port by port, and there is an alarm exactly for as long as
there is a neighbour.

It holds at the beginning and every event keeps it (`AlarmsAgree.react`), so it
holds after every course of events (`alarms_correspond`).  That no alarm is ever
moved or cancelled by a key that none has is part of it: such a key would have
to be some session's, and the keys of sessions are live.
-/

import Lldp.Proofs.Neighbor
import Lldp.Proofs.Registry.Receivers

namespace Lldp

/-! ### The queue -/

namespace Expiry

variable {q : Expiry} {i : IfIndex} {key deadline now : Nat} {a b : Alarm}

theorem mem_arm :
    a ∈ (q.arm i deadline).2.alarms ↔ a ∈ q.alarms ∨ a = ⟨q.fresh, i, deadline⟩ := by
  simp [arm]

theorem keys_arm : (q.arm i deadline).2.alarms.map Alarm.key =
    q.alarms.map Alarm.key ++ [q.fresh] := by
  simp [arm]

theorem mem_move : a ∈ (q.move key deadline).alarms ↔
    (a ∈ q.alarms ∧ a.key ≠ key) ∨
      ∃ b ∈ q.alarms, b.key = key ∧ a = { b with deadline } := by
  simp only [move, List.mem_map]
  constructor
  · rintro ⟨b, hb, rfl⟩
    split_ifs with hk
    · exact Or.inr ⟨b, hb, hk, rfl⟩
    · exact Or.inl ⟨hb, hk⟩
  · rintro (⟨ha, hk⟩ | ⟨b, hb, hk, rfl⟩)
    · exact ⟨a, ha, if_neg hk⟩
    · exact ⟨b, hb, if_pos hk⟩

theorem keys_move : (q.move key deadline).alarms.map Alarm.key = q.alarms.map Alarm.key := by
  simp only [move, List.map_map]
  refine List.map_congr_left fun b _ => ?_
  simp only [Function.comp]
  split_ifs <;> rfl

theorem mem_remove : a ∈ (q.remove key).alarms ↔ a ∈ q.alarms ∧ a.key ≠ key := by
  simp [remove]

theorem mem_take : a ∈ (q.take now b).alarms ↔ a ∈ q.alarms ∧ a.key ≠ b.key := by
  simp [take]

theorem holds_iff : q.holds key = true ↔ ∃ a ∈ q.alarms, a.key = key := by
  simp [holds]

/-- An alarm that is due under its key is in the queue, and its time has come. -/
theorem of_dueUnder? (h : q.dueUnder? now key = some a) :
    a ∈ q.alarms ∧ a.key = key ∧ a.deadline ≤ now := by
  have := List.find?_some h
  exact ⟨List.mem_of_find?_eq_some h, by simpa using this⟩

end Expiry

/-! ### The correspondence -/

namespace Registry

variable {r r' : Registry} {i j : IfIndex} {s : Session} {v w : Receiver} {now key : Nat}
  {n : Neighbor} {a : Alarm}

/-- The alarms and the receivers of a registry belong together. -/
structure AlarmsAgree (r : Registry) : Prop where
  distinct : r.Distinct
  /-- The key that a port keeps is that of an alarm, set for this port. -/
  live : ∀ i v key, r.receiver? i = some v → v.alarm = some key →
    ∃ a ∈ r.alarms.alarms, a.key = key ∧ a.ifIndex = i
  /-- The port that an alarm is set for is registered and keeps the key. -/
  owned : ∀ a ∈ r.alarms.alarms, ∃ v, r.receiver? a.ifIndex = some v ∧ v.alarm = some a.key
  keys : (r.alarms.alarms.map Alarm.key).Nodup
  fresh : ∀ a ∈ r.alarms.alarms, a.key < r.alarms.fresh
  used : r.alarms.misused = false
  /-- A port has an alarm exactly while it knows a neighbour. -/
  learned : ∀ i v, r.receiver? i = some v → v.neighbor.isSome = v.alarm.isSome
  info : ∀ i v n, r.receiver? i = some v → v.neighbor = some n → n.info = n.frame.linkInfo

namespace AlarmsAgree

/-- Two alarms with one key are one alarm. -/
theorem eq_of_key (h : r.AlarmsAgree) {b : Alarm} (ha : a ∈ r.alarms.alarms)
    (hb : b ∈ r.alarms.alarms) (hk : a.key = b.key) : a = b :=
  List.inj_on_of_nodup_map h.keys ha hb hk

/-- **A port's alarm is told by its key as well as by its index.** -/
theorem key_iff (h : r.AlarmsAgree) (hv : r.receiver? i = some v) (hk : v.alarm = some key)
    (ha : a ∈ r.alarms.alarms) : a.key = key ↔ a.ifIndex = i := by
  constructor
  · intro hkey
    obtain ⟨b, hb, hbkey, hbi⟩ := h.live i v key hv hk
    rw [h.eq_of_key ha hb (hkey.trans hbkey.symm)]
    exact hbi
  · intro hi
    obtain ⟨u, hu, huk⟩ := h.owned a ha
    rw [hi, hv] at hu
    obtain rfl := Option.some.inj hu
    exact Option.some.inj (huk.symm.trans hk)

/-- A port that keeps no key has no alarm. -/
theorem ifIndex_ne (h : r.AlarmsAgree) (hv : r.receiver? i = some v) (hk : v.alarm = none)
    (ha : a ∈ r.alarms.alarms) : a.ifIndex ≠ i := by
  intro hi
  obtain ⟨u, hu, huk⟩ := h.owned a ha
  rw [hi, hv] at hu
  obtain rfl := Option.some.inj hu
  simp [hk] at huk

/-- A port that knows somebody has an alarm. -/
theorem exists_alarm (h : r.AlarmsAgree) (hv : r.receiver? i = some v)
    (hn : v.neighbor = some n) : ∃ a ∈ r.alarms.alarms, a.ifIndex = i := by
  have hkey : v.alarm.isSome = true := by
    rw [← h.learned i v hv, hn]
    rfl
  obtain ⟨key, hk⟩ := Option.isSome_iff_exists.1 hkey
  obtain ⟨a, ha, -, hi⟩ := h.live i v key hv hk
  exact ⟨a, ha, hi⟩

/-- A port that has an alarm knows somebody. -/
theorem exists_neighbor (h : r.AlarmsAgree) (hv : r.receiver? i = some v)
    (ha : a ∈ r.alarms.alarms) (hi : a.ifIndex = i) : ∃ n, v.neighbor = some n := by
  obtain ⟨u, hu, hk⟩ := h.owned a ha
  rw [hi, hv] at hu
  obtain rfl := Option.some.inj hu
  refine Option.isSome_iff_exists.1 ?_
  rw [h.learned i v hv, hk]
  rfl

theorem ofSettings (settings : Settings) : (Registry.ofSettings settings).AlarmsAgree where
  distinct := List.nodup_nil
  live := by simp [Registry.ofSettings, receiver?, session?]
  owned := by simp [Registry.ofSettings]
  keys := List.nodup_nil
  fresh := by simp [Registry.ofSettings]
  used := rfl
  learned := by simp [Registry.ofSettings, receiver?, session?]
  info := by simp [Registry.ofSettings, receiver?, session?]

/-- What leaves receivers and alarms alone keeps them together. -/
theorem keep (h : r.AlarmsAgree) (k : KeepsReceivers r r') : r'.AlarmsAgree where
  distinct := by
    rw [Distinct, k.indexes]
    exact h.distinct
  live i v key hv hk := by
    rw [k.alarms]
    exact h.live i v key (k.receiver i ▸ hv) hk
  owned a ha := by
    rw [k.receiver]
    exact h.owned a (k.alarms ▸ ha)
  keys := k.alarms ▸ h.keys
  fresh a ha := k.fresh ▸ h.fresh a (k.alarms ▸ ha)
  used := k.misused.trans h.used
  learned i v hv := h.learned i v (k.receiver i ▸ hv)
  info i v n hv := h.info i v n (k.receiver i ▸ hv)

/-- **A new port knows nobody and has no alarm.** -/
theorem add (h : r.AlarmsAgree) {port : Port} (hp : r.session? port.ifIndex = none) :
    (r.add port).2.AlarmsAgree := by
  have hrecv : ∀ j, (r.add port).2.receiver? j =
      if j = port.ifIndex then some {} else r.receiver? j := by
    intro j
    rw [receiver?, session?_add hp]
    split_ifs <;> rfl
  have hnone : r.receiver? port.ifIndex = none := by rw [receiver?, hp, Option.map_none]
  refine ⟨?_, ?_, ?_, ?_, ?_, ?_, ?_, ?_⟩
  · rw [Distinct, indexes_add hp]
    refine List.nodup_append.2 ⟨h.distinct, List.nodup_singleton _, ?_⟩
    rintro k hk k' hk' rfl
    exact session?_eq_none_iff.1 hp (List.mem_singleton.1 hk' ▸ hk)
  · intro i v key hv hk
    rcases receiver?_cases hrecv hv with ⟨-, ⟨⟩⟩ | ⟨-, hv⟩
    · cases hk
    · rw [add_alarms]
      exact h.live i v key hv hk
  · intro a ha
    rw [add_alarms] at ha
    obtain ⟨v, hv, hk⟩ := h.owned a ha
    refine ⟨v, ?_, hk⟩
    rw [hrecv, if_neg fun he => ?_]
    · exact hv
    · rw [he, hnone] at hv
      cases hv
  · rw [add_alarms]
    exact h.keys
  · rw [add_alarms]
    exact h.fresh
  · rw [add_alarms]
    exact h.used
  · intro i v hv
    rcases receiver?_cases hrecv hv with ⟨-, ⟨⟩⟩ | ⟨-, hv⟩
    · rfl
    · exact h.learned i v hv
  · intro i v n hv hn
    rcases receiver?_cases hrecv hv with ⟨-, ⟨⟩⟩ | ⟨-, hv⟩
    · cases hn
    · exact h.info i v n hv hn

/-- **A port and its alarm may go together.**  Afterwards the port is not
registered or knows nobody, and of the alarms exactly its own is gone. -/
theorem drop (h : r.AlarmsAgree) {x : Option Receiver} (hx : x = none ∨ x = some {})
    (hd : r'.Distinct)
    (hr : ∀ j, r'.receiver? j = if j = i then x else r.receiver? j)
    (hmem : ∀ a, a ∈ r'.alarms.alarms ↔ a ∈ r.alarms.alarms ∧ a.ifIndex ≠ i)
    (hsub : r'.alarms.alarms.Sublist r.alarms.alarms) (hf : r'.alarms.fresh = r.alarms.fresh)
    (hm : r'.alarms.misused = r.alarms.misused) : r'.AlarmsAgree := by
  have hold : ∀ j v, r'.receiver? j = some v → v = {} ∨ (j ≠ i ∧ r.receiver? j = some v) := by
    intro j v hv
    rcases receiver?_cases hr hv with ⟨-, rfl⟩ | hv
    · rcases hx with hx | hx
      · cases hx
      · exact Or.inl (Option.some.inj hx)
    · exact Or.inr hv
  refine ⟨hd, ?_, ?_, (hsub.map _).nodup h.keys, ?_, hm.trans h.used, ?_, ?_⟩
  · intro j v key hv hk
    rcases hold j v hv with rfl | ⟨hj, hv⟩
    · cases hk
    · obtain ⟨a, ha, hkey, hi⟩ := h.live j v key hv hk
      exact ⟨a, (hmem a).2 ⟨ha, hi ▸ hj⟩, hkey, hi⟩
  · intro a ha
    obtain ⟨ha, hi⟩ := (hmem a).1 ha
    rw [hr, if_neg hi]
    exact h.owned a ha
  · intro a ha
    rw [hf]
    exact h.fresh a ((hmem a).1 ha).1
  · intro j v hv
    rcases hold j v hv with rfl | ⟨-, hv⟩
    · rfl
    · exact h.learned j v hv
  · intro j v n hv hn
    rcases hold j v hv with rfl | ⟨-, hv⟩
    · cases hn
    · exact h.info j v n hv hn

/-- **A port that is forgotten takes its alarm along**, and cancels none that is
not there. -/
theorem remove (h : r.AlarmsAgree) (hs : r.session? i = some s) :
    (r.remove i).2.AlarmsAgree ∧
      ∀ a, a ∈ (r.remove i).2.alarms.alarms ↔ a ∈ r.alarms.alarms ∧ a.ifIndex ≠ i := by
  have hv := receiver?_of_session? hs
  have hd : (r.remove i).2.Distinct := by
    rw [Distinct, indexes_remove]
    exact h.distinct.filter _
  have hr : ∀ j, (r.remove i).2.receiver? j = if j = i then none else r.receiver? j := by
    intro j
    rw [receiver?, session?_remove]
    split_ifs <;> rfl
  have hq := remove_alarms hs
  cases hk : s.receiver.alarm with
  | none =>
    have hsame : (r.remove i).2.alarms = r.alarms := by rw [hq, Receiver.cancel, hk]
    have hmem : ∀ a, a ∈ (r.remove i).2.alarms.alarms ↔
        a ∈ r.alarms.alarms ∧ a.ifIndex ≠ i := by
      intro a
      rw [hsame]
      exact ⟨fun ha => ⟨ha, h.ifIndex_ne hv hk ha⟩, And.left⟩
    exact ⟨h.drop (Or.inl rfl) hd hr hmem (by rw [hsame]) (by rw [hsame]) (by rw [hsame]), hmem⟩
  | some key =>
    have hgone : (r.remove i).2.alarms = r.alarms.remove key := by rw [hq, Receiver.cancel, hk]
    have hmem : ∀ a, a ∈ (r.remove i).2.alarms.alarms ↔
        a ∈ r.alarms.alarms ∧ a.ifIndex ≠ i := by
      intro a
      rw [hgone, Expiry.mem_remove]
      exact and_congr_right fun ha => not_congr (h.key_iff hv hk ha)
    have hlive : r.alarms.holds key = true := by
      obtain ⟨a, ha, hkey, -⟩ := h.live i _ key hv hk
      exact Expiry.holds_iff.2 ⟨a, ha, hkey⟩
    refine ⟨h.drop (Or.inl rfl) hd hr hmem ?_ (by rw [hgone]; rfl) ?_, hmem⟩
    · rw [hgone]
      exact List.filter_sublist
    · rw [hgone]
      simp [Expiry.remove, hlive]

/-- **An alarm that goes off takes the neighbour along.** -/
theorem expire (h : r.AlarmsAgree) (ha : a ∈ r.alarms.alarms) :
    (r.expire now a).AlarmsAgree ∧
      ∀ b, b ∈ (r.expire now a).alarms.alarms ↔
        b ∈ r.alarms.alarms ∧ b.ifIndex ≠ a.ifIndex := by
  obtain ⟨v, hv, hk⟩ := h.owned a ha
  have hq : (r.expire now a).alarms = r.alarms.take now a := handleExpiry_frame.2.2
  have hd : (r.expire now a).Distinct := by
    rw [Distinct, Registry.expire, indexes_handleExpiry]
    exact h.distinct
  have hr : ∀ j, (r.expire now a).receiver? j =
      if j = a.ifIndex then some {} else r.receiver? j := by
    intro j
    rw [receiver?, Registry.expire, session?_handleExpiry]
    split_ifs with hj
    · obtain ⟨s, hs, -⟩ := Option.map_eq_some_iff.1 (hj ▸ hv)
      change ((r.session? j).map _).map _ = _
      rw [hs]
      rfl
    · rfl
  have hmem : ∀ b, b ∈ (r.expire now a).alarms.alarms ↔
      b ∈ r.alarms.alarms ∧ b.ifIndex ≠ a.ifIndex := by
    intro b
    rw [hq, Expiry.mem_take]
    exact and_congr_right fun hb => not_congr (h.key_iff hv hk hb)
  refine ⟨h.drop (Or.inr rfl) hd hr hmem ?_ (by rw [hq]; rfl) (by rw [hq]; rfl), hmem⟩
  rw [hq]
  exact List.filter_sublist

/-- **A port that knew nobody gets a new alarm.** -/
theorem arm (h : r.AlarmsAgree) {deadline : Nat} (hv : r.receiver? i = some v)
    (hk : v.alarm = none) (hn : n.info = n.frame.linkInfo) (hd : r'.Distinct)
    (hr : ∀ j, r'.receiver? j =
      if j = i then some { neighbor := some n, alarm := some r.alarms.fresh } else r.receiver? j)
    (hq : r'.alarms = (r.alarms.arm i deadline).2) : r'.AlarmsAgree := by
  refine ⟨hd, ?_, ?_, ?_, ?_, ?_, ?_, ?_⟩
  · intro j u key hu huk
    rw [hq]
    rcases receiver?_cases hr hu with ⟨rfl, ⟨⟩⟩ | ⟨-, hu⟩
    · obtain rfl := Option.some.inj huk
      exact ⟨_, Expiry.mem_arm.2 (Or.inr rfl), rfl, rfl⟩
    · obtain ⟨a, ha, hkey, hj⟩ := h.live j u key hu huk
      exact ⟨a, Expiry.mem_arm.2 (Or.inl ha), hkey, hj⟩
  · intro a ha
    rw [hq, Expiry.mem_arm] at ha
    rw [hr]
    rcases ha with ha | rfl
    · rw [if_neg (h.ifIndex_ne hv hk ha)]
      exact h.owned a ha
    · exact ⟨_, if_pos rfl, rfl⟩
  · rw [hq, Expiry.keys_arm]
    refine List.nodup_append.2 ⟨h.keys, List.nodup_singleton _, ?_⟩
    rintro k hk' k' hk'' rfl
    obtain ⟨a, ha, hkey⟩ := List.mem_map.1 hk'
    have := h.fresh a ha
    have := List.mem_singleton.1 hk''
    omega
  · intro a ha
    rw [hq, Expiry.mem_arm] at ha
    rw [hq]
    rcases ha with ha | rfl
    · exact Nat.lt_succ_of_lt (h.fresh a ha)
    · exact Nat.lt_succ_self _
  · rw [hq]
    exact h.used
  · intro j u hu
    rcases receiver?_cases hr hu with ⟨-, ⟨⟩⟩ | ⟨-, hu⟩
    · rfl
    · exact h.learned j u hu
  · intro j u m hu hm
    rcases receiver?_cases hr hu with ⟨-, ⟨⟩⟩ | ⟨-, hu⟩
    · obtain rfl := Option.some.inj hm
      exact hn
    · exact h.info j u m hu hm

/-- **A port that knew somebody has its alarm moved**, by a key that is live. -/
theorem move (h : r.AlarmsAgree) {deadline : Nat} (hv : r.receiver? i = some v)
    (hk : v.alarm = some key) (hn : n.info = n.frame.linkInfo) (hd : r'.Distinct)
    (hr : ∀ j, r'.receiver? j =
      if j = i then some { neighbor := some n, alarm := some key } else r.receiver? j)
    (hq : r'.alarms = r.alarms.move key deadline) : r'.AlarmsAgree := by
  have hkept : ∀ a ∈ r.alarms.alarms,
      ∃ a' ∈ r'.alarms.alarms, a'.key = a.key ∧ a'.ifIndex = a.ifIndex := by
    intro a ha
    rw [hq]
    by_cases hak : a.key = key
    · exact ⟨_, Expiry.mem_move.2 (Or.inr ⟨a, ha, hak, rfl⟩), rfl, rfl⟩
    · exact ⟨a, Expiry.mem_move.2 (Or.inl ⟨ha, hak⟩), rfl, rfl⟩
  have hfrom : ∀ a ∈ r'.alarms.alarms,
      ∃ a' ∈ r.alarms.alarms, a'.key = a.key ∧ a'.ifIndex = a.ifIndex := by
    intro a ha
    rw [hq, Expiry.mem_move] at ha
    rcases ha with ⟨ha, -⟩ | ⟨b, hb, -, rfl⟩
    · exact ⟨a, ha, rfl, rfl⟩
    · exact ⟨b, hb, rfl, rfl⟩
  refine ⟨hd, ?_, ?_, ?_, ?_, ?_, ?_, ?_⟩
  · intro j u key' hu huk
    obtain ⟨a, ha, hkey, hj⟩ : ∃ a ∈ r.alarms.alarms, a.key = key' ∧ a.ifIndex = j := by
      rcases receiver?_cases hr hu with ⟨rfl, ⟨⟩⟩ | ⟨-, hu⟩
      · exact h.live j v key' hv (hk.trans huk)
      · exact h.live j u key' hu huk
    obtain ⟨a', ha', hkey', hj'⟩ := hkept a ha
    exact ⟨a', ha', hkey'.trans hkey, hj'.trans hj⟩
  · intro a ha
    obtain ⟨b, hb, hkey, hi⟩ := hfrom a ha
    obtain ⟨u, hu, huk⟩ := h.owned b hb
    rw [hkey] at huk
    rw [hi] at hu
    rw [hr]
    split_ifs with hj
    · rw [hj, hv] at hu
      obtain rfl := Option.some.inj hu
      exact ⟨_, rfl, hk.symm.trans huk⟩
    · exact ⟨u, hu, huk⟩
  · rw [hq, Expiry.keys_move]
    exact h.keys
  · intro a ha
    obtain ⟨b, hb, hkey, -⟩ := hfrom a ha
    rw [hq, ← hkey]
    exact h.fresh b hb
  · obtain ⟨a, ha, hkey, -⟩ := h.live i v key hv hk
    have hlive : r.alarms.holds key = true := Expiry.holds_iff.2 ⟨a, ha, hkey⟩
    rw [hq]
    simp [Expiry.move, h.used, hlive]
  · intro j u hu
    rcases receiver?_cases hr hu with ⟨-, ⟨⟩⟩ | ⟨-, hu⟩
    · rfl
    · exact h.learned j u hu
  · intro j u m hu hm
    rcases receiver?_cases hr hu with ⟨-, ⟨⟩⟩ | ⟨-, hu⟩
    · obtain rfl := Option.some.inj hm
      exact hn
    · exact h.info j u m hu hm

/-- **A packet that is accepted** keeps alarms and receivers together.  The port
it came by remembers what it said and has its alarm at the end of the hold time;
no other port and no other alarm is touched. -/
theorem accept (h : r.AlarmsAgree) {packet : Inbound} (ha : r.accept? packet = some n) :
    let after := r.handleInbound now packet
    after.AlarmsAgree ∧
      (∃ v, after.receiver? packet.ifIndex = some v ∧ v.neighbor = some n) ∧
      (∀ j, j ≠ packet.ifIndex → after.receiver? j = r.receiver? j) ∧
      (∀ a ∈ after.alarms.alarms, a.ifIndex = packet.ifIndex →
        a.deadline = now + n.frame.ttl.toMillis) ∧
      ∀ a, a.ifIndex ≠ packet.ifIndex → (a ∈ after.alarms.alarms ↔ a ∈ r.alarms.alarms) := by
  intro after
  obtain ⟨s, hs, -, hp⟩ := accept?_eq_some_iff.1 ha
  have hv := receiver?_of_session? hs
  obtain ⟨unit, hannounced⟩ := Neighbor.ofPacket_eq_ok_iff.1 hp
  have hinfo := hannounced.info
  have hd : after.Distinct := by
    rw [Distinct, indexes_handleInbound]
    exact h.distinct
  have hr : ∀ j, after.receiver? j = _ := fun j => receiver?_accept hs ha
  have hq : after.alarms = _ := alarms_accept hs ha
  have hothers : ∀ j, j ≠ packet.ifIndex → after.receiver? j = r.receiver? j := by
    intro j hj
    rw [hr, if_neg hj]
  cases hk : s.receiver.alarm with
  | none =>
    simp only [Receiver.refresh, hk] at hr hq
    refine ⟨h.arm hv hk hinfo hd hr hq, ⟨_, (hr _).trans (if_pos rfl), rfl⟩, hothers, ?_, ?_⟩
    · intro a haft hi
      rw [hq, Expiry.mem_arm] at haft
      rcases haft with haft | rfl
      · exact absurd hi (h.ifIndex_ne hv hk haft)
      · rfl
    · intro a hi
      rw [hq, Expiry.mem_arm]
      refine ⟨fun haft => haft.resolve_right ?_, Or.inl⟩
      rintro rfl
      exact hi rfl
  | some key =>
    simp only [Receiver.refresh, hk] at hr hq
    refine ⟨h.move hv hk hinfo hd hr hq, ⟨_, (hr _).trans (if_pos rfl), rfl⟩, hothers, ?_, ?_⟩
    · intro a haft hi
      rw [hq, Expiry.mem_move] at haft
      rcases haft with ⟨haft, hak⟩ | ⟨b, -, -, rfl⟩
      · exact absurd ((h.key_iff hv hk haft).2 hi) hak
      · rfl
    · intro a hi
      rw [hq, Expiry.mem_move]
      constructor
      · rintro (⟨haft, -⟩ | ⟨b, hb, hbk, rfl⟩)
        · exact haft
        · exact absurd ((h.key_iff hv hk hb).1 hbk) hi
      · intro haft
        exact Or.inl ⟨haft, fun hak => hi ((h.key_iff hv hk haft).1 hak)⟩

/-- **Every event keeps alarms and receivers together.** -/
theorem react (h : r.AlarmsAgree) (e : Event) : (r.react now e).AlarmsAgree := by
  by_cases ht : ∃ i, r.Touches now i e
  · obtain ⟨i, ht⟩ := ht
    cases ht with
    | add hi hs => exact h.add (hi ▸ hs)
    | remove hs => exact (h.remove hs).1
    | accept _ ha => exact (h.accept ha).1
    | expire _ hdue =>
      simp only [Registry.react, hdue]
      exact (h.expire (Expiry.of_dueUnder? hdue).1).1
  · exact h.keep (keepsReceivers_react (not_exists.1 ht))

/-- **What does not touch a port leaves its neighbour and its alarm alone**,
whatever it does to others. -/
theorem untouched (h : r.AlarmsAgree) {e : Event} (ht : ¬r.Touches now i e) :
    (r.react now e).receiver? i = r.receiver? i ∧
      ∀ a, a.ifIndex = i → (a ∈ (r.react now e).alarms.alarms ↔ a ∈ r.alarms.alarms) := by
  by_cases hother : ∃ j, r.Touches now j e
  · obtain ⟨j, hj⟩ := hother
    cases hj with
    | @add port hi hs =>
      have hne : i ≠ port.ifIndex := fun he => ht (.add he.symm (he ▸ hi ▸ hs))
      refine ⟨?_, fun a _ => by simp only [Registry.react, execute, add_alarms]⟩
      change (r.add port).2.receiver? i = _
      rw [receiver?, session?_add (hi ▸ hs), if_neg hne]
      rfl
    | remove hs =>
      have hne : i ≠ j := by
        rintro rfl
        exact ht (.remove hs)
      refine ⟨?_, fun a ha => ?_⟩
      · change (r.remove j).2.receiver? i = _
        rw [receiver?, session?_remove, if_neg hne]
        rfl
      · exact ((h.remove hs).2 a).trans (and_iff_left (ha ▸ hne))
    | @accept packet n hi ha =>
      have hne : i ≠ j := by
        rintro rfl
        exact ht (.accept hi ha)
      obtain ⟨-, -, hrecv, -, hmem⟩ := @accept r now n h packet ha
      exact ⟨hrecv i (hi ▸ hne), fun a hai => hmem a (hai ▸ hi ▸ hne)⟩
    | @expire key b hi hdue =>
      have hne : i ≠ j := by
        rintro rfl
        exact ht (.expire hi hdue)
      simp only [Registry.react, hdue]
      refine ⟨?_, fun a ha => ?_⟩
      · rw [receiver?, Registry.expire, session?_handleExpiry, if_neg (hi ▸ hne)]
        rfl
      · exact ((h.expire (Expiry.of_dueUnder? hdue).1).2 a).trans
          (and_iff_left (ha ▸ hi ▸ hne))
  · have k := keepsReceivers_react (not_exists.1 hother)
    exact ⟨k.receiver i, fun a _ => by rw [k.alarms]⟩

end AlarmsAgree
end Registry

/-- The alarms and receivers of every registry in use belong together. -/
theorem Moment.alarmsAgree_run (settings : Settings) (events : List Event) :
    ((Moment.ofSettings settings).run events).registry.AlarmsAgree :=
  Moment.run_invariant events (fun e _ _ _ h => h.react e) _ (.ofSettings settings)

/-- **Alarms and sessions are in one to one correspondence**, after any course of
events.  The key that a session keeps is that of one alarm, set for the
session's own port; an alarm's key is kept by one session.  So no port has two
alarms, no alarm is set for a port that is not registered, and no alarm was ever
moved or cancelled by a key that none has.  A session knows a neighbour exactly
while it keeps a key, and then the frame, its link info and its source. -/
theorem Moment.alarms_correspond (settings : Settings) (events : List Event) :
    let r := ((Moment.ofSettings settings).run events).registry
    (∀ s ∈ r.sessions, ∀ key, s.receiver.alarm = some key →
      ∃ a ∈ r.alarms.alarms, a.key = key ∧ a.ifIndex = s.port.ifIndex ∧
        ∀ b ∈ r.alarms.alarms, b.key = key → b = a) ∧
      (∀ a ∈ r.alarms.alarms, ∃! s, s ∈ r.sessions ∧ s.receiver.alarm = some a.key) ∧
      (r.alarms.alarms.map Alarm.ifIndex).Nodup ∧
      (∀ a ∈ r.alarms.alarms, a.ifIndex ∈ r.indexes) ∧
      r.alarms.misused = false ∧
      ∀ s ∈ r.sessions, (s.receiver.neighbor.isSome ↔ s.receiver.alarm.isSome) ∧
        (s.receiver.neighbor = none ∨ ∃ frame source,
          s.receiver.neighbor = some ⟨frame, .ofTlvs frame.optional, source⟩) := by
  intro r
  have h : r.AlarmsAgree := alarmsAgree_run settings events
  have found : ∀ s ∈ r.sessions, r.receiver? s.port.ifIndex = some s.receiver :=
    fun s hs => Registry.receiver?_of_session? (Registry.session?_of_mem h.distinct hs)
  refine ⟨?_, ?_, ?_, ?_, h.used, ?_⟩
  · intro s hs key hk
    obtain ⟨a, ha, hkey, hi⟩ := h.live _ _ key (found s hs) hk
    exact ⟨a, ha, hkey, hi, fun b hb hbk => h.eq_of_key hb ha (hbk.trans hkey.symm)⟩
  · intro a ha
    obtain ⟨v, hv, hk⟩ := h.owned a ha
    obtain ⟨s, hs, rfl⟩ := Option.map_eq_some_iff.1 hv
    refine ⟨s, ⟨Registry.mem_of_session? hs, hk⟩, ?_⟩
    rintro t ⟨ht, htk⟩
    have hi : a.ifIndex = t.port.ifIndex := (h.key_iff (found t ht) htk ha).1 rfl
    have := Registry.session?_of_mem h.distinct ht
    rw [← hi, hs] at this
    exact (Option.some.inj this).symm
  · refine List.Nodup.map_on ?_ (List.Nodup.of_map _ h.keys)
    intro a ha b hb hi
    obtain ⟨v, hv, hk⟩ := h.owned a ha
    exact h.eq_of_key ha hb ((h.key_iff hv hk hb).2 hi.symm).symm
  · intro a ha
    obtain ⟨v, hv, -⟩ := h.owned a ha
    obtain ⟨s, hs, -⟩ := Option.map_eq_some_iff.1 hv
    exact Registry.mem_indexes_of_session? hs
  · intro s hs
    refine ⟨by rw [h.learned _ _ (found s hs)], ?_⟩
    cases hn : s.receiver.neighbor with
    | none => exact Or.inl rfl
    | some n =>
      obtain ⟨frame, info, source⟩ := n
      have hinfo : info = .ofTlvs frame.optional := h.info _ _ _ (found s hs) hn
      rw [hinfo]
      exact Or.inr ⟨frame, source, rfl⟩

end Lldp
