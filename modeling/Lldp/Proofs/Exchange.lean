/-
# What one station says is what the next one understands

The transmitting half of a port and the receiving half of another meet on the wire
only: they share neither limits nor framing.  Yet whatever packet can be built is taken
in, padded or not and with a tag or without, and says what the sender meant: its
address, the name of its interface and a time to live that lets no product wrap around
(`Transmitter.exchange`).  A packet can be built exactly if the name is from 1 to 510
bytes long; nothing in the timing or the address can keep a port silent.

Three facts meet here: a frame without optional TLVs is a unit, so padding is told
from it (`Frame.isUnit_iff_of_encode`); reading undoes writing
(`Frame.decode_eq_ok_iff`); and a name survives its encoding (`Utf8.decode_encode`).
-/

import Lldp.Proofs.Neighbor
import Lldp.Proofs.Text.Utf8
import Lldp.Proofs.Transmitter
import Lldp.Proofs.Words

namespace Lldp

/-! ### Timing -/

namespace Timing

variable {interval multiplier : UInt64} {timing : Timing}

/-- All pairs of words but those with a zero are accepted. -/
theorem exists_ofNumbers_iff :
    (∃ timing, ofNumbers interval.toNat multiplier.toNat = .ok timing) ↔
      interval ≠ 0 ∧ multiplier ≠ 0 := by
  have hzero : ∀ w : UInt64, w.toNat = 0 ↔ w = 0 := fun w => UInt64.toNat_inj (b := 0)
  unfold ofNumbers
  split_ifs with hi hm
  · exact iff_of_false nofun fun h => h.1 ((hzero _).1 hi)
  · exact iff_of_false nofun fun h => h.2 ((hzero _).1 hm)
  · exact iff_of_true ⟨_, rfl⟩ ⟨fun h => hi ((hzero _).2 h), fun h => hm ((hzero _).2 h)⟩

/-- **No product wraps around**: the time to live is the smaller of the true product and
what two octets can say, and a product of words that stops at the largest word comes to
the same. -/
theorem ttl_of_ofNumbers (h : ofNumbers interval.toNat multiplier.toNat = .ok timing) :
    timing.ttl = min (interval.toNat * multiplier.toNat) 65535 ∧
      timing.ttl = min (Word.saturate (interval.toNat * multiplier.toNat)).toNat 65535 := by
  have httl : timing.ttl = min (interval.toNat * multiplier.toNat) 65535 := by
    unfold ofNumbers at h
    split_ifs at h
    obtain rfl := Except.ok.inj h
    rfl
  exact ⟨httl, httl.trans (Word.min_toNat_saturate (by decide) _).symm⟩

end Timing

/-! ### Tags -/

namespace Ethernet

/-- The packet with a tag put in behind the two addresses. -/
def insertTag (control : UInt16) (packet : Octets) : Octets :=
  packet.take 12 ++ (Octets.ofWord vlanType ++ Octets.ofWord control) ++ packet.drop 12

/-- A tag in a packet that is sent stands where a receiver looks for it. -/
theorem insertTag_build (control : UInt16) (source : Mac) (payload padding : Octets) :
    insertTag control (build source payload) ++ padding =
      tagged control ⟨Mac.nearestBridge, source, lldpType, payload ++ padding⟩ := by
  simp [insertTag, build, tagged, Mac.toOctets, Octets.ofWord]

/-- **A packet that is sent**, with a tag or without, still has its parts in their
places when it is padded. -/
theorem isLaidOut_of_build {source : Mac} {payload packet : Octets}
    (h : packet = build source payload ∨
      ∃ control, packet = insertTag control (build source payload))
    (padding : Octets) :
    IsLaidOut ⟨Mac.nearestBridge, source, lldpType, payload ++ padding⟩ (packet ++ padding) := by
  rcases h with rfl | ⟨control, rfl⟩
  · have hpadded : build source payload ++ padding = build source (payload ++ padding) := by
      rw [build, build, List.append_assoc]
    rw [hpadded]
    exact isLaidOut_build source _
  · exact Or.inr ⟨control, insertTag_build control source payload padding⟩

end Ethernet

/-! ### From one half to the other -/

namespace Transmitter

variable {timing : Timing} {source : Mac} {name : String} {bytes : Octets}

/-- What is to be remembered of a port that was heard. -/
def announcement (timing : Timing) (source : Mac) (name : String) : Neighbor where
  frame := frame timing source name
  info := {}
  source := source

/-- The packet of a port announces the port. -/
theorem isAnnouncedBy_of_packet {sent : Octets} (h : packet timing source name = .ok bytes)
    (hsent : sent = bytes ∨ ∃ control, sent = Ethernet.insertTag control bytes)
    (padding : Octets) :
    ∃ unit, (announcement timing source name).IsAnnouncedBy (sent ++ padding) unit := by
  obtain ⟨unit, hwritten, rfl⟩ := of_packet h
  exact ⟨unit,
    { laidOut := ⟨padding, Ethernet.isLaidOut_of_build hsent padding⟩
      isUnit := (Frame.isUnit_iff_of_encode hwritten).2 nofun
      frame := Frame.decode_eq_ok_iff.2 ⟨hwritten, rfl⟩
      chassis := show 4 ≤ 7 by decide
      port := show 5 ≤ 7 by decide
      info := rfl }⟩

/-- A port is shown by its address and the name of its interface. -/
theorem text_announcement (timing : Timing) (source : Mac) (name : String) :
    (announcement timing source name).frame.chassis.text = source.text ∧
      (announcement timing source name).frame.port.text = name :=
  ⟨rfl, Utf8.decode_encode name⟩

/-- Building gives a packet out exactly if there is one. -/
theorem build_cases (t : Transmitter) (source : Mac) (name : String) :
    (∃ bytes, packet t.timing source name = .ok bytes ∧
        t.build source name = (bytes, { t with cached := some bytes, builds := t.builds + 1 })) ∨
      ((¬∃ bytes, packet t.timing source name = .ok bytes) ∧
        t.build source name = ([], { t with cached := none })) := by
  unfold build
  cases hp : packet t.timing source name with
  | ok bytes => exact Or.inl ⟨bytes, rfl, rfl⟩
  | error e =>
    refine Or.inr ⟨?_, rfl⟩
    rintro ⟨bytes, ⟨⟩⟩

/-- **What is built is heard as it was meant.**  For any interval and multiplier but zero,
any address and any name: a packet is built exactly if the name is from 1 to 510 bytes
long, and otherwise nothing is given out and nothing is kept.  Every packet that is built,
padded with any octets and with a tag put in or without, is taken in by every receiver,
which gives the time to live of the sender as the hold time and remembers its address,
shows the address and the name as the sender has them, and finds no link info. -/
theorem exchange (interval multiplier : UInt64) :
    ((∃ timing, Timing.ofNumbers interval.toNat multiplier.toNat = .ok timing) ↔
      interval ≠ 0 ∧ multiplier ≠ 0) ∧
    ∀ timing, Timing.ofNumbers interval.toNat multiplier.toNat = .ok timing →
      timing.ttl = min (interval.toNat * multiplier.toNat) 65535 ∧
      timing.ttl = min (Word.saturate (interval.toNat * multiplier.toNat)).toNat 65535 ∧
      ∀ (t : Transmitter) (source : Mac) (name : String), t.timing = timing →
        ((t.build source name).1 ≠ [] ↔ 1 ≤ name.utf8ByteSize ∧ name.utf8ByteSize ≤ 510) ∧
        ((t.build source name).1 = [] →
          t.build source name = ([], { t with cached := none })) ∧
        ((t.build source name).1 ≠ [] → ∀ (r : Receiver) (sent padding : Octets),
          sent = (t.build source name).1 ∨
            (∃ control, sent = Ethernet.insertTag control (t.build source name).1) →
          ∃ n : Neighbor,
            r.process (sent ++ padding) =
              (.ok (.ofSecs timing.ttl), { r with neighbor := some n }) ∧
            n.source = source ∧ n.frame.chassis.text = source.text ∧
            n.frame.port.text = name ∧ n.info.isEmpty = true) := by
  refine ⟨Timing.exists_ofNumbers_iff, fun timing htiming => ?_⟩
  obtain ⟨httl, hword⟩ := Timing.ttl_of_ofNumbers htiming
  refine ⟨httl, hword, fun t source name ht => ?_⟩
  subst ht
  have hnamed : (∃ bytes, packet t.timing source name = .ok bytes) ↔
      1 ≤ name.utf8ByteSize ∧ name.utf8ByteSize ≤ 510 := by
    rw [exists_packet_iff, Utf8.length_encode, Nat.one_le_iff_ne_zero]
  rcases build_cases t source name with ⟨bytes, hp, hbuild⟩ | ⟨hnone, hbuild⟩
  · have hbytes := packet_ne_nil hp
    rw [hbuild]
    refine ⟨iff_of_true hbytes (hnamed.1 ⟨bytes, hp⟩), fun h => absurd h hbytes, ?_⟩
    intro _ r sent padding hsent
    obtain ⟨unit, hannounced⟩ := isAnnouncedBy_of_packet hp hsent padding
    exact ⟨_, Receiver.process_of_isAnnouncedBy r hannounced, rfl, (text_announcement ..).1,
      (text_announcement ..).2, decide_eq_true rfl⟩
  · rw [hbuild]
    exact ⟨iff_of_false (absurd rfl) fun h => hnone (hnamed.2 h), fun _ => rfl,
      fun h => absurd rfl h⟩

/-- A transmitter that asks to be remembered for longer than any number of seconds that
a word can hold. -/
def slowest : Transmitter where
  timing := { interval := Word.maximum, multiplier := Word.maximum }

/-- Such a port is remembered for as long as two octets can say; one without a name stays
silent. -/
theorem exchange_slowest :
    (∃ n : Neighbor,
      ({} : Receiver).process
          (Ethernet.insertTag 5 (slowest.build Mac.zero "é0").1 ++ [0x2a]) =
        (.ok (.ofSecs 65535), { neighbor := some n }) ∧
      n.frame.chassis.text = Mac.zero.text ∧ n.frame.port.text = "é0") ∧
    slowest.build Mac.zero "" = ([], slowest) := by
  obtain ⟨-, hexchange⟩ := exchange (Word.saturate UInt64.size) (Word.saturate UInt64.size)
  obtain ⟨-, -, hall⟩ := hexchange slowest.timing rfl
  constructor
  · obtain ⟨hbuilt, -, hheard⟩ := hall slowest Mac.zero "é0" rfl
    obtain ⟨n, hprocess, -, hchassis, hport, -⟩ :=
      hheard (hbuilt.2 (by decide)) {} _ [0x2a] (Or.inr ⟨5, rfl⟩)
    exact ⟨n, hprocess, hchassis, hport⟩
  · obtain ⟨hbuilt, hsilent, -⟩ := hall slowest Mac.zero "" rfl
    refine hsilent (Decidable.not_not.1 fun h => ?_)
    exact absurd (hbuilt.1 h).1 (by decide)

end Transmitter
end Lldp
