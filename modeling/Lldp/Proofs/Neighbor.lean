/-
# What an acceptable packet says

A receiver takes a packet apart, cuts off the padding, reads a frame and looks
whether it is within range.  `Neighbor.IsAnnouncedBy` says what all of this comes
to, without a word on how it is done: the packet has the parts of an Ethernet packet
in their places, with a VLAN tag among them or without, and its payload begins with
a unit, octets up to a first end marker, that a frame within range is read from.
`Neighbor.ofPacket_eq_ok_iff` is the exact correspondence, over all octets.

What a receiver does with a packet that announces nobody is to say that the packet
is to blame (`Neighbor.isMalformedInput_ofPacket`).  A payload in which no end marker
is found is read whole, but that comes to nothing: a frame has an end marker, so it
would have been found (`Frame.exists_isUnit_of_decode`).
-/

import Lldp.Proofs.Frame
import Lldp.Receiver
import Mathlib.Tactic.ByContra

namespace Lldp

/-! ### Ethernet packets -/

namespace Ethernet

variable {eth : Ethernet} {packet : Octets}

/-- The octets of a packet without a tag. -/
def untagged (eth : Ethernet) : Octets :=
  eth.destination.toOctets ++ eth.source.toOctets ++ Octets.ofWord eth.etherType ++ eth.payload

/-- The octets of a packet with a tag, which controls how bridges treat it. -/
def tagged (control : UInt16) (eth : Ethernet) : Octets :=
  eth.destination.toOctets ++ eth.source.toOctets ++ Octets.ofWord vlanType ++
    Octets.ofWord control ++ Octets.ofWord eth.etherType ++ eth.payload

/-- The packet has these parts: behind a tag, or without one if the type does not
announce one. -/
def IsLaidOut (eth : Ethernet) (packet : Octets) : Prop :=
  (eth.etherType ≠ vlanType ∧ packet = eth.untagged) ∨ ∃ control, packet = eth.tagged control

theorem parse_untagged (h : eth.etherType ≠ vlanType) : parse eth.untagged = .ok eth := by
  have hword : Octets.word (UInt8.ofNat (eth.etherType.toNat / 256))
      (UInt8.ofNat (eth.etherType.toNat % 256)) = eth.etherType := Octets.word_ofNat _
  simp only [untagged, Mac.toOctets, Octets.ofWord, List.cons_append, List.nil_append, parse,
    hword, if_neg h]

theorem parse_tagged (control : UInt16) : parse (eth.tagged control) = .ok eth := by
  have hword : Octets.word (UInt8.ofNat (eth.etherType.toNat / 256))
      (UInt8.ofNat (eth.etherType.toNat % 256)) = eth.etherType := Octets.word_ofNat _
  have hvlan : Octets.word (UInt8.ofNat (vlanType.toNat / 256))
      (UInt8.ofNat (vlanType.toNat % 256)) = vlanType := Octets.word_ofNat _
  simp only [tagged, Mac.toOctets, Octets.ofWord, List.cons_append, List.nil_append, parse,
    hword, hvlan, if_true]

/-- **A packet is taken apart into the parts it was made of.** -/
theorem parse_eq_ok_iff : parse packet = .ok eth ↔ eth.IsLaidOut packet := by
  constructor
  · intro h
    unfold parse at h
    split at h
    · rename_i d0 d1 d2 d3 d4 d5 s0 s1 s2 s3 s4 s5 t0 t1 body
      dsimp only at h
      split_ifs at h with htag
      · -- The outer type announces a tag, so the packet is tagged if a tag is there.
        split at h
        · rename_i c0 c1 u0 u1 payload
          obtain rfl := Except.ok.inj h
          refine Or.inr ⟨Octets.word c0 c1, ?_⟩
          simp only [tagged, ← htag, Octets.ofWord_word]
          rfl
        · cases h
      · obtain rfl := Except.ok.inj h
        refine Or.inl ⟨htag, ?_⟩
        simp only [untagged, Octets.ofWord_word]
        rfl
    · cases h
  · rintro (⟨htype, rfl⟩ | ⟨control, rfl⟩)
    · exact parse_untagged htype
    · exact parse_tagged control

theorem isMalformedInput_parse {e : Error} (h : parse packet = .error e) :
    e.isMalformedInput = true := by
  unfold parse at h
  split at h
  · dsimp only at h
    split_ifs at h
    split at h
    · cases h
    · obtain rfl := Except.error.inj h
      rfl
  · obtain rfl := Except.error.inj h
    rfl

/-- A packet that is sent has its parts in their places. -/
theorem isLaidOut_build (source : Mac) (payload : Octets) :
    IsLaidOut ⟨Mac.nearestBridge, source, lldpType, payload⟩ (build source payload) :=
  Or.inl ⟨show lldpType ≠ vlanType by decide, rfl⟩

end Ethernet

/-! ### Announcements -/

namespace Neighbor

variable {packet : Octets} {n : Neighbor}

/-- **The packet announces this neighbour by this unit.** -/
structure IsAnnouncedBy (n : Neighbor) (packet unit : Octets) : Prop where
  /-- The packet goes to the nearest bridge, and its payload begins with the unit. -/
  laidOut : ∃ padding, Ethernet.IsLaidOut
    ⟨Mac.nearestBridge, n.source, Ethernet.lldpType, unit ++ padding⟩ packet
  isUnit : Tlv.IsUnit unit
  frame : Frame.decode unit = .ok n.frame
  chassis : n.frame.chassis.subtype.code.toNat ≤ 7
  port : n.frame.port.subtype.code.toNat ≤ 7
  info : n.info = n.frame.linkInfo

theorem unit_append {octets : Octets} (h : Tlv.IsUnit octets) (padding : Octets) :
    unit (octets ++ padding) = octets := by
  have hlength := Tlv.unitLength_eq_some_iff.2 ⟨octets, padding, rfl, rfl, h⟩
  rw [unit, hlength]
  exact List.take_left

/-- Only a payload that begins with a unit is read as a frame. -/
theorem exists_isUnit_of_decode {payload : Octets} {f : Frame}
    (h : Frame.decode (unit payload) = .ok f) :
    ∃ padding, payload = unit payload ++ padding ∧ Tlv.IsUnit (unit payload) := by
  have hfound : ∃ octets padding, payload = octets ++ padding ∧ Tlv.IsUnit octets := by
    cases hlength : Tlv.unitLength payload with
    | some n =>
      obtain ⟨octets, padding, hsplit, -, hunit⟩ := Tlv.unitLength_eq_some_iff.1 hlength
      exact ⟨octets, padding, hsplit, hunit⟩
    | none =>
      rw [unit, hlength] at h
      exact Frame.exists_isUnit_of_decode h
  obtain ⟨octets, padding, rfl, hunit⟩ := hfound
  rw [unit_append hunit]
  exact ⟨padding, rfl, hunit⟩

/-- **All that acceptance says of a packet.** -/
theorem ofPacket_eq_ok_iff : ofPacket packet = .ok n ↔ ∃ unit, n.IsAnnouncedBy packet unit := by
  constructor
  · intro h
    unfold ofPacket at h
    split at h
    · cases h
    · rename_i eth heth
      split_ifs at h with hdest htype
      split at h
      · cases h
      · rename_i frame hframe
        split at h
        · cases h
        · rename_i hverify
          obtain rfl := Except.ok.inj h
          obtain ⟨padding, hpayload, hunit⟩ := exists_isUnit_of_decode hframe
          obtain ⟨hchassis, hport, -⟩ := Frame.verify_eq_ok_iff.1 hverify
          refine ⟨_, ⟨padding, ?_⟩, hunit, hframe, hchassis, hport, rfl⟩
          rw [← hpayload, ← Decidable.not_not.1 hdest, ← Decidable.not_not.1 htype]
          exact Ethernet.parse_eq_ok_iff.1 heth
  · rintro ⟨octets, h⟩
    obtain ⟨padding, hpacket⟩ := h.laidOut
    have hwritten := (Frame.decode_eq_ok_iff.1 h.frame).1
    have hfault := Frame.fault?_eq_none_iff.1 (Frame.encode_eq_ok_iff.1 hwritten).1
    have hverify : n.frame.verify = .ok () :=
      Frame.verify_eq_ok_iff.2 ⟨h.chassis, h.port, hfault.2.2.2⟩
    simp only [ofPacket, Ethernet.parse_eq_ok_iff.2 hpacket, unit_append h.isUnit, h.frame, hverify,
      ← h.info, ne_eq, not_true_eq_false, if_false]

/-- **A packet that announces nobody** is to blame for it. -/
theorem isMalformedInput_ofPacket {e : Error} (h : ofPacket packet = .error e) :
    e.isMalformedInput = true := by
  unfold ofPacket at h
  split at h
  · rename_i e' hparse
    obtain rfl := Except.error.inj h
    exact Ethernet.isMalformedInput_parse hparse
  · split_ifs at h
    · obtain rfl := Except.error.inj h
      rfl
    · obtain rfl := Except.error.inj h
      rfl
    · split at h
      · rename_i e' hframe
        obtain rfl := Except.error.inj h
        exact Frame.isMalformedInput_decode hframe
      · split at h
        · rename_i e' hverify
          obtain rfl := Except.error.inj h
          exact Frame.isMalformedInput_verify hverify
        · cases h

namespace IsAnnouncedBy

variable {octets : Octets}

/-- The time to live is a whole number of seconds that two octets can say. -/
theorem ttl (h : n.IsAnnouncedBy packet octets) :
    n.frame.ttl.nanos = 0 ∧ n.frame.ttl.secs ≤ 65535 := by
  have hwritten := (Frame.decode_eq_ok_iff.1 h.frame).1
  exact (Frame.fault?_eq_none_iff.1 (Frame.encode_eq_ok_iff.1 hwritten).1).2.2

/-- The frame ends where the unit does, and is written as the unit. -/
theorem written (h : n.IsAnnouncedBy packet octets) :
    (∀ t ∈ n.frame.optional, t.isEnd = false) ∧ n.frame.encode = .ok octets := by
  have hwritten := (Frame.decode_eq_ok_iff.1 h.frame).1
  exact ⟨(Frame.isUnit_iff_of_encode hwritten).1 h.isUnit, hwritten⟩

end IsAnnouncedBy

/-- **The hold time of an acceptable packet is its time to live**, a whole
number of seconds. -/
theorem toMillis_of_ofPacket (h : ofPacket packet = .ok n) :
    n.frame.ttl.toMillis = 1000 * n.frame.ttl.secs := by
  obtain ⟨octets, hannounced⟩ := ofPacket_eq_ok_iff.1 h
  rw [Duration.toMillis, hannounced.ttl.1]
  omega

end Neighbor

/-! ### Receivers -/

namespace Receiver

variable {packet : Octets}

theorem process_of_isAnnouncedBy (r : Receiver) {n : Neighbor} {unit : Octets}
    (h : n.IsAnnouncedBy packet unit) :
    r.process packet = (.ok n.frame.ttl, { r with neighbor := some n }) := by
  rw [process, Neighbor.ofPacket_eq_ok_iff.2 ⟨unit, h⟩]

theorem process_of_not_isAnnouncedBy (r : Receiver)
    (h : ¬∃ (n : Neighbor) (unit : Octets), n.IsAnnouncedBy packet unit) :
    ∃ e, r.process packet = (.error e, r) ∧ e.isMalformedInput = true := by
  cases hpacket : Neighbor.ofPacket packet with
  | ok n =>
    obtain ⟨unit, hannounced⟩ := Neighbor.ofPacket_eq_ok_iff.1 hpacket
    exact absurd ⟨n, unit, hannounced⟩ h
  | error e =>
    refine ⟨e, ?_, Neighbor.isMalformedInput_ofPacket hpacket⟩
    rw [process, hpacket]

/-- **A packet is taken in exactly if it announces a neighbour.**  The receiver then
gives the time to live, which is a whole number of at most 65535 seconds, and
remembers the frame, its link info and the sender; the frame has no end marker but
its last, and writing it gives back the octets it was read from.  A packet that
announces nobody, such as one whose payload has no complete end marker, is to blame
for that and changes nothing. -/
theorem process_accepts_iff (r : Receiver) (packet : Octets) :
    ((∃ hold, (r.process packet).1 = .ok hold) ↔
      ∃ (n : Neighbor) (unit : Octets), n.IsAnnouncedBy packet unit) ∧
    (∀ (n : Neighbor) (unit : Octets), n.IsAnnouncedBy packet unit →
      r.process packet = (.ok n.frame.ttl, { r with neighbor := some n }) ∧
      (n.frame.ttl.nanos = 0 ∧ n.frame.ttl.secs ≤ 65535) ∧
      (∀ t ∈ n.frame.optional, t.isEnd = false) ∧ n.frame.encode = .ok unit) ∧
    ((¬∃ (n : Neighbor) (unit : Octets), n.IsAnnouncedBy packet unit) →
      ∃ e, r.process packet = (.error e, r) ∧ e.isMalformedInput = true) ∧
    ∀ eth : Ethernet, eth.IsLaidOut packet →
      (¬∃ unit padding, eth.payload = unit ++ padding ∧ Tlv.IsUnit unit) →
      ∃ e, r.process packet = (.error e, r) ∧ e.isMalformedInput = true := by
  refine ⟨⟨?_, ?_⟩, fun n unit h => ⟨process_of_isAnnouncedBy r h, h.ttl, h.written⟩,
    process_of_not_isAnnouncedBy r, ?_⟩
  · rintro ⟨hold, hok⟩
    by_contra hnone
    obtain ⟨e, herror, -⟩ := process_of_not_isAnnouncedBy r hnone
    rw [herror] at hok
    cases hok
  · rintro ⟨n, unit, h⟩
    exact ⟨_, congrArg Prod.fst (process_of_isAnnouncedBy r h)⟩
  · intro eth heth hpayload
    refine process_of_not_isAnnouncedBy r fun ⟨n, unit, h⟩ => hpayload ?_
    -- A packet is laid out in one way only, so its payload is the announced one.
    obtain ⟨padding, hpacket⟩ := h.laidOut
    have hsame := (Ethernet.parse_eq_ok_iff.2 heth).symm.trans (Ethernet.parse_eq_ok_iff.2 hpacket)
    obtain rfl := Except.ok.inj hsame
    exact ⟨unit, padding, rfl, h.isUnit⟩

/-- A frame as it is written. -/
def writtenUnit : Octets :=
  [0x02, 0x07, 0x04, 0x52, 0x54, 0x00, 0xaa, 0xbb, 0xcc, 0x04, 0x03, 0x05, 0x65, 0x31, 0x06, 0x02,
    0x00, 0x78, 0x00, 0x00]

/-- The neighbour that the frame announces. -/
def writer : Neighbor where
  frame :=
    { chassis := ⟨.macAddress, [0x52, 0x54, 0x00, 0xaa, 0xbb, 0xcc]⟩
      port := ⟨.interfaceName, [0x65, 0x31]⟩
      ttl := .ofSecs 120
      optional := [] }
  info := {}
  source := ⟨0x52, 0x54, 0x00, 0xaa, 0xbb, 0xcc⟩

/-- The packet that carries this payload behind a tag. -/
def taggedPacket (payload : Octets) : Octets :=
  Ethernet.tagged 5 ⟨Mac.nearestBridge, writer.source, Ethernet.lldpType, payload⟩

/-- A tag and padding are looked past; a payload that breaks off is refused. -/
theorem process_accepts_tagged :
    ({} : Receiver).process (taggedPacket (writtenUnit ++ [0x00, 0x00, 0x2a])) =
        (.ok (.ofSecs 120), { neighbor := some writer }) ∧
      ∃ e, ({ neighbor := some writer } : Receiver).process (taggedPacket [0x02, 0x07]) =
        (.error e, { neighbor := some writer }) ∧ e.isMalformedInput = true := by
  constructor
  · have hwritten : writer.frame.encode = .ok writtenUnit := rfl
    have hannounced : writer.IsAnnouncedBy (taggedPacket (writtenUnit ++ [0x00, 0x00, 0x2a]))
        writtenUnit :=
      { laidOut := ⟨_, Or.inr ⟨5, rfl⟩⟩
        isUnit := (Frame.isUnit_iff_of_encode hwritten).2 nofun
        frame := Frame.decode_eq_ok_iff.2 ⟨hwritten, rfl⟩
        chassis := by decide
        port := by decide
        info := by decide }
    exact ((process_accepts_iff {} _).2.1 _ _ hannounced).1
  · refine (process_accepts_iff _ _).2.2.2 _ (Or.inr ⟨5, rfl⟩) ?_
    rintro ⟨unit, padding, hsplit, hunit⟩
    have hfound := Tlv.unitLength_eq_some_iff.2 ⟨unit, padding, hsplit, rfl, hunit⟩
    have hnone : Tlv.unitLength [0x02, 0x07] = none := Tlv.unitLength_of_error rfl
    rw [hnone] at hfound
    cases hfound

end Receiver
end Lldp
