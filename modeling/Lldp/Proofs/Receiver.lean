/-
# What a receiver looks past

Two things may stand in a packet beside the frame: a tag before the type, and padding
after the end marker.  Neither makes a difference (`Receiver.tag_makes_no_difference`,
`Receiver.ends_at_first_marker`), and for one reason: all that a receiver knows of a packet
is its sender, where it goes, its type and the unit that its payload begins with
(`Receiver.process_congr`).

That padding can be told from the frame, whatever octets it is made of, is a property of
the units themselves: none of them is the beginning of another (`Tlv.IsUnit.of_append`).
So octets that break off before a unit is complete begin with no unit at all, wherever they
break off, and no frame can be read from them.
-/

import Lldp.Proofs.Neighbor

namespace Lldp

/-! ### Units -/

namespace Tlv

variable {bytes unit other padding rest : Octets} {n m : Nat}

/-- The first octets are complete TLVs, of which the last one and no other is an end
marker. -/
def EndsAt (bytes : Octets) (n : Nat) : Prop :=
  n ≤ bytes.length ∧ ∃ ts last, tokens (bytes.take n) = .ok (ts ++ [last]) ∧
    last.isEnd = true ∧ ∀ t ∈ ts, t.isEnd = false

/-- TLVs of which only the last is an end marker are a unit. -/
theorem isUnit_iff : IsUnit bytes ↔
    ∃ ts last, tokens bytes = .ok (ts ++ [last]) ∧ last.isEnd = true ∧
      ∀ t ∈ ts, t.isEnd = false := by
  constructor
  · rintro ⟨ts, hnone, hwritten⟩
    exact ⟨ts, endMarker, tokens_eq_ok_iff.2 hwritten, rfl, hnone⟩
  · rintro ⟨ts, last, htokens, hlast, hnone⟩
    have hwritten := tokens_eq_ok_iff.1 htokens
    have hfit := (encodeAll_eq_ok_iff.1 hwritten).1 last (by simp)
    obtain rfl := eq_endMarker hfit hlast
    exact ⟨ts, hnone, hwritten⟩

theorem unitLength_append (h : IsUnit unit) (padding : Octets) :
    unitLength (unit ++ padding) = some unit.length :=
  unitLength_eq_some_iff.2 ⟨unit, padding, rfl, rfl, h⟩

/-- **The search finds the end** exactly if there is one. -/
theorem unitLength_eq_some_iff_endsAt : unitLength bytes = some n ↔ EndsAt bytes n := by
  rw [unitLength_eq_some_iff]
  constructor
  · rintro ⟨unit, padding, rfl, rfl, hunit⟩
    refine ⟨by simp, ?_⟩
    rw [List.take_left]
    exact isUnit_iff.1 hunit
  · rintro ⟨hle, htokens⟩
    exact ⟨bytes.take n, bytes.drop n, (List.take_append_drop n bytes).symm,
      List.length_take_of_le hle, isUnit_iff.2 htokens⟩

/-- Octets end in one place. -/
theorem EndsAt.unique (h : EndsAt bytes n) (h' : EndsAt bytes m) : m = n := by
  rw [← unitLength_eq_some_iff_endsAt] at h h'
  exact Option.some.inj (h'.symm.trans h)

/-- **No unit is the beginning of another.** -/
theorem IsUnit.of_append (h : IsUnit (unit ++ rest)) (h' : IsUnit unit) : rest = [] := by
  have hwhole := unitLength_append h []
  have hfirst := unitLength_append h' rest
  rw [List.append_nil, hfirst] at hwhole
  have hlength := Option.some.inj hwhole
  rw [List.length_append] at hlength
  exact List.eq_nil_of_length_eq_zero (by omega)

/-- **Octets that break off before a unit is complete** begin with no unit. -/
theorem IsUnit.unitLength_cut (h : IsUnit (bytes ++ rest)) (hrest : rest ≠ []) :
    unitLength bytes = none := by
  rw [Option.eq_none_iff_forall_ne_some]
  intro n hn
  obtain ⟨unit, more, rfl, -, hunit⟩ := unitLength_eq_some_iff.1 hn
  rw [List.append_assoc] at h
  exact hrest (List.append_eq_nil_iff.1 (h.of_append hunit)).2

end Tlv

/-! ### Frames -/

namespace Frame

variable {f : Frame} {bytes rest : Octets} {k : Nat}

/-- **No frame can be read** from octets that break off before a unit is complete. -/
theorem decode_cut (h : Tlv.IsUnit (bytes ++ rest)) (hrest : rest ≠ []) :
    ∃ e, decode bytes = .error e := by
  cases hdecode : decode bytes with
  | error e => exact ⟨e, rfl⟩
  | ok f =>
    obtain ⟨unit, padding, rfl, hunit⟩ := exists_isUnit_of_decode hdecode
    have hnone := h.unitLength_cut hrest
    rw [Tlv.unitLength_append hunit] at hnone
    cases hnone

/-- **A frame with an end marker among its optional TLVs** begins with the frame that has
the optional TLVs before it. -/
theorem exists_encode_take (h : f.encode = .ok bytes)
    (hmarker : f.optional.findIdx? Tlv.isEnd = some k) :
    ∃ unit rest, { f with optional := f.optional.take k }.encode = .ok unit ∧
      bytes = unit ++ rest ∧ Tlv.IsUnit unit := by
  obtain ⟨hk, hend, hbefore⟩ := List.findIdx?_eq_some_iff_getElem.1 hmarker
  obtain ⟨hfault, hwritten⟩ := encode_eq_ok_iff.1 h
  obtain ⟨hfit, rfl⟩ := Tlv.encodeAll_eq_ok_iff.1 hwritten
  -- The marker is fit for the wire, so it is the one that ends the shorter frame.
  have hmem : f.optional[k] ∈ f.tlvs := by simp [tlvs]
  have hlast : f.optional[k] = Tlv.endMarker := Tlv.eq_endMarker (hfit _ hmem) hend
  have hsplit : f.tlvs = { f with optional := f.optional.take k }.tlvs ++
      (f.optional.drop (k + 1) ++ [Tlv.endMarker]) := by
    have hoptional : f.optional =
        f.optional.take k ++ f.optional[k] :: f.optional.drop (k + 1) := by
      rw [List.getElem_cons_drop, List.take_append_drop]
    rw [hlast] at hoptional
    show f.chassis.tlv :: f.port.tlv :: f.ttlTlv :: (f.optional ++ [Tlv.endMarker]) =
      f.chassis.tlv :: f.port.tlv :: f.ttlTlv :: (f.optional.take k ++ [Tlv.endMarker]) ++ _
    conv_lhs => rw [hoptional]
    simp
  have hshort : { f with optional := f.optional.take k }.encode =
      .ok ({ f with optional := f.optional.take k }.tlvs.flatMap Tlv.wire) := by
    refine encode_eq_ok_iff.2 ⟨hfault, Tlv.encodeAll_eq_ok_iff.2 ⟨fun t ht => hfit t ?_, rfl⟩⟩
    rw [hsplit]
    exact List.mem_append_left _ ht
  refine ⟨_, _, hshort, by rw [hsplit, List.flatMap_append], (isUnit_iff_of_encode hshort).2 ?_⟩
  intro t ht
  obtain ⟨j, hj, rfl⟩ := List.mem_take_iff_getElem.1 ht
  simpa using hbefore j (by omega)

end Frame

/-! ### Packets -/

namespace Ethernet

variable {eth : Ethernet} {packet : Octets}

/-- **What is appended to a packet** is appended to its payload. -/
theorem IsLaidOut.append (h : eth.IsLaidOut packet) (padding : Octets) :
    { eth with payload := eth.payload ++ padding }.IsLaidOut (packet ++ padding) := by
  rcases h with ⟨htype, rfl⟩ | ⟨control, rfl⟩
  · exact Or.inl ⟨htype, List.append_assoc ..⟩
  · exact Or.inr ⟨control, List.append_assoc ..⟩

/-- A packet has one set of parts. -/
theorem IsLaidOut.unique {eth' : Ethernet} (h : eth.IsLaidOut packet) (h' : eth'.IsLaidOut packet) :
    eth' = eth :=
  Except.ok.inj ((parse_eq_ok_iff.2 h').symm.trans (parse_eq_ok_iff.2 h))

/-- **A packet that was cut short** is none any more, or its payload was cut short. -/
theorem IsLaidOut.parse_cut {cut rest : Octets} (h : eth.IsLaidOut (cut ++ rest)) :
    (∃ e, parse cut = .error e) ∨
      ∃ payload, eth.payload = payload ++ rest ∧ parse cut = .ok { eth with payload } := by
  cases hparse : parse cut with
  | error e => exact Or.inl ⟨e, rfl⟩
  | ok short =>
    have hwhole := h.unique ((parse_eq_ok_iff.1 hparse).append rest)
    subst hwhole
    exact Or.inr ⟨short.payload, rfl, rfl⟩

/-- Octets that reach beyond a type that announces no tag are a packet. -/
theorem exists_untagged (hlength : 14 ≤ packet.length)
    (htype : (packet.drop 12).take 2 ≠ [0x81, 0x00]) :
    ∃ eth : Ethernet, eth.etherType ≠ vlanType ∧ packet = eth.untagged := by
  match packet, hlength with
  | d0 :: d1 :: d2 :: d3 :: d4 :: d5 :: s0 :: s1 :: s2 :: s3 :: s4 :: s5 :: t0 :: t1 :: payload,
    _ =>
    refine ⟨⟨⟨d0, d1, d2, d3, d4, d5⟩, ⟨s0, s1, s2, s3, s4, s5⟩, Octets.word t0 t1, payload⟩,
      fun hvlan => htype ?_, ?_⟩
    · have hword := Octets.ofWord_word t0 t1
      rw [show Octets.word t0 t1 = vlanType from hvlan] at hword
      exact hword.symm
    · simp only [untagged, Octets.ofWord_word]
      rfl

/-- A tag stands behind the addresses. -/
theorem insert_tag (hi lo : UInt8) :
    eth.untagged.take 12 ++ [0x81, 0x00, hi, lo] ++ eth.untagged.drop 12 =
      eth.tagged (Octets.word hi lo) := by
  simp [tagged, untagged, Octets.ofWord_word, Mac.toOctets]
  rfl

end Ethernet

namespace Receiver

variable {eth eth' : Ethernet} {packet packet' : Octets}

/-- **All that a receiver knows of a packet** is the sender, where the packet goes, its type
and its unit. -/
theorem process_congr (r : Receiver) (h : eth.IsLaidOut packet) (h' : eth'.IsLaidOut packet')
    (hdestination : eth'.destination = eth.destination) (hsource : eth'.source = eth.source)
    (htype : eth'.etherType = eth.etherType)
    (hunit : Neighbor.unit eth'.payload = Neighbor.unit eth.payload) :
    r.process packet' = r.process packet := by
  simp only [process, Neighbor.ofPacket, Ethernet.parse_eq_ok_iff.2 h,
    Ethernet.parse_eq_ok_iff.2 h', hdestination, hsource, htype, hunit]

/-- Two packets that say the same with units of their own. -/
theorem process_of_units (r : Receiver) {unit padding padding' : Octets}
    (h : { eth with payload := unit ++ padding }.IsLaidOut packet)
    (h' : { eth with payload := unit ++ padding' }.IsLaidOut packet')
    (hunit : Tlv.IsUnit unit) : r.process packet' = r.process packet :=
  r.process_congr h h' rfl rfl rfl
    ((Neighbor.unit_append hunit padding').trans (Neighbor.unit_append hunit padding).symm)

/-- **A packet that was cut short is refused.** -/
theorem process_cut (r : Receiver) {cut rest : Octets} (h : eth.IsLaidOut (cut ++ rest))
    (hunit : Tlv.IsUnit eth.payload) (hrest : rest ≠ []) :
    ∃ e, r.process cut = (.error e, r) ∧ e.isMalformedInput = true := by
  refine process_of_not_isAnnouncedBy r fun ⟨n, unit, hannounced⟩ => ?_
  obtain ⟨padding, hlaid⟩ := hannounced.laidOut
  rcases h.parse_cut with ⟨e, hparse⟩ | ⟨payload, hpayload, hparse⟩
  · rw [Ethernet.parse_eq_ok_iff.2 hlaid] at hparse
    cases hparse
  · rw [Ethernet.parse_eq_ok_iff.2 hlaid] at hparse
    have hsplit : unit ++ padding = payload :=
      congrArg Ethernet.payload (Except.ok.inj hparse)
    rw [hpayload, ← hsplit] at hunit
    have hnone := hunit.unitLength_cut hrest
    rw [Tlv.unitLength_append hannounced.isUnit] at hnone
    cases hnone

/-- **A frame ends at its first end marker**, in whatever octets it stands.

* Where the end is found is where complete TLVs lead to an end marker for the first time,
  which is one place at most.
* A frame with no end marker but its last is told from any padding after it, and is no frame
  any more when any of it is missing.  So a packet that carries it may be padded, and nothing
  changes; if it was cut short anywhere it is refused, and the receiver stays as it was.
* A frame with more end markers is taken for the one that has the optional TLVs before the
  first of them. -/
theorem ends_at_first_marker :
    (∀ (bytes : Octets) (n : Nat), Tlv.unitLength bytes = some n ↔ Tlv.EndsAt bytes n) ∧
    (∀ (bytes : Octets) (n m : Nat), Tlv.EndsAt bytes n → Tlv.EndsAt bytes m → m = n) ∧
    (∀ (f : Frame) (bytes : Octets), f.encode = .ok bytes → (∀ t ∈ f.optional, t.isEnd = false) →
      (∀ padding, Tlv.unitLength (bytes ++ padding) = some bytes.length) ∧
      (∀ cut, cut <+: bytes → cut ≠ bytes →
        Tlv.unitLength cut = none ∧ ∃ e, Frame.decode cut = .error e) ∧
      ∀ (r : Receiver) (eth : Ethernet) (packet : Octets), eth.payload = bytes →
        eth.IsLaidOut packet →
        (∀ padding, r.process (packet ++ padding) = r.process packet) ∧
        ∀ cut, cut <+: packet → cut ≠ packet →
          ∃ e, r.process cut = (.error e, r) ∧ e.isMalformedInput = true) ∧
    ∀ (f : Frame) (bytes : Octets) (k : Nat), f.encode = .ok bytes →
      f.optional.findIdx? Tlv.isEnd = some k →
      ∃ unit, { f with optional := f.optional.take k }.encode = .ok unit ∧
        (∀ padding, Neighbor.unit (bytes ++ padding) = unit) ∧
        Frame.decode unit = .ok { f with optional := f.optional.take k }.canonical ∧
        ∀ (r : Receiver) (eth : Ethernet) (packet packet' padding : Octets),
          { eth with payload := bytes ++ padding }.IsLaidOut packet →
          { eth with payload := unit }.IsLaidOut packet' →
          r.process packet = r.process packet' := by
  have hrest : ∀ {cut whole : Octets}, cut <+: whole → cut ≠ whole →
      ∃ rest, rest ≠ [] ∧ whole = cut ++ rest := by
    rintro cut _ ⟨rest, rfl⟩ hne
    exact ⟨rest, fun hnil => hne (by rw [hnil, List.append_nil]), rfl⟩
  refine ⟨fun _ _ => Tlv.unitLength_eq_some_iff_endsAt, fun _ _ _ => Tlv.EndsAt.unique,
    fun f bytes hwritten hnone => ?_, fun f bytes k hwritten hmarker => ?_⟩
  · have hunit := (Frame.isUnit_iff_of_encode hwritten).2 hnone
    refine ⟨Tlv.unitLength_append hunit, fun cut hcut hne => ?_,
      fun r eth packet hbytes hlaid => ?_⟩
    · obtain ⟨rest, hmissing, rfl⟩ := hrest hcut hne
      exact ⟨hunit.unitLength_cut hmissing, Frame.decode_cut hunit hmissing⟩
    · subst hbytes
      refine ⟨fun padding => ?_, fun cut hcut hne => ?_⟩
      · refine r.process_congr hlaid (hlaid.append padding) rfl rfl rfl ?_
        have hself := Neighbor.unit_append hunit []
        rw [List.append_nil] at hself
        rw [Neighbor.unit_append hunit, hself]
      · obtain ⟨rest, hmissing, rfl⟩ := hrest hcut hne
        exact r.process_cut hlaid hunit hmissing
  · obtain ⟨unit, rest, hshort, rfl, hunit⟩ := Frame.exists_encode_take hwritten hmarker
    refine ⟨unit, hshort, fun padding => ?_, Frame.decode_of_encode hshort,
      fun r eth packet packet' padding hlaid hlaid' => ?_⟩
    · rw [List.append_assoc]
      exact Neighbor.unit_append hunit _
    · rw [List.append_assoc] at hlaid
      have hunpadded : { eth with payload := unit ++ [] }.IsLaidOut packet' := by
        rwa [List.append_nil]
      exact r.process_of_units hunpadded hlaid hunit

/-- Padding that looks like a TLV is cut off, one octet less is too few, and of a frame with
end markers among its optional TLVs nothing is read from the first of them on. -/
theorem ends_at_first_marker_twice :
    (∃ n, ({} : Receiver).process (taggedPacket writtenUnit ++ [0x00, 0x01, 0x2a]) =
      (.ok (.ofSecs 120), { neighbor := some n })) ∧
    (∃ e, ({} : Receiver).process ((taggedPacket writtenUnit).take 37) = (.error e, {}) ∧
      e.isMalformedInput = true) ∧
    Neighbor.unit (Frame.namedUnit ++ [0xff]) = Frame.namedUnit.take 19 := by
  obtain ⟨-, -, hone, hmany⟩ := ends_at_first_marker
  have hlaid : Ethernet.IsLaidOut ⟨Mac.nearestBridge, writer.source, Ethernet.lldpType, writtenUnit⟩
      (taggedPacket writtenUnit) := Or.inr ⟨5, rfl⟩
  obtain ⟨-, -, hpacket⟩ := hone writer.frame writtenUnit rfl nofun
  obtain ⟨hpadded, hcut⟩ := hpacket {} _ _ rfl hlaid
  refine ⟨⟨writer, ?_⟩, ?_, ?_⟩
  · rw [hpadded]
    cbv
  · exact hcut _ (List.take_prefix 37 _) (by decide)
  · obtain ⟨unit, hwritten, hunit, -⟩ :=
      hmany Frame.nameless.canonical Frame.namedUnit 0 (by cbv) (by decide)
    rw [hunit]
    have htake : Frame.encode { Frame.nameless.canonical with optional := [] } =
        .ok (Frame.namedUnit.take 19) := by cbv
    exact Except.ok.inj (hwritten.symm.trans htake)

/-- **A tag makes no difference.**  Whatever packet has its addresses and a type that announces
no tag, a tag may be put in behind the addresses: the receiver gives the same hold time or the
same error, and is left the same.  A packet that is sent has no tag, goes to the nearest bridge
and carries the payload it was built with. -/
theorem tag_makes_no_difference :
    (∀ (r : Receiver) (packet : Octets) (hi lo : UInt8), 14 ≤ packet.length →
      (packet.drop 12).take 2 ≠ [0x81, 0x00] →
      r.process (packet.take 12 ++ [0x81, 0x00, hi, lo] ++ packet.drop 12) = r.process packet) ∧
    ∀ (source : Mac) (payload : Octets), Ethernet.parse (Ethernet.build source payload) =
      .ok ⟨⟨0x01, 0x80, 0xc2, 0x00, 0x00, 0x0e⟩, source, 0x88cc, payload⟩ := by
  refine ⟨fun r packet hi lo hlength htype => ?_, fun source payload =>
    Ethernet.parse_eq_ok_iff.2 (Ethernet.isLaidOut_build source payload)⟩
  obtain ⟨eth, hplain, rfl⟩ := Ethernet.exists_untagged hlength htype
  have htagged : eth.IsLaidOut _ := Or.inr ⟨Octets.word hi lo, Ethernet.insert_tag hi lo⟩
  exact r.process_congr (Or.inl ⟨hplain, rfl⟩) htagged rfl rfl rfl rfl

/-- A frame is taken in behind a tag, and one that breaks off in its first TLV is refused for
as many octets as without. -/
theorem tag_makes_no_difference_broken :
    let whole := Ethernet.build writer.source writtenUnit
    let broken := Ethernet.build writer.source [0x02, 0x07, 0x04]
    ({} : Receiver).process (whole.take 12 ++ [0x81, 0x00, 0x20, 0x05] ++ whole.drop 12) =
        (.ok (.ofSecs 120), { neighbor := some writer }) ∧
      ({} : Receiver).process (broken.take 12 ++ [0x81, 0x00, 0x20, 0x05] ++ broken.drop 12) =
        (.error (.truncated 9 3), {}) := by
  intro whole broken
  rw [tag_makes_no_difference.1 {} whole 0x20 0x05 (by decide) (by decide),
    tag_makes_no_difference.1 {} broken 0x20 0x05 (by decide) (by decide)]
  exact ⟨by cbv, by cbv⟩

end Receiver
end Lldp
