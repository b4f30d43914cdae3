/-
# Frames read and written

A frame is its TLVs in their places, and the places can be told from the TLVs
alone: what is read from the TLVs of a frame is that frame (`Frame.ofTlvs_tlvs`),
and TLVs fit for the wire from which a frame is read are the TLVs of that frame
(`Frame.of_ofTlvs`).  Together with what holds of TLVs in sequence this makes
writing and reading inverse to each other (`Frame.decode_eq_ok_iff`), but for one
thing that octets do not tell: whether a subtype with a named code was given by
its name.  Reading always gives the name, so it gives the frame in its
`canonical` form.

Three of the four checks that reading makes on a TLV by its place are made
nowhere on the way out, since a frame cannot help having its mandatory TLVs where
they belong.  An end marker among the optional TLVs is no exception to anything:
only the last TLV is looked at for the end of a frame.
-/

import Lldp.Frame
import Lldp.Proofs.Tlv

namespace Lldp

/-- What succeeds in two steps succeeds in each. -/
theorem exists_of_bind_eq_ok {α β ε : Type} {x : Except ε α} {f : α → Except ε β} {b : β}
    (h : x >>= f = .ok b) : ∃ a, x = .ok a ∧ f a = .ok b := by
  cases x with
  | error e => cases h
  | ok a => exact ⟨a, rfl, h⟩

/-- What fails in two steps fails in one of them. -/
theorem of_bind_eq_error {α β ε : Type} {x : Except ε α} {f : α → Except ε β} {e : ε}
    (h : x >>= f = .error e) : x = .error e ∨ ∃ a, x = .ok a ∧ f a = .error e := by
  cases x with
  | error e' => exact Or.inl (congrArg Except.error (Except.error.inj h))
  | ok a => exact Or.inr ⟨a, rfl, h⟩

/-! ### Subtypes -/

namespace ChassisSubtype

/-- The code of a subtype that was read is the code it was read from. -/
theorem code_ofCode (n : UInt8) : (ofCode n).code = n := by
  unfold ofCode
  split <;> rfl

/-- A subtype is read back unless it hides a named code. -/
theorem ofCode_code {s : ChassisSubtype} (h : ∀ n, s = .other n → 7 < n.toNat) :
    ofCode s.code = s := by
  cases s with
  | other n =>
    have hn := h n rfl
    show ofCode n = .other n
    unfold ofCode
    split
    all_goals first | rfl | exact absurd hn (by decide)
  | _ => rfl

end ChassisSubtype

namespace PortSubtype

/-- The code of a subtype that was read is the code it was read from. -/
theorem code_ofCode (n : UInt8) : (ofCode n).code = n := by
  unfold ofCode
  split <;> rfl

/-- A subtype is read back unless it hides a named code. -/
theorem ofCode_code {s : PortSubtype} (h : ∀ n, s = .other n → 7 < n.toNat) :
    ofCode s.code = s := by
  cases s with
  | other n =>
    have hn := h n rfl
    show ofCode n = .other n
    unfold ofCode
    split
    all_goals first | rfl | exact absurd hn (by decide)
  | _ => rfl

end PortSubtype

/-- The identifier with its subtype called by name, if the code has one. -/
def ChassisId.canonical (c : ChassisId) : ChassisId :=
  { c with subtype := .ofCode c.subtype.code }

/-- The identifier with its subtype called by name, if the code has one. -/
def PortId.canonical (p : PortId) : PortId :=
  { p with subtype := .ofCode p.subtype.code }

namespace Frame

variable {f : Frame} {t : Tlv} {ts : List Tlv} {bytes : Octets}

/-- The frame with its subtypes called by name, as far as their codes have one. -/
def canonical (f : Frame) : Frame :=
  { f with chassis := f.chassis.canonical, port := f.port.canonical }

/-- Nothing is called otherwise in a frame that hides no named code. -/
theorem canonical_eq_self (hchassis : ∀ n, f.chassis.subtype = .other n → 7 < n.toNat)
    (hport : ∀ n, f.port.subtype = .other n → 7 < n.toNat) : f.canonical = f := by
  rw [canonical, ChassisId.canonical, PortId.canonical, ChassisSubtype.ofCode_code hchassis,
    PortSubtype.ofCode_code hport]

/-! ### The places -/

/-- A chassis identifier is read from its TLV. -/
theorem chassisOf_tlv {c : ChassisId} (h : c.id ≠ []) : chassisOf c.tlv = .ok c.canonical := by
  obtain ⟨first, rest, hid⟩ := List.exists_cons_of_ne_nil h
  rw [chassisOf, if_neg (by simp [ChassisId.tlv, Tlv.ofValue])]
  simp only [ChassisId.tlv, Tlv.ofValue, ChassisId.canonical, hid]

/-- A TLV from which a chassis identifier is read is the TLV of that identifier. -/
theorem of_chassisOf {c : ChassisId} (hfit : t.fault? = none) (h : chassisOf t = .ok c) :
    t = c.tlv ∧ c.id ≠ [] ∧ c.canonical = c := by
  unfold chassisOf at h
  split_ifs at h with htype
  split at h
  · rename_i subtype first rest hvalue
    obtain rfl := Except.ok.inj h
    refine ⟨?_, List.cons_ne_nil _ _, ?_⟩
    · rw [ChassisId.tlv, ChassisSubtype.code_ofCode, ← hvalue, ← Decidable.not_not.1 htype,
        Tlv.ofValue_value hfit]
    · rw [ChassisId.canonical, ChassisSubtype.code_ofCode]
  · cases h

/-- A port identifier is read from its TLV. -/
theorem portOf_tlv {p : PortId} (h : p.id ≠ []) : portOf p.tlv = .ok p.canonical := by
  obtain ⟨first, rest, hid⟩ := List.exists_cons_of_ne_nil h
  rw [portOf, if_neg (by simp [PortId.tlv, Tlv.ofValue])]
  simp only [PortId.tlv, Tlv.ofValue, PortId.canonical, hid]

/-- A TLV from which a port identifier is read is the TLV of that identifier. -/
theorem of_portOf {p : PortId} (hfit : t.fault? = none) (h : portOf t = .ok p) :
    t = p.tlv ∧ p.id ≠ [] ∧ p.canonical = p := by
  unfold portOf at h
  split_ifs at h with htype
  split at h
  · rename_i subtype first rest hvalue
    obtain rfl := Except.ok.inj h
    refine ⟨?_, List.cons_ne_nil _ _, ?_⟩
    · rw [PortId.tlv, PortSubtype.code_ofCode, ← hvalue, ← Decidable.not_not.1 htype,
        Tlv.ofValue_value hfit]
    · rw [PortId.canonical, PortSubtype.code_ofCode]
  · cases h

/-- A time to live of whole seconds that two octets can say is read from its TLV. -/
theorem ttlOf_ttlTlv (hnanos : f.ttl.nanos = 0) (hsecs : f.ttl.secs ≤ maxTtl) :
    ttlOf f.ttlTlv = .ok f.ttl := by
  have hmin : f.ttlSecs = f.ttl.secs := Nat.min_eq_left hsecs
  have hword : (UInt16.ofNat f.ttl.secs).toNat = f.ttl.secs := by
    have hmax : maxTtl = 65535 := rfl
    rw [UInt16.toNat_ofNat']
    omega
  rw [ttlOf, if_neg (by simp [ttlTlv, Tlv.ofValue])]
  show Except.ok (Duration.ofSecs (Octets.word _ _).toNat) = Except.ok f.ttl
  rw [Octets.word_ofNat, hmin, hword, Duration.ofSecs, ← hnanos]

/-- A TLV from which a time to live is read is the TLV of that time. -/
theorem of_ttlOf (hfit : t.fault? = none) (h : ttlOf t = .ok f.ttl) :
    t = f.ttlTlv ∧ f.ttl.nanos = 0 ∧ f.ttl.secs ≤ maxTtl := by
  unfold ttlOf at h
  split_ifs at h with htype
  split at h
  · rename_i hi lo hvalue
    have httl : Duration.ofSecs (Octets.word hi lo).toNat = f.ttl := Except.ok.inj h
    have hword := (Octets.word hi lo).toNat_lt
    have hmax : maxTtl = 65535 := rfl
    have hsecs : f.ttl.secs = (Octets.word hi lo).toNat := by rw [← httl, Duration.ofSecs]
    have hmin : f.ttlSecs = (Octets.word hi lo).toNat := by
      rw [ttlSecs]
      omega
    refine ⟨?_, by rw [← httl, Duration.ofSecs], by omega⟩
    rw [ttlTlv, hmin, UInt16.ofNat_toNat, Octets.ofWord_word, ← hvalue,
      ← Decidable.not_not.1 htype, Tlv.ofValue_value hfit]
  · cases h

/-- What comes before an end marker is optional. -/
theorem optionalOf_concat {first : Tlv} {rest : List Tlv}
    (h : first :: rest = ts ++ [Tlv.endMarker]) : optionalOf first rest = .ok ts := by
  have hlast : rest.getLastD first = Tlv.endMarker := by
    have hget : (first :: rest).getLast? = some Tlv.endMarker := by rw [h, List.getLast?_concat]
    rw [List.getLast?_cons] at hget
    rw [List.getLastD_eq_getLast?]
    exact Option.some.inj hget
  rw [optionalOf, hlast, h, List.dropLast_concat]
  rfl

/-- What is optional comes before an end marker. -/
theorem of_optionalOf {first : Tlv} {rest : List Tlv}
    (hfit : ∀ t ∈ first :: rest, t.fault? = none) (h : optionalOf first rest = .ok ts) :
    first :: rest = ts ++ [Tlv.endMarker] := by
  have hlast : (first :: rest).getLast? = some (rest.getLastD first) := by
    rw [List.getLast?_cons, List.getLastD_eq_getLast?]
  unfold optionalOf at h
  dsimp only at h
  split_ifs at h with hend
  obtain rfl := Except.ok.inj h
  have hmarker := Tlv.eq_endMarker (hfit _ (List.mem_of_getLast? hlast)) hend
  obtain ⟨before, hbefore⟩ := List.getLast?_eq_some_iff.1 hlast
  rw [hbefore, hmarker, List.dropLast_concat]

/-! ### The whole frame -/

/-- **What is wrong with a frame** before its TLVs are looked at. -/
theorem fault?_eq_none_iff : f.fault? = none ↔
    f.chassis.id ≠ [] ∧ f.port.id ≠ [] ∧ f.ttl.nanos = 0 ∧ f.ttl.secs ≤ maxTtl := by
  unfold fault?
  split_ifs with hchassis hport hnanos hsecs
  · exact iff_of_false nofun fun h => h.1 (List.isEmpty_iff.1 hchassis)
  · exact iff_of_false nofun fun h => h.2.1 (List.isEmpty_iff.1 hport)
  · exact iff_of_false nofun fun h => hnanos h.2.2.1
  · exact iff_of_false nofun fun h => absurd h.2.2.2 (Nat.not_le.2 hsecs)
  · exact iff_of_true rfl ⟨fun h => hchassis (List.isEmpty_iff.2 h),
      fun h => hport (List.isEmpty_iff.2 h), Decidable.not_not.1 hnanos, Nat.not_lt.1 hsecs⟩

theorem encode_eq_ok_iff :
    f.encode = .ok bytes ↔ f.fault? = none ∧ Tlv.encodeAll f.tlvs = .ok bytes := by
  unfold encode
  cases f.fault? with
  | some e => simp
  | none => simp

/-- The mandatory TLVs are fit for the wire if the identifiers are short enough. -/
theorem tlvs_fit_iff : (∀ t ∈ f.tlvs, t.fault? = none) ↔
    f.chassis.id.length ≤ 510 ∧ f.port.id.length ≤ 510 ∧ ∀ t ∈ f.optional, t.fault? = none := by
  have hid : ∀ (type code : UInt8) (id : Octets), type.toNat ≤ Tlv.maxType →
      ((Tlv.ofValue type (code :: id)).fault? = none ↔ id.length ≤ 510) := by
    intro type code id htype
    rw [Tlv.fault?_ofValue, List.length_cons, and_iff_right htype]
    show id.length + 1 ≤ 511 ↔ id.length ≤ 510
    omega
  have hchassis : f.chassis.tlv.fault? = none ↔ f.chassis.id.length ≤ 510 :=
    hid _ _ _ (by decide)
  have hport : f.port.tlv.fault? = none ↔ f.port.id.length ≤ 510 := hid _ _ _ (by decide)
  have httl : f.ttlTlv.fault? = none :=
    Tlv.fault?_ofValue.2 ⟨by decide, Nat.le_of_ble_eq_true rfl⟩
  rw [tlvs, List.forall_mem_cons, List.forall_mem_cons, List.forall_mem_cons,
    List.forall_mem_append, List.forall_mem_singleton, hchassis, hport, and_iff_right httl,
    and_iff_left Tlv.fault?_endMarker]

/-- **A frame is written exactly if nothing is wrong with it, its identifiers or
its optional TLVs.** -/
theorem exists_encode_iff : (∃ bytes, f.encode = .ok bytes) ↔
    f.fault? = none ∧ f.chassis.id.length ≤ 510 ∧ f.port.id.length ≤ 510 ∧
      ∀ t ∈ f.optional, t.fault? = none := by
  simp only [encode_eq_ok_iff, exists_and_left, Tlv.exists_encodeAll_iff, tlvs_fit_iff]

/-- **How long a frame is on the wire**: as long as its TLVs, the end marker
included. -/
theorem length_of_encode (h : f.encode = .ok bytes) :
    bytes.length = (2 + (1 + f.chassis.id.length)) + (2 + (1 + f.port.id.length)) + (2 + 2) +
      Tlv.wireLengths f.optional + 2 := by
  obtain ⟨-, rfl⟩ := Tlv.encodeAll_eq_ok_iff.1 (encode_eq_ok_iff.1 h).2
  rw [Tlv.length_flatMap_wire, tlvs, Tlv.wireLengths, Tlv.wireLengths, Tlv.wireLengths,
    Tlv.wireLengths_append]
  have hchassis : f.chassis.tlv.wireLength = 2 + (1 + f.chassis.id.length) := by
    rw [Tlv.wireLength, Nat.add_comm 1]
    rfl
  have hport : f.port.tlv.wireLength = 2 + (1 + f.port.id.length) := by
    rw [Tlv.wireLength, Nat.add_comm 1]
    rfl
  have httl : f.ttlTlv.wireLength = 2 + 2 := rfl
  have hend : Tlv.wireLengths [Tlv.endMarker] = 2 := rfl
  omega

/-- **A frame is read from its TLVs.** -/
theorem ofTlvs_tlvs (h : f.fault? = none) : ofTlvs f.tlvs = .ok f.canonical := by
  obtain ⟨hchassis, hport, hnanos, hsecs⟩ := fault?_eq_none_iff.1 h
  obtain ⟨fourth, rest, hlast⟩ :=
    List.exists_cons_of_ne_nil (List.concat_ne_nil Tlv.endMarker f.optional)
  rw [tlvs, hlast, ofTlvs, chassisOf_tlv hchassis, portOf_tlv hport, ttlOf_ttlTlv hnanos hsecs,
    optionalOf_concat hlast.symm]
  rfl

/-- **TLVs from which a frame is read** are the TLVs of that frame, and nothing is
wrong with it. -/
theorem of_ofTlvs (hfit : ∀ t ∈ ts, t.fault? = none) (h : ofTlvs ts = .ok f) :
    ts = f.tlvs ∧ f.fault? = none ∧ f.canonical = f := by
  unfold ofTlvs at h
  split at h
  · rename_i first second third fourth rest
    simp only [List.forall_mem_cons] at hfit
    obtain ⟨hfirst, hsecond, hthird, hfourth, hrest⟩ := hfit
    obtain ⟨chassis, hc, h⟩ := exists_of_bind_eq_ok h
    obtain ⟨port, hp, h⟩ := exists_of_bind_eq_ok h
    obtain ⟨ttl, ht, h⟩ := exists_of_bind_eq_ok h
    obtain ⟨optional, ho, h⟩ := exists_of_bind_eq_ok h
    obtain rfl := Except.ok.inj h
    obtain ⟨rfl, hchassis, hcc⟩ := of_chassisOf hfirst hc
    obtain ⟨rfl, hport, hpc⟩ := of_portOf hsecond hp
    obtain ⟨hthirdeq, hnanos, hsecs⟩ :=
      @of_ttlOf { chassis, port, ttl, optional } third hthird ht
    have hopt := of_optionalOf (List.forall_mem_cons.2 ⟨hfourth, hrest⟩) ho
    refine ⟨?_, fault?_eq_none_iff.2 ⟨hchassis, hport, hnanos, hsecs⟩, ?_⟩
    · rw [hthirdeq, hopt]
      rfl
    · rw [canonical, hcc, hpc]
  · cases h

/-- **Reading and writing are inverse** but for the subtypes that hide a named
code. -/
theorem decode_eq_ok_iff : decode bytes = .ok f ↔ f.encode = .ok bytes ∧ f.canonical = f := by
  have hdecode : decode bytes = .ok f ↔ ∃ ts, Tlv.tokens bytes = .ok ts ∧ ofTlvs ts = .ok f := by
    unfold decode
    cases Tlv.tokens bytes with
    | error e => simp
    | ok ts => simp
  rw [hdecode, encode_eq_ok_iff]
  constructor
  · rintro ⟨ts, htokens, hframe⟩
    have hwritten := Tlv.tokens_eq_ok_iff.1 htokens
    obtain ⟨rfl, hfault, hcanonical⟩ :=
      of_ofTlvs (Tlv.encodeAll_eq_ok_iff.1 hwritten).1 hframe
    exact ⟨⟨hfault, hwritten⟩, hcanonical⟩
  · rintro ⟨⟨hfault, hwritten⟩, hcanonical⟩
    have hframe := ofTlvs_tlvs hfault
    rw [hcanonical] at hframe
    exact ⟨f.tlvs, Tlv.tokens_eq_ok_iff.2 hwritten, hframe⟩

/-- **A frame that was written is read back** with its subtypes called by name. -/
theorem decode_of_encode (h : f.encode = .ok bytes) : decode bytes = .ok f.canonical := by
  obtain ⟨hfault, hwritten⟩ := encode_eq_ok_iff.1 h
  rw [decode, Tlv.tokens_eq_ok_iff.2 hwritten]
  exact ofTlvs_tlvs hfault

theorem isMalformedInput_chassisOf {e : Error} (h : chassisOf t = .error e) :
    e.isMalformedInput = true := by
  unfold chassisOf at h
  split_ifs at h
  · obtain rfl := Except.error.inj h
    rfl
  · split at h
    · cases h
    · obtain rfl := Except.error.inj h
      rfl

theorem isMalformedInput_portOf {e : Error} (h : portOf t = .error e) :
    e.isMalformedInput = true := by
  unfold portOf at h
  split_ifs at h
  · obtain rfl := Except.error.inj h
    rfl
  · split at h
    · cases h
    · obtain rfl := Except.error.inj h
      rfl

theorem isMalformedInput_ttlOf {e : Error} (h : ttlOf t = .error e) :
    e.isMalformedInput = true := by
  unfold ttlOf at h
  split_ifs at h
  · obtain rfl := Except.error.inj h
    rfl
  · split at h
    · cases h
    · obtain rfl := Except.error.inj h
      rfl

theorem isMalformedInput_optionalOf {first : Tlv} {rest : List Tlv} {e : Error}
    (h : optionalOf first rest = .error e) : e.isMalformedInput = true := by
  unfold optionalOf at h
  dsimp only at h
  split_ifs at h
  obtain rfl := Except.error.inj h
  rfl

/-- TLVs that are not in their places are to blame for it. -/
theorem isMalformedInput_ofTlvs {e : Error} (h : ofTlvs ts = .error e) :
    e.isMalformedInput = true := by
  unfold ofTlvs at h
  split at h
  · rcases of_bind_eq_error h with h | ⟨chassis, -, h⟩
    · exact isMalformedInput_chassisOf h
    rcases of_bind_eq_error h with h | ⟨port, -, h⟩
    · exact isMalformedInput_portOf h
    rcases of_bind_eq_error h with h | ⟨ttl, -, h⟩
    · exact isMalformedInput_ttlOf h
    rcases of_bind_eq_error h with h | ⟨optional, -, h⟩
    · exact isMalformedInput_optionalOf h
    · cases h
  · obtain rfl := Except.error.inj h
    rfl

/-- **Octets that are no frame** are to blame for it, wherever reading gives up. -/
theorem isMalformedInput_decode {e : Error} (h : decode bytes = .error e) :
    e.isMalformedInput = true := by
  unfold decode at h
  split at h
  · rename_i e' htokens
    obtain rfl := Except.error.inj h
    exact Tlv.isMalformedInput_tokens htokens
  · exact isMalformedInput_ofTlvs h

/-! ### Frames within range -/

/-- **A frame within range** has two subtypes with a meaning and a time to live that
can be said. -/
theorem verify_eq_ok_iff : f.verify = .ok () ↔
    f.chassis.subtype.code.toNat ≤ maxSubtype ∧ f.port.subtype.code.toNat ≤ maxSubtype ∧
      f.ttl.secs ≤ maxTtl := by
  unfold verify
  split_ifs with hchassis hport hsecs
  · exact iff_of_false nofun (by omega)
  · exact iff_of_false nofun (by omega)
  · exact iff_of_false nofun (by omega)
  · exact iff_of_true rfl (by omega)

theorem isMalformedInput_verify {e : Error} (h : f.verify = .error e) :
    e.isMalformedInput = true := by
  unfold verify at h
  split_ifs at h
  all_goals
    obtain rfl := Except.error.inj h
    rfl

/-! ### Frames in a payload -/

/-- A frame begins with a unit, which may end before the frame does. -/
theorem exists_isUnit_of_decode (h : decode bytes = .ok f) :
    ∃ unit padding, bytes = unit ++ padding ∧ Tlv.IsUnit unit := by
  have hwritten := (encode_eq_ok_iff.1 (decode_eq_ok_iff.1 h).1).2
  exact Tlv.exists_isUnit hwritten ⟨Tlv.endMarker, by simp [tlvs], rfl⟩

/-- **A frame that is a unit** has its end marker at the end and nowhere else. -/
theorem isUnit_iff_of_encode (h : f.encode = .ok bytes) :
    Tlv.IsUnit bytes ↔ ∀ t ∈ f.optional, t.isEnd = false := by
  have hwritten := (encode_eq_ok_iff.1 h).2
  have hplaces : f.tlvs = (f.chassis.tlv :: f.port.tlv :: f.ttlTlv :: f.optional) ++
      [Tlv.endMarker] := rfl
  constructor
  · rintro ⟨ts, hnone, hunit⟩ t ht
    have hsame : f.tlvs = ts ++ [Tlv.endMarker] := Tlv.encodeAll_inj hwritten hunit
    rw [hplaces, List.append_left_inj] at hsame
    refine hnone t ?_
    rw [← hsame]
    simp [ht]
  · intro hnone
    refine ⟨_, ?_, hplaces ▸ hwritten⟩
    rw [List.forall_mem_cons, List.forall_mem_cons, List.forall_mem_cons]
    exact ⟨rfl, rfl, rfl, hnone⟩

/-! ### Both ways -/

/-- **What can be written, how long it gets, and what is read back.**  A frame can
be written exactly if both identifiers have from 1 to 510 octets, its time to live
is a whole number of at most 65535 seconds, and each optional TLV has a type of
seven bits and declares the length that its value has, of nine bits.  It then takes
the octets of its TLVs and of the end marker, and reading them gives the frame back,
with subtypes called by name: so the very same frame unless it hides a named code.
Nothing is asked of the types of optional TLVs, which may be end markers. -/
theorem reads_back (f : Frame) :
    ((∃ bytes, f.encode = .ok bytes) ↔
      (1 ≤ f.chassis.id.length ∧ f.chassis.id.length ≤ 510) ∧
      (1 ≤ f.port.id.length ∧ f.port.id.length ≤ 510) ∧
      (f.ttl.nanos = 0 ∧ f.ttl.secs ≤ 65535) ∧
      ∀ t ∈ f.optional,
        t.type.toNat ≤ 127 ∧ t.length.toNat = t.value.length ∧ t.length.toNat ≤ 511) ∧
    ∀ bytes, f.encode = .ok bytes →
      bytes.length = (2 + (1 + f.chassis.id.length)) + (2 + (1 + f.port.id.length)) + (2 + 2) +
        Tlv.wireLengths f.optional + 2 ∧
      decode bytes = .ok { f with
        chassis := { f.chassis with subtype := .ofCode f.chassis.subtype.code }
        port := { f.port with subtype := .ofCode f.port.subtype.code } } ∧
      ((∀ n, f.chassis.subtype = .other n → 7 < n.toNat) →
        (∀ n, f.port.subtype = .other n → 7 < n.toNat) → decode bytes = .ok f) := by
  have hoptional : ∀ t : Tlv, t.fault? = none ↔
      t.type.toNat ≤ 127 ∧ t.length.toNat = t.value.length ∧ t.length.toNat ≤ 511 := by
    intro t
    rw [Tlv.fault?_eq_none_iff]
    show t.type.toNat ≤ 127 ∧ _ ∧ t.value.length ≤ 511 ↔ _
    omega
  constructor
  · rw [exists_encode_iff, fault?_eq_none_iff, ← List.length_pos_iff, ← List.length_pos_iff]
    simp only [hoptional]
    constructor
    · rintro ⟨⟨hchassis, hport, hnanos, hsecs⟩, hchassis', hport', hall⟩
      exact ⟨⟨hchassis, hchassis'⟩, ⟨hport, hport'⟩, ⟨hnanos, hsecs⟩, hall⟩
    · rintro ⟨⟨hchassis, hchassis'⟩, ⟨hport, hport'⟩, ⟨hnanos, hsecs⟩, hall⟩
      exact ⟨⟨hchassis, hport, hnanos, hsecs⟩, hchassis', hport', hall⟩
  · intro bytes hwritten
    have hread := decode_of_encode hwritten
    refine ⟨length_of_encode hwritten, hread, fun hchassis hport => ?_⟩
    rw [hread, canonical_eq_self hchassis hport]

/-- A frame that gives a code without its name, and has end markers and a TLV of the
same type among its optional TLVs. -/
def nameless : Frame where
  chassis := ⟨.other 4, [0x52, 0x54, 0x00, 0xaa, 0xbb, 0xcc]⟩
  port := ⟨.other 8, [0x73]⟩
  ttl := .ofSecs 120
  optional := [.endMarker, .ofValue Tlv.endType [0x2a], .endMarker]

/-- It is written, and what is read back has the name; with the name it is itself
read back. -/
theorem nameless_reads_back :
    (∃ bytes, nameless.encode = .ok bytes ∧ bytes.length = 26 ∧
      decode bytes = .ok { nameless with chassis := ⟨.macAddress, nameless.chassis.id⟩ }) ∧
    ∃ bytes, nameless.canonical.encode = .ok bytes ∧ decode bytes = .ok nameless.canonical := by
  constructor
  · obtain ⟨hwritable, hback⟩ := reads_back nameless
    obtain ⟨bytes, hwritten⟩ := hwritable.2 (by decide)
    obtain ⟨hlength, hread, -⟩ := hback bytes hwritten
    exact ⟨bytes, hwritten, hlength, hread⟩
  · obtain ⟨hwritable, hback⟩ := reads_back nameless.canonical
    obtain ⟨bytes, hwritten⟩ := hwritable.2 (by decide)
    obtain ⟨-, -, hsame⟩ := hback bytes hwritten
    refine ⟨bytes, hwritten, hsame ?_ ?_⟩
    · rintro n ⟨⟩
    · rintro n ⟨⟩
      decide

/-- **There is one way to write what can be read.**  Octets that are read as a frame
are the octets of that frame, so no two of them are read as the same frame, and those
that can be read are those that some frame is written as. -/
theorem read_is_written :
    (∀ bytes (f : Frame), decode bytes = .ok f → f.encode = .ok bytes) ∧
      (∀ bytes bytes' f, decode bytes = .ok f → decode bytes' = .ok f → bytes = bytes') ∧
      ∀ bytes, (∃ f, decode bytes = .ok f) ↔ ∃ f : Frame, f.encode = .ok bytes := by
  have hwritten : ∀ bytes (f : Frame), decode bytes = .ok f → f.encode = .ok bytes :=
    fun bytes f h => (decode_eq_ok_iff.1 h).1
  refine ⟨hwritten, fun bytes bytes' f h h' => ?_, fun bytes => ⟨?_, ?_⟩⟩
  · have heq := (hwritten bytes f h).symm.trans (hwritten bytes' f h')
    exact Except.ok.inj heq
  · rintro ⟨f, h⟩
    exact ⟨f, hwritten bytes f h⟩
  · rintro ⟨f, h⟩
    exact ⟨f.canonical, decode_of_encode h⟩

/-- The octets of `nameless` with its name: three TLVs of type zero, one with a value,
stand before the end. -/
def namedUnit : Octets :=
  [0x02, 0x07, 0x04, 0x52, 0x54, 0x00, 0xaa, 0xbb, 0xcc, 0x04, 0x02, 0x08, 0x73, 0x06, 0x02, 0x00,
    0x78, 0x00, 0x00, 0x00, 0x01, 0x2a, 0x00, 0x00, 0x00, 0x00]

/-- They are read as the frame that they are. -/
theorem named_is_written :
    decode namedUnit = .ok nameless.canonical ∧ nameless.canonical.encode = .ok namedUnit := by
  have hread : decode namedUnit = .ok nameless.canonical := by cbv
  exact ⟨hread, read_is_written.1 namedUnit nameless.canonical hread⟩

end Frame
end Lldp
