/-
# TLVs read and written

Writing a TLV and reading it are inverse to each other, one TLV at a time and in
sequence.  One that is fit for the wire is read back from the front of whatever
follows it (`Tlv.decode_wire`), and whatever is read from the front of some
octets is fit for the wire and was written there (`Tlv.of_decode`).  So octets
split into certain TLVs exactly if these TLVs are written as those octets
(`Tlv.tokens_eq_ok_iff`): there is one way to write a sequence of TLVs and one
way to read it.

The end marker splits octets once more.  `Tlv.IsUnit` says of octets, without a
word on how they are scanned, that complete TLVs lead to an end marker and that
it is the first and the last thing of its kind in them; what
`Tlv.unitLength` finds is the one such unit that the octets begin with
(`Tlv.unitLength_eq_some_iff`).
-/

import Lldp.Tlv
import Mathlib.Tactic.SplitIfs

namespace Lldp
namespace Tlv

variable {t : Tlv} {ts : List Tlv} {type : UInt8} {value bytes : Octets}

/-! ### What is fit for the wire -/

/-- **A TLV is fit for the wire** if its type takes seven bits, its length nine,
and its length is what it says. -/
theorem fault?_eq_none_iff : t.fault? = none ↔
    t.type.toNat ≤ maxType ∧ t.length.toNat = t.value.length ∧ t.value.length ≤ maxLength := by
  unfold fault?
  split_ifs with htype hlength hsize
  · exact iff_of_false nofun (by omega)
  · exact iff_of_false nofun (by omega)
  · exact iff_of_false nofun (by omega)
  · exact iff_of_true rfl (by omega)

theorem length_ofValue : (ofValue type value).length.toNat = min value.length 65535 := by
  show (UInt16.ofNat (min value.length 65535)).toNat = _
  rw [UInt16.toNat_ofNat']
  omega

/-- **A TLV made for its value** is fit for the wire if type and value are short
enough. -/
theorem fault?_ofValue :
    (ofValue type value).fault? = none ↔ type.toNat ≤ maxType ∧ value.length ≤ maxLength := by
  rw [fault?_eq_none_iff, length_ofValue]
  show type.toNat ≤ maxType ∧ min value.length 65535 = value.length ∧ value.length ≤ maxLength ↔ _
  have hword : maxLength ≤ 65535 := by decide
  constructor
  · rintro ⟨htype, -, hsize⟩
    exact ⟨htype, hsize⟩
  · rintro ⟨htype, hsize⟩
    exact ⟨htype, by omega, hsize⟩

/-- A TLV that is fit for the wire is the one made for its value. -/
theorem ofValue_value (h : t.fault? = none) : ofValue t.type t.value = t := by
  obtain ⟨-, hlength, hsize⟩ := fault?_eq_none_iff.1 h
  have hword : maxLength ≤ 65535 := by decide
  obtain ⟨type, length, value⟩ := t
  rw [ofValue, Tlv.mk.injEq]
  refine ⟨rfl, UInt16.toNat_inj.1 ?_, rfl⟩
  rw [UInt16.toNat_ofNat']
  dsimp only at hlength hsize ⊢
  omega

/-- The one end marker that is fit for the wire. -/
theorem eq_endMarker (h : t.fault? = none) (hend : t.isEnd = true) : t = endMarker := by
  obtain ⟨htype, hlength⟩ : t.type = endType ∧ t.length = 0 := by simpa [isEnd] using hend
  have hvalue : t.value = [] := by
    have hsame := (fault?_eq_none_iff.1 h).2.1
    rw [hlength] at hsame
    exact List.eq_nil_of_length_eq_zero hsame.symm
  rw [← ofValue_value h, htype, hvalue, endMarker]

theorem fault?_endMarker : endMarker.fault? = none := rfl

/-! ### One TLV -/

/-- Type and length share a word and do not touch. -/
theorem toNat_header (h : t.fault? = none) :
    t.header.toNat = t.type.toNat * 512 + t.length.toNat := by
  obtain ⟨htype, hlength, hsize⟩ := fault?_eq_none_iff.1 h
  have h7 : maxType = 127 := rfl
  have h9 : maxLength = 511 := rfl
  rw [header, UInt16.toNat_ofNat']
  omega

theorem length_wire : t.wire.length = t.wireLength := by
  rw [wire, List.length_append, Octets.length_ofWord, wireLength]

theorem wire_ne_nil : t.wire ≠ [] := by
  simp [wire, Octets.ofWord]

/-- **A TLV that was written is read back**, whatever follows it. -/
theorem decode_wire (h : t.fault? = none) (rest : Octets) :
    decode (t.wire ++ rest) = .ok (t, t.wireLength) := by
  obtain ⟨htype, hlength, hsize⟩ := fault?_eq_none_iff.1 h
  have h7 : maxType = 127 := rfl
  have h9 : maxLength = 511 := rfl
  have hword := toNat_header h
  have hdiv : t.header.toNat / 512 = t.type.toNat := by omega
  have hmod : t.header.toNat % 512 = t.value.length := by omega
  show decode (UInt8.ofNat (t.header.toNat / 256) :: UInt8.ofNat (t.header.toNat % 256) ::
    (t.value ++ rest)) = _
  simp only [decode, Octets.word_ofNat, hdiv, hmod, List.take_left, Nat.lt_irrefl, if_false]
  rw [UInt8.ofNat_toNat, ← hlength, UInt16.ofNat_toNat, wireLength, hlength]

/-- **What is read was written.**  A TLV that is read from the front is fit for the
wire, and the octets it took are those it is written as. -/
theorem of_decode {used : Nat} (h : decode bytes = .ok (t, used)) :
    t.fault? = none ∧ used = t.wireLength ∧ bytes = t.wire ++ bytes.drop used := by
  match bytes with
  | [] => simp [decode] at h
  | [_] => simp [decode] at h
  | hi :: lo :: body =>
    have hword := (Octets.word hi lo).toNat_lt
    simp only [decode] at h
    generalize hlen : (Octets.word hi lo).toNat % 512 = length at h
    split_ifs at h with hshort
    have hvalue : (body.take length).length = length := by
      rw [List.length_take] at hshort ⊢
      omega
    simp only [Except.ok.injEq, Prod.mk.injEq] at h
    obtain ⟨rfl, rfl⟩ := h
    have htype : (UInt8.ofNat ((Octets.word hi lo).toNat / 512)).toNat =
        (Octets.word hi lo).toNat / 512 := by
      rw [UInt8.toNat_ofNat']
      omega
    have hlength : (UInt16.ofNat length).toNat = length := by
      rw [UInt16.toNat_ofNat']
      omega
    have hheader : header ⟨UInt8.ofNat ((Octets.word hi lo).toNat / 512), UInt16.ofNat length,
        body.take length⟩ = Octets.word hi lo := by
      rw [header, htype, hlength, ← hlen, Nat.div_add_mod', UInt16.ofNat_toNat]
    refine ⟨fault?_eq_none_iff.2 ⟨?_, ?_, ?_⟩, ?_, ?_⟩
    · show (UInt8.ofNat _).toNat ≤ 127
      omega
    · show (UInt16.ofNat length).toNat = (body.take length).length
      omega
    · show (body.take length).length ≤ 511
      omega
    · rw [wireLength, hvalue]
    · rw [wire, hheader, Octets.ofWord_word, Nat.add_comm 2 length]
      show hi :: lo :: body = hi :: lo :: (body.take length ++ body.drop length)
      rw [List.take_append_drop]

/-- Octets that no TLV can be read from end too soon. -/
theorem isMalformedInput_decode {e : Error} (h : decode bytes = .error e) :
    e.isMalformedInput = true := by
  unfold decode at h
  split at h
  · dsimp only at h
    split_ifs at h
    obtain rfl := Except.error.inj h
    rfl
  · obtain rfl := Except.error.inj h
    rfl

/-! ### Many TLVs -/

/-- **TLVs are written one after another**, if each of them is fit for the wire. -/
theorem encodeAll_eq_ok_iff :
    encodeAll ts = .ok bytes ↔ (∀ t ∈ ts, t.fault? = none) ∧ bytes = ts.flatMap wire := by
  induction ts generalizing bytes with
  | nil => simp [encodeAll, eq_comm]
  | cons t ts ih =>
    rw [List.forall_mem_cons, List.flatMap_cons, encodeAll, encode]
    cases ht : t.fault? with
    | some e => simp
    | none =>
      cases hts : encodeAll ts with
      | error e =>
        have hnot : ¬∀ u ∈ ts, u.fault? = none := by
          intro hall
          have hok := ih.2 ⟨hall, rfl⟩
          rw [hts] at hok
          cases hok
        simp [hnot]
      | ok rest =>
        obtain ⟨hall, rfl⟩ := ih.1 hts
        rw [Except.ok.injEq]
        exact ⟨fun h => ⟨⟨rfl, hall⟩, h.symm⟩, fun h => h.2.symm⟩

/-- **TLVs are written together exactly if each is fit for the wire.** -/
theorem exists_encodeAll_iff :
    (∃ bytes, encodeAll ts = .ok bytes) ↔ ∀ t ∈ ts, t.fault? = none := by
  simp [encodeAll_eq_ok_iff]

/-- The octets that TLVs take on the wire. -/
def wireLengths : List Tlv → Nat
  | [] => 0
  | t :: ts => t.wireLength + wireLengths ts

theorem wireLengths_append {us : List Tlv} :
    wireLengths (ts ++ us) = wireLengths ts + wireLengths us := by
  induction ts with
  | nil => simp [wireLengths]
  | cons t ts ih => rw [List.cons_append, wireLengths, wireLengths, ih, Nat.add_assoc]

theorem length_flatMap_wire : (ts.flatMap wire).length = wireLengths ts := by
  induction ts with
  | nil => rfl
  | cons t ts ih => rw [List.flatMap_cons, List.length_append, length_wire, ih, wireLengths]

theorem tokens_nil : tokens [] = .ok [] := by
  rw [tokens]
  rfl

/-- The first of many TLVs is split off. -/
theorem tokens_wire (h : t.fault? = none) (rest : Octets) :
    tokens (t.wire ++ rest) = (tokens rest).map (t :: ·) := by
  have hempty : (t.wire ++ rest).isEmpty = false := by
    rw [List.isEmpty_eq_false_iff]
    exact List.append_ne_nil_of_left_ne_nil wire_ne_nil rest
  rw [tokens, hempty]
  simp only [Bool.false_eq_true, if_false]
  split
  · rename_i e hdecode
    rw [decode_wire h] at hdecode
    cases hdecode
  · rename_i u used hdecode
    rw [decode_wire h] at hdecode
    obtain ⟨rfl, rfl⟩ := Prod.mk.inj (Except.ok.inj hdecode)
    rw [← length_wire, List.drop_left]
    cases tokens rest with
    | error e => rfl
    | ok ts => rfl

/-- Where no TLV can be read, octets do not split. -/
theorem tokens_of_error {e : Error} (hne : bytes ≠ []) (h : decode bytes = .error e) :
    tokens bytes = .error e := by
  rw [tokens, if_neg (by simpa using hne)]
  split
  · rename_i e' hdecode
    rw [h] at hdecode
    exact congrArg Except.error (Except.error.inj hdecode).symm
  · rename_i u used hdecode
    rw [h] at hdecode
    cases hdecode

/-- **Octets split into TLVs in one way**, the one in which these are written. -/
theorem tokens_eq_ok_iff : tokens bytes = .ok ts ↔ encodeAll ts = .ok bytes := by
  rw [encodeAll_eq_ok_iff]
  constructor
  · intro h
    -- The induction is on what is left to be split, as the splitting itself is.
    induction bytes using tokens.induct generalizing ts with
    | case1 bytes hempty =>
      obtain rfl := List.isEmpty_iff.1 hempty
      rw [tokens_nil] at h
      obtain rfl := Except.ok.inj h
      exact ⟨by simp, rfl⟩
    | case2 bytes hfull e hdecode =>
      rw [tokens_of_error (by simpa using hfull) hdecode] at h
      cases h
    | case3 bytes hfull t used hdecode e htokens =>
      obtain ⟨hfit, -, hbytes⟩ := of_decode hdecode
      rw [hbytes, tokens_wire hfit, htokens] at h
      cases h
    | case4 bytes hfull t used hdecode rest htokens ih =>
      obtain ⟨hfit, -, hbytes⟩ := of_decode hdecode
      rw [hbytes, tokens_wire hfit, htokens] at h
      obtain rfl := Except.ok.inj h
      obtain ⟨hall, hrest⟩ := ih htokens
      refine ⟨List.forall_mem_cons.2 ⟨hfit, hall⟩, ?_⟩
      rw [List.flatMap_cons, ← hrest]
      exact hbytes
  · rintro ⟨hall, rfl⟩
    induction ts with
    | nil => exact tokens_nil
    | cons t ts ih =>
      rw [List.forall_mem_cons] at hall
      rw [List.flatMap_cons, tokens_wire hall.1, ih hall.2]
      rfl

/-- Different TLVs are written differently. -/
theorem encodeAll_inj {us : List Tlv} (h : encodeAll ts = .ok bytes)
    (h' : encodeAll us = .ok bytes) : ts = us :=
  Except.ok.inj ((tokens_eq_ok_iff.2 h).symm.trans (tokens_eq_ok_iff.2 h'))

theorem isMalformedInput_tokens {e : Error} (h : tokens bytes = .error e) :
    e.isMalformedInput = true := by
  induction bytes using tokens.induct with
  | case1 bytes hempty =>
    obtain rfl := List.isEmpty_iff.1 hempty
    rw [tokens_nil] at h
    cases h
  | case2 bytes hfull e' hdecode =>
    rw [tokens_of_error (by simpa using hfull) hdecode] at h
    obtain rfl := Except.error.inj h
    exact isMalformedInput_decode hdecode
  | case3 bytes hfull t used hdecode e' htokens ih =>
    obtain ⟨hfit, -, hbytes⟩ := of_decode hdecode
    rw [hbytes, tokens_wire hfit, htokens] at h
    obtain rfl := Except.error.inj h
    exact ih htokens
  | case4 bytes hfull t used hdecode rest htokens =>
    obtain ⟨hfit, -, hbytes⟩ := of_decode hdecode
    rw [hbytes, tokens_wire hfit, htokens] at h
    cases h

/-! ### The first end marker -/

/-- Complete TLVs, none of them an end marker, and then the end marker. -/
def IsUnit (unit : Octets) : Prop :=
  ∃ ts, (∀ t ∈ ts, t.isEnd = false) ∧ encodeAll (ts ++ [endMarker]) = .ok unit

theorem isUnit_endMarker : IsUnit endMarker.wire := ⟨[], by simp, rfl⟩

/-- A unit may begin with one more TLV, if that is no end marker. -/
theorem IsUnit.cons {unit : Octets} (h : IsUnit unit) (hfit : t.fault? = none)
    (hmore : t.isEnd = false) : IsUnit (t.wire ++ unit) := by
  obtain ⟨ts, hnone, hwritten⟩ := h
  refine ⟨t :: ts, List.forall_mem_cons.2 ⟨hmore, hnone⟩, ?_⟩
  rw [← tokens_eq_ok_iff] at hwritten ⊢
  rw [tokens_wire hfit, hwritten]
  rfl

/-- TLVs with an end marker among them begin with a unit. -/
theorem exists_isUnit (h : encodeAll ts = .ok bytes) (hend : ∃ t ∈ ts, t.isEnd = true) :
    ∃ unit padding, bytes = unit ++ padding ∧ IsUnit unit := by
  obtain ⟨hfit, rfl⟩ := encodeAll_eq_ok_iff.1 h
  obtain ⟨marker, hfirst⟩ := Option.isSome_iff_exists.1 (List.find?_isSome.2 hend)
  obtain ⟨hmarker, before, after, rfl, hbefore⟩ := List.find?_eq_some_iff_append.1 hfirst
  obtain rfl := eq_endMarker (hfit marker (by simp)) hmarker
  have hwritten : encodeAll (before ++ [endMarker]) =
      .ok ((before ++ [endMarker]).flatMap wire) := by
    refine encodeAll_eq_ok_iff.2 ⟨fun t ht => hfit t ?_, rfl⟩
    rcases List.mem_append.1 ht with ht | ht
    · exact List.mem_append_left _ ht
    · exact List.mem_append_right _ (List.mem_cons.2 (Or.inl (List.mem_singleton.1 ht)))
  refine ⟨_, after.flatMap wire, ?_, before, ?_, hwritten⟩
  · rw [← List.flatMap_append, List.append_assoc, List.singleton_append]
  · simpa using hbefore

theorem unitLength_of_error {e : Error} (h : decode bytes = .error e) :
    unitLength bytes = none := by
  rw [unitLength]
  split
  · rfl
  · rename_i u used hdecode
    rw [h] at hdecode
    cases hdecode

/-- An end marker ends the search, and any other TLV is passed over. -/
theorem unitLength_wire (h : t.fault? = none) (rest : Octets) :
    unitLength (t.wire ++ rest) =
      if t.isEnd then some t.wireLength else (unitLength rest).map (t.wireLength + ·) := by
  rw [unitLength]
  split
  · rename_i e hdecode
    rw [decode_wire h] at hdecode
    cases hdecode
  · rename_i u used hdecode
    rw [decode_wire h] at hdecode
    obtain ⟨rfl, rfl⟩ := Prod.mk.inj (Except.ok.inj hdecode)
    rw [← length_wire, List.drop_left]

/-- **What leads to the first end marker** is the one unit that the octets begin
with, and if they begin with none, nothing does. -/
theorem unitLength_eq_some_iff {n : Nat} : unitLength bytes = some n ↔
    ∃ unit padding, bytes = unit ++ padding ∧ unit.length = n ∧ IsUnit unit := by
  constructor
  · intro h
    induction bytes using unitLength.induct generalizing n with
    | case1 bytes e hdecode =>
      rw [unitLength_of_error hdecode] at h
      cases h
    | case2 bytes t used hdecode hend =>
      obtain ⟨hfit, -, hbytes⟩ := of_decode hdecode
      rw [hbytes, unitLength_wire hfit, if_pos hend] at h
      obtain rfl := Option.some.inj h
      refine ⟨t.wire, _, hbytes, length_wire, ?_⟩
      rw [eq_endMarker hfit hend]
      exact isUnit_endMarker
    | case3 bytes t used hdecode hmore ih =>
      obtain ⟨hfit, -, hbytes⟩ := of_decode hdecode
      rw [hbytes, unitLength_wire hfit, if_neg hmore] at h
      obtain ⟨m, hm, rfl⟩ := Option.map_eq_some_iff.1 h
      obtain ⟨unit, padding, hsplit, rfl, hunit⟩ := ih hm
      refine ⟨t.wire ++ unit, padding, ?_, ?_, hunit.cons hfit (Bool.eq_false_iff.2 hmore)⟩
      · rw [List.append_assoc, ← hsplit]
        exact hbytes
      · rw [List.length_append, length_wire]
  · rintro ⟨unit, padding, rfl, rfl, ts, hnone, hwritten⟩
    obtain ⟨hfit, rfl⟩ := encodeAll_eq_ok_iff.1 hwritten
    clear hwritten
    induction ts with
    | nil => exact unitLength_wire fault?_endMarker padding
    | cons t ts ih =>
      rw [List.forall_mem_cons] at hnone
      rw [List.cons_append, List.forall_mem_cons] at hfit
      have hrest := ih hnone.2 hfit.2
      rw [List.cons_append, List.flatMap_cons, List.append_assoc, unitLength_wire hfit.1, hnone.1,
        hrest, List.length_append, length_wire]
      rfl

end Tlv
end Lldp
