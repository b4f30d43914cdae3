/-
# The code of TLVs

`Lldp.Proofs.Tlv` shows writing and reading to be inverse to each other; here is
what that makes of them, on each side down to the case that fails.  A TLV is
refused on the way out for what it is and then leaves no octet behind
(`Tlv.encode_eq_ok_iff`, `Tlv.encodeOnto_of_error`).  Octets are refused on the
way in for one reason, that they end before the TLV does which their header
announces, and what is reported is where it would have ended
(`Tlv.decode_eq_error_iff`).  Reading has only the header to go by, seven bits of
type and nine of length that meet inside its first octet (`Tlv.ofWord_header`).

A sequence is written TLV by TLV, each on its own, and `Tlv.tokens_flatten` reads
it back from the pieces put together.
-/

import Lldp.Proofs.Tlv
import Mathlib.Data.List.Forall2

namespace Lldp
namespace Tlv

variable {t : Tlv} {ts : List Tlv} {bytes : Octets} {pieces : List Octets} {e : Error}

/-- How many octets the TLV in front takes by its header, whose nine low bits are the length
of its value, or the header alone while there is no more to go by. -/
def needed : Octets → Nat
  | [] => 2
  | [_] => 2
  | hi :: lo :: _ => 2 + (hi.toNat * 256 + lo.toNat) % 512

/-! ### Out -/

/-- The lowest bit of the first octet is the highest of the length. -/
theorem ofWord_header (h : t.fault? = none) : Octets.ofWord t.header =
    [UInt8.ofNat (t.type.toNat * 2 + t.value.length / 256), UInt8.ofNat (t.value.length % 256)] := by
  obtain ⟨-, hlength, -⟩ := fault?_eq_none_iff.1 h
  have hhigh : (t.type.toNat * 512 + t.length.toNat) / 256 =
      t.type.toNat * 2 + t.value.length / 256 := by omega
  have hlow : (t.type.toNat * 512 + t.length.toNat) % 256 = t.value.length % 256 := by omega
  rw [Octets.ofWord, toNat_header h, hhigh, hlow]

/-- A TLV is written as its octets on the wire, if it is fit for it. -/
theorem encode_eq_ok_iff : t.encode = .ok bytes ↔ t.fault? = none ∧ bytes = t.wire := by
  rw [encode]
  cases t.fault? with
  | some e => simp
  | none => simp [eq_comm]

/-- A TLV that is written goes to the end of the buffer. -/
theorem encodeOnto_of_ok (h : t.encode = .ok bytes) (buffer : Octets) :
    t.encodeOnto buffer = (.ok (), buffer ++ bytes) := by
  rw [encodeOnto, h]

/-- A TLV that is refused leaves the buffer as it was. -/
theorem encodeOnto_of_error (h : t.encode = .error e) (buffer : Octets) :
    t.encodeOnto buffer = (.error e, buffer) := by
  rw [encodeOnto, h]

/-! ### In -/

/-- **Octets are refused exactly if they end before their first TLV does.** -/
theorem decode_eq_error_iff : decode bytes = .error e ↔
    bytes.length < needed bytes ∧ e = .truncated (needed bytes) bytes.length := by
  rcases bytes with _ | ⟨hi, _ | ⟨lo, body⟩⟩
  · simp [decode, needed, eq_comm]
  · simp [decode, needed, eq_comm]
  · have hhi := hi.toNat_lt
    have hlo := lo.toNat_lt
    have hword : (Octets.word hi lo).toNat = hi.toNat * 256 + lo.toNat := by
      rw [Octets.word, UInt16.toNat_ofNat']
      omega
    simp only [decode, needed, hword, List.length_take, List.length_cons]
    generalize (hi.toNat * 256 + lo.toNat) % 512 = length
    split_ifs with hshort
    · have hless : body.length + 1 + 1 < 2 + length := by omega
      rw [Except.error.injEq, Nat.add_comm 2 body.length]
      exact ⟨fun h => ⟨hless, h.symm⟩, fun h => h.2.symm⟩
    · exact iff_of_false (fun h => by cases h) (by omega)

/-- **What was read was written**, as far as the reading went. -/
theorem encode_of_decode {used : Nat} (h : decode bytes = .ok (t, used)) :
    t.encode = .ok (bytes.take used) := by
  obtain ⟨hfit, hused, hbytes⟩ := of_decode h
  refine encode_eq_ok_iff.2 ⟨hfit, ?_⟩
  rw [hused, ← length_wire] at hbytes ⊢
  rw [hbytes, List.take_left]

/-! ### In sequence -/

/-- TLVs written one by one are written together. -/
theorem encodeAll_of_forall₂ (h : List.Forall₂ (fun t piece => t.encode = .ok piece) ts pieces) :
    encodeAll ts = .ok pieces.flatten := by
  induction h with
  | nil => rfl
  | cons hpiece _ ih =>
    rw [encodeAll, hpiece, ih]
    rfl

/-- **A sequence of TLVs is read back** from the pieces it was written in. -/
theorem tokens_flatten (h : List.Forall₂ (fun t piece => t.encode = .ok piece) ts pieces) :
    tokens pieces.flatten = .ok ts :=
  tokens_eq_ok_iff.2 (encodeAll_of_forall₂ h)

/-- TLVs are written in one way. -/
theorem rightUnique_encode : Relator.RightUnique fun (t : Tlv) piece => t.encode = .ok piece :=
  fun _ _ _ h h' => Except.ok.inj (h.symm.trans h')

/-- **The code of TLVs is exact on both sides.**  Which TLVs are written, as what,
and what that does to a buffer; which octets are read and what is said of the
others; and that the one is the inverse of the other: for a TLV before any octets,
for the first octets of any, and for sequences, since no other sequence is written
as the same octets. -/
theorem written_and_read_exactly :
    (∀ (t : Tlv) (bytes : Octets), t.encode = .ok bytes ↔
      (t.type.toNat ≤ 127 ∧ t.length.toNat = t.value.length ∧ t.value.length ≤ 511) ∧
      bytes = UInt8.ofNat (t.type.toNat * 2 + t.value.length / 256) ::
        UInt8.ofNat (t.value.length % 256) :: t.value) ∧
    (∀ (t : Tlv) (buffer : Octets),
      (∀ bytes, t.encode = .ok bytes → t.encodeOnto buffer = (.ok (), buffer ++ bytes)) ∧
      ∀ e, t.encode = .error e → t.encodeOnto buffer = (.error e, buffer)) ∧
    (∀ (t : Tlv) (bytes rest : Octets), t.encode = .ok bytes →
      decode (bytes ++ rest) = .ok (t, 2 + t.value.length)) ∧
    (∀ (bytes : Octets) (t : Tlv) (used : Nat), decode bytes = .ok (t, used) →
      used ≤ bytes.length ∧ t.encode = .ok (bytes.take used)) ∧
    (∀ (bytes : Octets) (e : Error), decode bytes = .error e ↔
      (bytes.length < 2 ∧ e = .truncated 2 bytes.length) ∨
      ∃ hi lo body, bytes = hi :: lo :: body ∧
        bytes.length < 2 + (hi.toNat * 256 + lo.toNat) % 512 ∧
        e = .truncated (2 + (hi.toNat * 256 + lo.toNat) % 512) bytes.length) ∧
    ∀ (ts : List Tlv) (pieces : List Octets),
      List.Forall₂ (fun t piece => t.encode = .ok piece) ts pieces →
      tokens pieces.flatten = .ok ts ∧
      ∀ (us : List Tlv) (others : List Octets),
        List.Forall₂ (fun t piece => t.encode = .ok piece) us others →
        others.flatten = pieces.flatten → us = ts ∧ others = pieces := by
  refine ⟨?written, fun t buffer => ⟨fun bytes h => encodeOnto_of_ok h buffer,
    fun e h => encodeOnto_of_error h buffer⟩, ?back, ?read, ?refused, ?sequence⟩
  case written =>
    intro t bytes
    rw [encode_eq_ok_iff, fault?_eq_none_iff]
    refine and_congr_right fun hfit => ?_
    rw [wire, ofWord_header (fault?_eq_none_iff.2 hfit)]
    rfl
  case back =>
    intro t bytes rest h
    obtain ⟨hfit, rfl⟩ := encode_eq_ok_iff.1 h
    exact decode_wire hfit rest
  case read =>
    intro bytes t used h
    exact ⟨(decode_used h).2, encode_of_decode h⟩
  case refused =>
    intro bytes e
    rw [decode_eq_error_iff]
    rcases bytes with _ | ⟨hi, _ | ⟨lo, body⟩⟩
    · simp [needed]
    · simp [needed]
    · constructor
      · intro h
        exact Or.inr ⟨hi, lo, body, rfl, h⟩
      · rintro (⟨hshort, -⟩ | ⟨hi', lo', body', heq, h⟩)
        · simp only [List.length_cons] at hshort
          omega
        · obtain ⟨rfl, rfl, rfl⟩ : hi = hi' ∧ lo = lo' ∧ body = body' := by simpa using heq
          exact h
  case sequence =>
    intro ts pieces h
    refine ⟨tokens_flatten h, fun us others h' hsame => ?_⟩
    have hothers := encodeAll_of_forall₂ h'
    rw [hsame] at hothers
    obtain rfl := encodeAll_inj hothers (encodeAll_of_forall₂ h)
    exact ⟨rfl, rightUnique_encode.forall₂ h' h⟩

/-- A value of 300 octets, whose length reaches into the first octet of the header:
it is written after what a buffer holds, and read back from before an end marker
as well as in sequence with it.  Cut short it is refused. -/
theorem long_value_written_and_read :
    let long : Tlv := ⟨127, 300, List.replicate 300 0xab⟩
    let bytes : Octets := 0xff :: 0x2c :: List.replicate 300 0xab
    long.encodeOnto [0x01] = (.ok (), 0x01 :: bytes) ∧
    { long with length := 299 }.encodeOnto [0x01] = (.error (.tlvLength 299 300), [0x01]) ∧
    decode (bytes ++ [0x00, 0x00]) = .ok (long, 302) ∧
    long.encode = .ok ((bytes ++ [0x00, 0x00]).take 302) ∧
    decode (bytes.take 3) = .error (.truncated 302 3) ∧
    tokens (bytes ++ [0x00, 0x00]) = .ok [long, endMarker] := by
  intro long bytes
  obtain ⟨written, onto, back, read, refused, sequence⟩ := written_and_read_exactly
  have hlong : long.encode = .ok bytes := (written long bytes).2 (by decide +kernel)
  have hend : endMarker.encode = .ok [0x00, 0x00] := (written endMarker _).2 (by decide)
  have hfalse : { long with length := 299 }.encode = .error (.tlvLength 299 300) := by
    decide +kernel
  have hback : decode (bytes ++ [0x00, 0x00]) = .ok (long, 302) := by
    rw [back long bytes _ hlong, List.length_replicate]
  refine ⟨(onto long _).1 bytes hlong, (onto _ _).2 _ hfalse, hback, (read _ _ _ hback).2, ?_, ?_⟩
  · exact (refused _ _).2 (Or.inr ⟨0xff, 0x2c, [0xab], by decide⟩)
  · exact (sequence [long, endMarker] [bytes, [0x00, 0x00]] (.cons hlong (.cons hend .nil))).1

end Tlv
end Lldp
