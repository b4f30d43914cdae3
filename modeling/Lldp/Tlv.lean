/-
# Type, length, value

The unit every frame is made of: seven bits of type and nine of length in one
word, then the value.  The length is kept beside the value rather than computed
from it, so that a TLV which declares a false length can be told apart and
refused instead of being put right in silence.

`Tlv.tokens` splits octets into TLVs and `Tlv.unitLength` finds the first end
marker, which is where the padding of a short Ethernet frame begins.
-/

import Lldp.Error

namespace Lldp

/-- One TLV, which need not be fit for the wire. -/
structure Tlv where
  type : UInt8
  length : UInt16
  value : Octets
deriving DecidableEq, Repr

namespace Tlv

/-- Closes a frame. -/
def endType : UInt8 := 0
def chassisIdType : UInt8 := 1
def portIdType : UInt8 := 2
def ttlType : UInt8 := 3
def portDescriptionType : UInt8 := 4
def systemNameType : UInt8 := 5
def systemDescriptionType : UInt8 := 6
def systemCapabilitiesType : UInt8 := 7
def managementAddressType : UInt8 := 8
def organizationSpecificType : UInt8 := 127

/-- The largest type seven bits hold. -/
def maxType : Nat := 127

/-- The largest length nine bits hold. -/
def maxLength : Nat := 511

/-- A TLV that declares the length its value has, or the largest word when the
value is longer than any word says. -/
def ofValue (type : UInt8) (value : Octets) : Tlv :=
  ⟨type, UInt16.ofNat (min value.length 65535), value⟩

/-- The end marker. -/
def endMarker : Tlv := ofValue endType []

/-- Only the declared length counts. -/
def isEnd (t : Tlv) : Bool :=
  t.type = endType ∧ t.length = 0

/-- Octets on the wire: the header and the value. -/
def wireLength (t : Tlv) : Nat :=
  2 + t.value.length

/-- What keeps a TLV off the wire, if anything does. -/
def fault? (t : Tlv) : Option Error :=
  if t.type.toNat > maxType then some (.tlvType t.type)
  else if t.length.toNat ≠ t.value.length then some (.tlvLength t.length t.value.length)
  else if t.value.length > maxLength then some (.tlvSize t.value.length)
  else none

/-- Type and length in one word. -/
def header (t : Tlv) : UInt16 :=
  UInt16.ofNat (t.type.toNat * 512 + t.length.toNat)

/-- Header and value, whether or not the TLV is fit for the wire. -/
def wire (t : Tlv) : Octets :=
  Octets.ofWord t.header ++ t.value

/-- The octets of a TLV that is fit for the wire. -/
def encode (t : Tlv) : Except Error Octets :=
  match t.fault? with
  | some e => .error e
  | none => .ok t.wire

/-- Appends a TLV to a buffer.  A TLV that is refused leaves the buffer as it
was. -/
def encodeOnto (t : Tlv) (buffer : Octets) : Except Error Unit × Octets :=
  match t.encode with
  | .error e => (.error e, buffer)
  | .ok bytes => (.ok (), buffer ++ bytes)

/-- Octets of all the given TLVs, or the fault of the first unfit one. -/
def encodeAll : List Tlv → Except Error Octets
  | [] => .ok []
  | t :: ts =>
    match t.encode with
    | .error e => .error e
    | .ok bytes =>
      match encodeAll ts with
      | .error e => .error e
      | .ok rest => .ok (bytes ++ rest)

/-- Reads the TLV in front and says how many octets it took. -/
def decode : Octets → Except Error (Tlv × Nat)
  | hi :: lo :: body =>
    let word := Octets.word hi lo
    let length := word.toNat % 512
    let value := body.take length
    if value.length < length then .error (.truncated (2 + length) (2 + body.length))
    else .ok (⟨UInt8.ofNat (word.toNat / 512), UInt16.ofNat length, value⟩, 2 + length)
  | short => .error (.truncated 2 short.length)

theorem decode_used {bytes : Octets} {t : Tlv} {used : Nat} (h : decode bytes = .ok (t, used)) :
    2 ≤ used ∧ used ≤ bytes.length := by
  match bytes with
  | [] => simp [decode] at h
  | [_] => simp [decode] at h
  | hi :: lo :: body =>
    simp only [decode] at h
    split at h
    · simp at h
    · simp only [Except.ok.injEq, Prod.mk.injEq] at h
      obtain ⟨-, rfl⟩ := h
      simp only [List.length_take] at *
      simp only [List.length_cons]
      omega

/-- The octets as a sequence of TLVs, with nothing left over. -/
def tokens (bytes : Octets) : Except Error (List Tlv) :=
  if bytes.isEmpty then .ok []
  else
    match _h : decode bytes with
    | .error e => .error e
    | .ok (t, used) =>
      match tokens (bytes.drop used) with
      | .error e => .error e
      | .ok ts => .ok (t :: ts)
termination_by bytes.length
decreasing_by
  have := decode_used _h
  simp only [List.length_drop]
  omega

/-- How many octets there are up to and with the first end marker, if complete
TLVs lead to one. -/
def unitLength (bytes : Octets) : Option Nat :=
  match _h : decode bytes with
  | .error _ => none
  | .ok (t, used) =>
    if t.isEnd then some used
    else (unitLength (bytes.drop used)).map (used + ·)
termination_by bytes.length
decreasing_by
  have := decode_used _h
  simp only [List.length_drop]
  omega

end Tlv
end Lldp
