/-
# Frames

A frame is positional: chassis identifier, port identifier and time to live,
in this order, then any TLVs, then the end marker.  Reading splits the octets
into TLVs first and looks at their places afterwards, so octets that break off
are reported as such whatever the TLVs before the break are.
-/

import Lldp.Identifier
import Lldp.LinkInfo

namespace Lldp

/-- What one station says to the next. -/
structure Frame where
  chassis : ChassisId
  port : PortId
  ttl : Duration
  /-- The TLVs between time to live and end marker. -/
  optional : List Tlv
deriving DecidableEq, Repr

namespace Frame

/-- The longest time to live that two octets carry, in seconds. -/
def maxTtl : Nat := 65535

/-- The largest subtype the standard gives a meaning. -/
def maxSubtype : Nat := 7

/-- The time to live in whole seconds, as far as two octets can say it. -/
def ttlSecs (f : Frame) : Nat := min f.ttl.secs maxTtl

/-- The time to live as a TLV. -/
def ttlTlv (f : Frame) : Tlv :=
  .ofValue Tlv.ttlType (Octets.ofWord (UInt16.ofNat f.ttlSecs))

/-- All TLVs of the frame in their places. -/
def tlvs (f : Frame) : List Tlv :=
  f.chassis.tlv :: f.port.tlv :: f.ttlTlv :: (f.optional ++ [Tlv.endMarker])

/-- What keeps a frame off the wire before its TLVs are looked at. -/
def fault? (f : Frame) : Option Error :=
  if f.chassis.id.isEmpty then some .chassisAbsent
  else if f.port.id.isEmpty then some .portAbsent
  else if f.ttl.nanos ≠ 0 then some (.ttlFractional f.ttl)
  else if f.ttl.secs > maxTtl then some (.ttlTooLong f.ttl.secs maxTtl)
  else none

/-- The frame as octets. -/
def encode (f : Frame) : Except Error Octets :=
  match f.fault? with
  | some e => .error e
  | none => Tlv.encodeAll f.tlvs

/-- The chassis identifier that a TLV in the first place holds. -/
def chassisOf (t : Tlv) : Except Error ChassisId :=
  if t.type ≠ Tlv.chassisIdType then .error (.chassisType t.type)
  else
    match t.value with
    | subtype :: first :: rest => .ok ⟨.ofCode subtype, first :: rest⟩
    | short => .error (.chassisShort short.length)

/-- The port identifier that a TLV in the second place holds. -/
def portOf (t : Tlv) : Except Error PortId :=
  if t.type ≠ Tlv.portIdType then .error (.portType t.type)
  else
    match t.value with
    | subtype :: first :: rest => .ok ⟨.ofCode subtype, first :: rest⟩
    | short => .error (.portShort short.length)

/-- The time to live that a TLV in the third place holds. -/
def ttlOf (t : Tlv) : Except Error Duration :=
  if t.type ≠ Tlv.ttlType then .error (.ttlShape t.type t.length)
  else
    match t.value with
    | [hi, lo] => .ok (.ofSecs (Octets.word hi lo).toNat)
    | _ => .error (.ttlShape t.type t.length)

/-- The TLVs before the end marker. -/
def optionalOf (first : Tlv) (rest : List Tlv) : Except Error (List Tlv) :=
  let last := rest.getLastD first
  if last.isEnd then .ok (first :: rest).dropLast
  else .error (.endShape last.type last.length)

/-- Puts TLVs in their places. -/
def ofTlvs : List Tlv → Except Error Frame
  | first :: second :: third :: fourth :: rest => do
    let chassis ← chassisOf first
    let port ← portOf second
    let ttl ← ttlOf third
    let optional ← optionalOf fourth rest
    return { chassis, port, ttl, optional }
  | few => .error (.tooFewTlvs few.length)

/-- Reads a frame that takes up all of the octets. -/
def decode (bytes : Octets) : Except Error Frame :=
  match Tlv.tokens bytes with
  | .error e => .error e
  | .ok ts => ofTlvs ts

/-- What the optional TLVs say. -/
def linkInfo (f : Frame) : LinkInfo := .ofTlvs f.optional

/-- Whether the values of a frame in good form are within range. -/
def verify (f : Frame) : Except Error Unit :=
  if f.chassis.subtype.code.toNat > maxSubtype then
    .error (.chassisSubtype f.chassis.subtype.code)
  else if f.port.subtype.code.toNat > maxSubtype then
    .error (.portSubtype f.port.subtype.code)
  else if f.ttl.secs > maxTtl then .error (.ttlRange f.ttl.secs)
  else .ok ()

end Frame
end Lldp
