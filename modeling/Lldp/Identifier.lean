/-
# Chassis and port identifiers

An identifier is a subtype and some octets, and the subtype says how the octets
are to be read: as a MAC address, as a network address after a byte for its
family, as text, or as nothing anyone knows, which is shown in hexadecimal.  An
identifier that does not fit its form is shown in hexadecimal too.

A subtype is one of the eight named ones or `other`.  `ofCode` never makes an
`other` of a code that has a name, but nothing forbids one: it has the same code
on the wire and is still a different subtype, without a form.
-/

import Lldp.Address
import Lldp.Text.Utf8
import Lldp.Tlv

namespace Lldp

/-- How the octets of an identifier are to be read. -/
inductive IdForm where
  | mac
  | network
  | text
  | octets
deriving DecidableEq, Repr

namespace IdForm

/-- The octets after the family byte of a network address. -/
def networkText (id : Octets) : String :=
  match id with
  | [1, a, b, c, d] => Address.ipv4 a b c d
  | 2 :: address => if address.length = 16 then Address.ipv6 address else Hex.encode id
  | _ => Hex.encode id

/-- The octets as a person reads them. -/
def render (form : IdForm) (id : Octets) : String :=
  match form with
  | .mac =>
    match Mac.ofOctets? id with
    | some m => m.text
    | none => Hex.encode id
  | .network => networkText id
  | .text => Utf8.decode id
  | .octets => Hex.encode id

end IdForm

/-- What a chassis is identified by. -/
inductive ChassisSubtype where
  | reserved
  | chassisComponent
  | interfaceAlias
  | portComponent
  | macAddress
  | networkAddress
  | interfaceName
  | locallyAssigned
  | other (code : UInt8)
deriving DecidableEq, Repr

namespace ChassisSubtype

/-- The octet on the wire. -/
def code : ChassisSubtype → UInt8
  | reserved => 0
  | chassisComponent => 1
  | interfaceAlias => 2
  | portComponent => 3
  | macAddress => 4
  | networkAddress => 5
  | interfaceName => 6
  | locallyAssigned => 7
  | other n => n

/-- The named subtype of a code, if it has one. -/
def ofCode (n : UInt8) : ChassisSubtype :=
  match n with
  | 0 => reserved
  | 1 => chassisComponent
  | 2 => interfaceAlias
  | 3 => portComponent
  | 4 => macAddress
  | 5 => networkAddress
  | 6 => interfaceName
  | 7 => locallyAssigned
  | n => other n

def form : ChassisSubtype → IdForm
  | macAddress => .mac
  | networkAddress => .network
  | reserved | other _ => .octets
  | chassisComponent | interfaceAlias | portComponent | interfaceName | locallyAssigned => .text

end ChassisSubtype

/-- What a port is identified by. -/
inductive PortSubtype where
  | reserved
  | interfaceAlias
  | portComponent
  | macAddress
  | networkAddress
  | interfaceName
  | agentCircuitId
  | locallyAssigned
  | other (code : UInt8)
deriving DecidableEq, Repr

namespace PortSubtype

/-- The octet on the wire. -/
def code : PortSubtype → UInt8
  | reserved => 0
  | interfaceAlias => 1
  | portComponent => 2
  | macAddress => 3
  | networkAddress => 4
  | interfaceName => 5
  | agentCircuitId => 6
  | locallyAssigned => 7
  | other n => n

/-- The named subtype of a code, if it has one. -/
def ofCode (n : UInt8) : PortSubtype :=
  match n with
  | 0 => reserved
  | 1 => interfaceAlias
  | 2 => portComponent
  | 3 => macAddress
  | 4 => networkAddress
  | 5 => interfaceName
  | 6 => agentCircuitId
  | 7 => locallyAssigned
  | n => other n

def form : PortSubtype → IdForm
  | macAddress => .mac
  | networkAddress => .network
  | reserved | agentCircuitId | other _ => .octets
  | interfaceAlias | portComponent | interfaceName | locallyAssigned => .text

end PortSubtype

/-- Identifies the station that sends a frame. -/
structure ChassisId where
  subtype : ChassisSubtype
  id : Octets
deriving DecidableEq, Repr

namespace ChassisId

/-- A station known by its address. -/
def ofMac (m : Mac) : ChassisId := ⟨.macAddress, m.toOctets⟩

def text (c : ChassisId) : String := c.subtype.form.render c.id

def tlv (c : ChassisId) : Tlv := .ofValue Tlv.chassisIdType (c.subtype.code :: c.id)

end ChassisId

/-- Identifies the port that a frame leaves by. -/
structure PortId where
  subtype : PortSubtype
  id : Octets
deriving DecidableEq, Repr

namespace PortId

/-- A port known by the name of its interface. -/
def ofInterface (name : String) : PortId := ⟨.interfaceName, Utf8.encode name⟩

def text (p : PortId) : String := p.subtype.form.render p.id

def tlv (p : PortId) : Tlv := .ofValue Tlv.portIdType (p.subtype.code :: p.id)

end PortId
end Lldp
