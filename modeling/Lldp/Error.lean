/-
# What can go wrong

Each constructor is one cause.  What a caller sees of it is its kind, which
says what part of the work failed, and its message, which is the kind's heading
followed by the particulars.  A kind also tells whether the fault lies with a
frame from outside: such a frame is dropped and nothing else happens.
-/

import Lldp.Duration
import Lldp.Mac

namespace Lldp

/-- The layers a captured packet is made of. -/
inductive Layer where
  | ethernet
  | vlan
  | lldp
deriving DecidableEq, Repr

/-- The layer's name in messages. -/
def Layer.name : Layer → String
  | .ethernet => "ethernet"
  | .vlan => "vlan"
  | .lldp => "lldp"

/-- The part of the work that failed. -/
inductive ErrorKind where
  /-- A TLV does not fit the header layout. -/
  | invalidTlv
  /-- The octets end before a TLV does. -/
  | unexpectedEnd
  /-- A frame cannot be put on the wire. -/
  | invalidFrame
  /-- Fewer TLVs than every frame has. -/
  | incompleteFrame
  /-- The first TLV is no usable chassis identifier. -/
  | invalidChassisId
  /-- The second TLV is no usable port identifier. -/
  | invalidPortId
  /-- The third TLV is no time to live. -/
  | invalidTtl
  /-- The last TLV is no end marker. -/
  | invalidEnd
  /-- The packet went to another address. -/
  | invalidDestination
  /-- The packet lacks a layer. -/
  | missingLayer
  /-- A frame in good form has values out of range. -/
  | verificationFailed
  /-- A capture could not be opened, read or written. -/
  | capture
  /-- No port is registered under the index. -/
  | portNotFound
  /-- A configured value is unusable. -/
  | config
  /-- The dispatcher is gone. -/
  | channelClosed
  /-- The system refused to read a file. -/
  | io
deriving DecidableEq, Repr

namespace ErrorKind

/-- What every message of this kind begins with. -/
def heading : ErrorKind → String
  | invalidTlv => "Invalid TLV: "
  | unexpectedEnd => "Unexpected end of input: "
  | invalidFrame => "Invalid frame: "
  | incompleteFrame => "Incomplete frame: "
  | invalidChassisId => "Invalid chassis-id info: "
  | invalidPortId => "Invalid port-id info: "
  | invalidTtl => "Invalid TTL info: "
  | invalidEnd => "Invalid end-of-frame info: "
  | invalidDestination => "Invalid destination address: "
  | missingLayer => "Missing protocol layer: "
  | verificationFailed => "Frame verification failed: "
  | capture => "Capture error: "
  | portNotFound => "Port not found: "
  | config => "Configuration error: "
  | channelClosed => "Channel closed: "
  | io => "IO error: "

/-- A message of this kind with the given particulars. -/
def report (kind : ErrorKind) (particulars : String) : String :=
  kind.heading ++ particulars

/-- Faults of an inbound frame, as opposed to faults of this station. -/
def isMalformedInput : ErrorKind → Bool
  | invalidTlv | unexpectedEnd | incompleteFrame | invalidChassisId | invalidPortId
  | invalidTtl | invalidEnd | invalidDestination | missingLayer | verificationFailed => true
  | invalidFrame | capture | portNotFound | config | channelClosed | io => false

end ErrorKind

/-- The causes of failure. -/
inductive Error where
  /-- A TLV type needs more than seven bits. -/
  | tlvType (type : UInt8)
  /-- A TLV declares another length than its value has. -/
  | tlvLength (declared : UInt16) (actual : Nat)
  /-- A TLV value needs more than nine bits of length. -/
  | tlvSize (size : Nat)
  /-- The octets end too soon. -/
  | truncated (needed available : Nat)
  /-- A frame to send has an empty chassis identifier. -/
  | chassisAbsent
  /-- A frame to send has an empty port identifier. -/
  | portAbsent
  /-- A time to live is no whole number of seconds. -/
  | ttlFractional (ttl : Duration)
  /-- A time to live needs more than sixteen bits. -/
  | ttlTooLong (secs limit : Nat)
  /-- A frame has fewer than four TLVs. -/
  | tooFewTlvs (count : Nat)
  /-- The first TLV has another type. -/
  | chassisType (type : UInt8)
  /-- The chassis identifier has no octet after its subtype. -/
  | chassisShort (length : Nat)
  /-- The second TLV has another type. -/
  | portType (type : UInt8)
  /-- The port identifier has no octet after its subtype. -/
  | portShort (length : Nat)
  /-- The third TLV has another type or length. -/
  | ttlShape (type : UInt8) (length : UInt16)
  /-- The last TLV has another type or length. -/
  | endShape (type : UInt8) (length : UInt16)
  /-- A packet is not addressed to the nearest bridge. -/
  | destination (address : Mac)
  /-- A packet lacks a layer. -/
  | missing (layer : Layer)
  /-- A chassis identifier has a subtype outside the standard. -/
  | chassisSubtype (subtype : UInt8)
  /-- A port identifier has a subtype outside the standard. -/
  | portSubtype (subtype : UInt8)
  /-- A time to live is beyond what the wire can carry. -/
  | ttlRange (secs : Nat)
  /-- An interface could not be opened. -/
  | openFailed (interface : String)
  /-- The capture was released. -/
  | captureClosed (interface : String)
  /-- A frame could not be written. -/
  | writeFailed (interface : String)
  /-- The interface has disappeared. -/
  | linkGone (interface : String)
  /-- No port is registered under the index. -/
  | portNotFound (ifIndex : Int)
  /-- The transmit interval is zero. -/
  | zeroInterval
  /-- The hold multiplier is zero. -/
  | zeroMultiplier
  /-- The channels would hold nothing. -/
  | zeroCapacity
  /-- The captures would keep nothing of a packet. -/
  | snaplen
  /-- A configured port has an empty name. -/
  | unnamedPort (ifIndex : Int)
  /-- An index is configured twice. -/
  | duplicatePort (ifIndex : Int) (name : String)
  /-- An index is registered already. -/
  | portExists (name : String) (ifIndex : Int)
  /-- A text is no MAC address. -/
  | macText (text : String)
  /-- A text is no link state. -/
  | linkStateText (text : String)
  /-- A configuration file does not say what a configuration says. -/
  | configFile (reason : String)
  /-- The dispatcher had ended before it was asked. -/
  | commandsClosed
  /-- The dispatcher ended before it answered. -/
  | replyDropped
  /-- A file could not be read. -/
  | unreadable (reason : String)
deriving DecidableEq, Repr

namespace Error

def kind : Error → ErrorKind
  | tlvType .. | tlvLength .. | tlvSize .. => .invalidTlv
  | truncated .. => .unexpectedEnd
  | chassisAbsent | portAbsent | ttlFractional .. | ttlTooLong .. => .invalidFrame
  | tooFewTlvs .. => .incompleteFrame
  | chassisType .. | chassisShort .. => .invalidChassisId
  | portType .. | portShort .. => .invalidPortId
  | ttlShape .. => .invalidTtl
  | endShape .. => .invalidEnd
  | destination .. => .invalidDestination
  | missing .. => .missingLayer
  | chassisSubtype .. | portSubtype .. | ttlRange .. => .verificationFailed
  | openFailed .. | captureClosed .. | writeFailed .. | linkGone .. => .capture
  | portNotFound .. => .portNotFound
  | zeroInterval | zeroMultiplier | zeroCapacity | snaplen | unnamedPort .. | duplicatePort ..
  | portExists .. | macText .. | linkStateText .. | configFile .. => .config
  | commandsClosed | replyDropped => .channelClosed
  | unreadable .. => .io

/-- The particulars of a message, after its heading. -/
def particulars : Error → String
  | tlvType type => s!"type {type.toNat} exceeds 127"
  | tlvLength declared actual =>
    s!"length {declared.toNat} does not match value of {actual} bytes"
  | tlvSize size => s!"length {size} exceeds 511"
  | truncated needed available => s!"needed {needed} bytes, {available} available"
  | chassisAbsent => "chassis-id is absent"
  | portAbsent => "port-id is absent"
  | ttlFractional ttl => s!"TTL {ttl.describe} is not a whole number of seconds"
  | ttlTooLong secs limit => s!"TTL {secs}s exceeds {limit}s"
  | tooFewTlvs count => s!"{count} TLVs decoded, at least 4 required"
  | chassisType type => s!"first TLV has type {type.toNat}"
  | portType type => s!"second TLV has type {type.toNat}"
  | chassisShort length | portShort length => s!"length {length} too short"
  | ttlShape type length => s!"third TLV has type {type.toNat} length {length.toNat}"
  | endShape type length => s!"last TLV has type {type.toNat} length {length.toNat}"
  | destination address => address.text
  | missing layer => layer.name
  | chassisSubtype subtype => s!"chassis-id subtype {subtype.toNat} out of range"
  | portSubtype subtype => s!"port-id subtype {subtype.toNat} out of range"
  | ttlRange secs => s!"TTL {secs}s out of range"
  | openFailed interface => s!"Failed to open device {interface}"
  | captureClosed interface => s!"capture on {interface} is closed"
  | writeFailed interface => s!"write on {interface} failed"
  | linkGone interface => s!"loopback link {interface} is gone"
  | portNotFound ifIndex => s!"ifindex {ifIndex}"
  | zeroInterval => "tx interval must be non-zero"
  | zeroMultiplier => "tx hold multiplier must be non-zero"
  | zeroCapacity => "channel_capacity must be > 0"
  | snaplen => "snaplen must be > 0"
  | unnamedPort ifIndex => s!"port with ifindex {ifIndex} has no name"
  | duplicatePort ifIndex name => s!"duplicate ifindex {ifIndex} ({name})"
  | portExists name ifIndex => s!"port {name} (ifindex {ifIndex}) already registered"
  | macText text => s!"invalid MAC address: {text}"
  | linkStateText text => s!"unknown link state: {text}"
  | configFile reason => reason
  | commandsClosed => "dispatcher commands"
  | replyDropped => "dispatcher reply"
  | unreadable reason => reason

/-- The whole message. -/
def message (e : Error) : String :=
  e.kind.report e.particulars

/-- Whether a frame from outside is to blame. -/
def isMalformedInput (e : Error) : Bool :=
  e.kind.isMalformedInput

end Error

/-- Reads a MAC address, or says which text was none. -/
def Mac.parse (s : String) : Except Error Mac :=
  match Mac.ofText? s with
  | some m => .ok m
  | none => .error (.macText s)

end Lldp
