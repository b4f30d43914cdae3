/-
# Configuration files

How a configuration is written down in TOML: a table `global`, a table `capture`
and an array `ports` of tables.  What is left out has its usual value, except for
the index, name and address of a port, which nobody can guess; what is not known
is passed over, as long as its value can be represented at all.

A table may also be written as an array of its values in order, and a date in
the place of a table is a table that says nothing.
-/

import Lldp.Config
import Lldp.Toml.Document

namespace Lldp
namespace Config

open Toml (Value Entries)

/-- Why a document is no configuration. -/
inductive Misfit where
  | wrongType (key expected : String)
  | missing (key : String)
  | unrepresentable
deriving DecidableEq, Repr

/-- The misfit in a few words. -/
def Misfit.describe : Misfit → String
  | wrongType key expected => s!"invalid value for {key}: expected {expected}"
  | missing key => s!"missing field {key}"
  | unrepresentable => "number out of range"

/-- The entries of a table that may have the given keys. -/
def entriesOf (name : String) (known : List String) (v : Value) : Except Misfit Entries :=
  match v with
  | .table _ entries =>
    if Toml.entriesRepresentable (entries.filter fun e => !known.contains e.1) then .ok entries
    else .error .unrepresentable
  | .array _ items => .ok (known.zip items)
  | .moment => .ok []
  | _ => .error (.wrongType name "a table")

/-- The value under a key, or a usual one if there is none. -/
def fieldOr {α : Type} (entries : Entries) (name : String) (usual : Except Misfit α)
    (read : String → Value → Except Misfit α) : Except Misfit α :=
  match entries.lookup name with
  | none => usual
  | some v => read name v

/-- A truth value. -/
def bool (name : String) : Value → Except Misfit Bool
  | .boolean b => .ok b
  | _ => .error (.wrongType name "a boolean")

/-- A text. -/
def text (name : String) : Value → Except Misfit String
  | .text s => .ok s
  | _ => .error (.wrongType name "a string")

/-- A whole number from `lo` up to but not including `hi`. -/
def integer (lo hi : Int) (name : String) : Value → Except Misfit Int
  | .integer n =>
    if lo ≤ n ∧ n < hi then .ok n else .error (.wrongType name "a number within range")
  | _ => .error (.wrongType name "an integer")

/-- A whole number of so many bits. -/
def natural (bits : Nat) (name : String) (v : Value) : Except Misfit Nat :=
  (integer 0 (Nat.pow 2 bits : Nat) name v).map Int.toNat

/-- A whole number of 32 bits with sign. -/
def signed32 : String → Value → Except Misfit Int :=
  integer (-0x80000000) 0x80000000

/-- The table `global`. -/
def readGlobal (name : String) (v : Value) : Except Misfit GlobalConfig := do
  let usual : GlobalConfig := {}
  let es ← entriesOf name
    ["enabled", "tx_interval_secs", "tx_hold_multiplier", "channel_capacity"] v
  let enabled ← fieldOr es "enabled" (.ok usual.enabled) bool
  let interval ← fieldOr es "tx_interval_secs" (.ok usual.interval) (natural 64)
  let multiplier ← fieldOr es "tx_hold_multiplier" (.ok usual.multiplier) (natural 64)
  let capacity ← fieldOr es "channel_capacity" (.ok usual.capacity) (natural 64)
  return { enabled, interval, multiplier, capacity }

/-- The table `capture`. -/
def readCapture (name : String) (v : Value) : Except Misfit CaptureSettings := do
  let usual : CaptureSettings := {}
  let es ← entriesOf name ["snaplen", "promiscuous", "read_timeout_ms"] v
  let snaplen ← fieldOr es "snaplen" (.ok usual.snaplen) signed32
  let promiscuous ← fieldOr es "promiscuous" (.ok usual.promiscuous) bool
  let readTimeout ← fieldOr es "read_timeout_ms" (.ok usual.readTimeout) (natural 64)
  return { snaplen, promiscuous, readTimeout }

/-- A table of the array `ports`. -/
def readPort (v : Value) : Except Misfit PortConfig := do
  let es ← entriesOf "ports" ["if_index", "port_number", "name", "mac", "enabled"] v
  let ifIndex ← fieldOr es "if_index" (.error (.missing "if_index")) signed32
  let number ← fieldOr es "port_number" (.ok 0) (natural 32)
  let name ← fieldOr es "name" (.error (.missing "name")) text
  let mac ← fieldOr es "mac" (.error (.missing "mac")) text
  let enabled ← fieldOr es "enabled" (.ok true) bool
  return { ifIndex, number, name, mac, enabled }

/-- The array `ports`. -/
def readPorts (name : String) : Value → Except Misfit (List PortConfig)
  | .array _ items => items.mapM readPort
  | _ => .error (.wrongType name "an array")

/-- A whole document. -/
def ofEntries (entries : Entries) : Except Misfit Config := do
  let es ← entriesOf "configuration" ["global", "capture", "ports"] (.table .header entries)
  let global ← fieldOr es "global" (.ok {}) readGlobal
  let capture ← fieldOr es "capture" (.ok {}) readCapture
  let ports ← fieldOr es "ports" (.ok []) readPorts
  return { global, capture, ports }

/-- Reads a configuration. -/
def ofToml (s : String) : Except Error Config :=
  match Toml.parse s with
  | .error fault => .error (.configFile fault.describe)
  | .ok entries =>
    match ofEntries entries with
    | .error misfit => .error (.configFile misfit.describe)
    | .ok config => .ok config

end Config
end Lldp
