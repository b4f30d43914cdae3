/-
# Values and tables

What a TOML document holds.  A table remembers how it came to be, because that
decides who may still add to it: a table with a header of its own takes keys
only under that header, a table made by dotted keys takes more dotted keys, a
table that was only implied by longer headers may yet get its own, and a table
written in braces is closed for good.
-/

namespace Lldp
namespace Toml

/-- How a table came to be. -/
inductive Origin where
  /-- By a header, or as the document itself. -/
  | header
  /-- On the way to a table with a header. -/
  | implied
  /-- On the way to a dotted key. -/
  | dotted
  /-- In braces. -/
  | inline
deriving DecidableEq, Repr

/-- A value.  Of a date or time nothing is kept. -/
inductive Value where
  | text (s : String)
  | integer (n : Int)
  /-- What is meant to be a whole number and cannot be read as one. -/
  | unreadable
  /-- `significand * 10 ^ exponent`, up to sign. -/
  | float (significand : Nat) (exponent : Int)
  /-- An infinity, or no number at all. -/
  | nonFinite
  | boolean (b : Bool)
  | moment
  /-- `growing` if headers may add tables to it. -/
  | array (growing : Bool) (items : List Value)
  | table (origin : Origin) (entries : List (String × Value))

/-- Keys and values in the order in which they appear. -/
abbrev Entries := List (String × Value)

/-- Why a text is no document. -/
inductive Fault where
  | unclosed
  | badEscape
  | badCharacter
  | badKey
  | badValue
  | lineNotEnded
  | expected (what : String)
  | duplicateKey (key : String)
  | notATable (key : String)
  | tooDeep
deriving DecidableEq, Repr

/-- The fault in a few words. -/
def Fault.describe : Fault → String
  | unclosed => "unclosed text"
  | badEscape => "invalid escape sequence"
  | badCharacter => "invalid character"
  | badKey => "invalid key"
  | badValue => "invalid value"
  | lineNotEnded => "expected end of line"
  | expected what => s!"expected {what}"
  | duplicateKey key => s!"duplicate key {key}"
  | notATable key => s!"{key} cannot be extended"
  | tooDeep => "nested too deeply"

namespace Entries

/-- Puts another value under a key that is there. -/
def put (entries : Entries) (key : String) (value : Value) : Entries :=
  entries.map fun e => if e.1 = key then (key, value) else e

/-- Changes the table that a path leads to, beginning at a table that came to be
in the way `here`.  Tables missing on the way are made.  A path leads through
the last table of a growing array, never through braces, and a dotted key does
not lead through a table with a header. -/
def descend (dotted : Bool) (path : List String) (here : Origin) (entries : Entries)
    (change : Origin → Entries → Except Fault Entries) : Except Fault Entries :=
  match path with
  | [] => change here entries
  | key :: rest =>
    match entries.lookup key with
    | none =>
      let origin : Origin := if dotted then .dotted else .implied
      match descend dotted rest origin [] change with
      | .error e => .error e
      | .ok sub => .ok (entries ++ [(key, .table origin sub)])
    | some (.table origin sub) =>
      if origin = .inline then .error (.notATable key)
      else if dotted && origin = .header then .error (.duplicateKey key)
      else
        match descend dotted rest origin sub change with
        | .error e => .error e
        | .ok sub => .ok (put entries key (.table origin sub))
    | some (.array true items) =>
      match items.getLast? with
      | some (.table origin sub) =>
        match descend dotted rest origin sub change with
        | .error e => .error e
        | .ok sub => .ok (put entries key (.array true (items.dropLast ++ [.table origin sub])))
      | _ => .error (.notATable key)
    | some _ => .error (.notATable key)

/-- Adds a value under a key, which is dotted if it has a path.  A dotted key
adds only to a table that dotted keys have made. -/
def define (path : List String) (key : String) (value : Value) (here : Origin)
    (entries : Entries) : Except Fault Entries :=
  descend (!path.isEmpty) path here entries fun origin es =>
    if !path.isEmpty && origin ≠ .dotted then .error (.duplicateKey key)
    else
      match es.lookup key with
      | some _ => .error (.duplicateKey key)
      | none => .ok (es ++ [(key, value)])

/-- A header for one table. -/
def openTable (path : List String) (key : String) (entries : Entries) : Except Fault Entries :=
  descend false path .header entries fun _ es =>
    match es.lookup key with
    | none => .ok (es ++ [(key, .table .header [])])
    | some (.table .implied sub) => .ok (put es key (.table .header sub))
    | some _ => .error (.duplicateKey key)

/-- A header for one more table of an array. -/
def openItem (path : List String) (key : String) (entries : Entries) : Except Fault Entries :=
  descend false path .header entries fun _ es =>
    match es.lookup key with
    | none => .ok (es ++ [(key, .array true [.table .header []])])
    | some (.array true items) => .ok (put es key (.array true (items ++ [.table .header []])))
    | some _ => .error (.duplicateKey key)

end Entries
end Toml
end Lldp
