/-
# Documents

A document is a sequence of lines: keys with values, and headers that say to
which table the keys after them belong.
-/

import Lldp.Toml.Scalar

namespace Lldp
namespace Toml

mutual

/-- A value, at most `depth` levels of brackets deep. -/
def value : Nat → Nat → List Char → Read Value
  | 0, _, _ => .error .tooDeep
  | fuel + 1, depth, cs =>
    match text? cs with
    | some (.ok (s, rest)) => .ok (.text s, rest)
    | some (.error e) => .error e
    | none =>
      match cs with
      | '[' :: rest =>
        match depth with
        | 0 => .error .tooDeep
        | depth + 1 => items fuel depth [] rest
      | '\x7b' :: rest =>
        match depth with
        | 0 => .error .tooDeep
        | depth + 1 => fields fuel depth [] rest
      | cs => scalar cs

/-- The values of an array after those in `done`, last first, with commas
between them and perhaps after the last. -/
def items : Nat → Nat → List Value → List Char → Read Value
  | 0, _, _, _ => .error .tooDeep
  | fuel + 1, depth, done, cs =>
    match skipLines (cs.length + 1) cs with
    | ']' :: rest => .ok (.array false done.reverse, rest)
    | cs =>
      match value fuel depth cs with
      | .error e => .error e
      | .ok (v, rest) =>
        match skipLines (rest.length + 1) rest with
        | ',' :: rest => items fuel depth (v :: done) rest
        | ']' :: rest => .ok (.array false (v :: done).reverse, rest)
        | _ => .error (.expected "a comma or the end of the array")

/-- The entries of a table in braces after those in `done`, with commas between
them and perhaps after the last.  Lines may end anywhere but within a dotted
key. -/
def fields : Nat → Nat → Entries → List Char → Read Value
  | 0, _, _, _ => .error .tooDeep
  | fuel + 1, depth, done, cs =>
    match skipLines (cs.length + 1) cs with
    | '\x7d' :: rest => .ok (.table .inline done, rest)
    | cs =>
      match key depthLimit cs with
      | .error e => .error e
      | .ok ((path, name), rest) =>
        match skipLines (rest.length + 1) rest with
        | '=' :: rest =>
          match value fuel depth (skipLines (rest.length + 1) rest) with
          | .error e => .error e
          | .ok (v, rest) =>
            match Entries.define path name v .inline done with
            | .error e => .error e
            | .ok done =>
              match skipLines (rest.length + 1) rest with
              | ',' :: rest => fields fuel depth done rest
              | '\x7d' :: rest => .ok (.table .inline done, rest)
              | _ => .error (.expected "a comma or the end of the table")
        | _ => .error (.expected "an equals sign")

end

/-- A document as far as it has been read. -/
structure Draft where
  root : Entries := []
  /-- The path of the table that keys belong to. -/
  place : List String := []

namespace Draft

/-- A header for one table. -/
def table (d : Draft) (path : List String) (name : String) : Except Fault Draft :=
  match Entries.openTable path name d.root with
  | .error e => .error e
  | .ok root => .ok { root, place := path ++ [name] }

/-- A header for one more table of an array. -/
def item (d : Draft) (path : List String) (name : String) : Except Fault Draft :=
  match Entries.openItem path name d.root with
  | .error e => .error e
  | .ok root => .ok { root, place := path ++ [name] }

/-- A key with a value. -/
def define (d : Draft) (path : List String) (name : String) (v : Value) : Except Fault Draft :=
  match Entries.descend false d.place .header d.root
      (fun origin es => Entries.define path name v origin es) with
  | .error e => .error e
  | .ok root => .ok { d with root }

end Draft

/-- A header after its opening brackets, up to its closing ones. -/
def header (closing : List Char) (cs : List Char) : Read (List String × String) :=
  match key depthLimit cs with
  | .error e => .error e
  | .ok (name, rest) =>
    if closing.isPrefixOf rest then .ok (name, rest.drop closing.length)
    else .error (.expected "the end of the header")

/-- A key and its value. -/
def pair (cs : List Char) : Read ((List String × String) × Value) :=
  match key depthLimit cs with
  | .error e => .error e
  | .ok (name, '=' :: rest) =>
    match value (2 * rest.length + 2) depthLimit (skipBlanks rest) with
    | .error e => .error e
    | .ok (v, rest) => .ok ((name, v), rest)
  | .ok _ => .error (.expected "an equals sign")

/-- What a line that is not empty says. -/
def statement (d : Draft) (cs : List Char) : Read Draft :=
  match cs with
  | '[' :: '[' :: rest =>
    match header [']', ']'] rest with
    | .error e => .error e
    | .ok ((path, name), rest) => (d.item path name).map (·, rest)
  | '[' :: rest =>
    match header [']'] rest with
    | .error e => .error e
    | .ok ((path, name), rest) => (d.table path name).map (·, rest)
  | cs =>
    match pair cs with
    | .error e => .error e
    | .ok (((path, name), v), rest) => (d.define path name v).map (·, rest)

/-- All lines from here on. -/
def lines : Nat → Draft → List Char → Except Fault Draft
  | 0, _, _ => .error .tooDeep
  | fuel + 1, d, cs =>
    match skipLines (cs.length + 1) cs with
    | [] => .ok d
    | cs =>
      match statement d cs with
      | .error e => .error e
      | .ok (d, rest) =>
        match endLine rest with
        | .error e => .error e
        | .ok rest => lines fuel d rest

/-- Reads a document.  A byte order mark in front of it is passed over. -/
def parse (s : String) : Except Fault Entries :=
  let cs := match s.toList with
    | '\uFEFF' :: rest => rest
    | cs => cs
  (lines (cs.length + 1) {} cs).map Draft.root

end Toml
end Lldp
