/-
# Blanks, comments and texts

The characters of a document between its values, and the four ways to write a
text: with escapes or literally, on one line or on several.
-/

import Lldp.Text.Hex
import Lldp.Toml.Value

namespace Lldp
namespace Toml

/-- What a reader gives: something, and the rest of the characters. -/
abbrev Read (α : Type) := Except Fault (α × List Char)

/-- Blanks within a line. -/
def isBlank (c : Char) : Bool := c = ' ' || c = '\t'

/-- Characters that texts and comments may hold: no control characters but the
tab. -/
def isPlain (c : Char) : Bool := c = '\t' || (' ' ≤ c && c ≠ '\x7f')

/-- Characters of a key without quotes. -/
def isBare (c : Char) : Bool := c.isAlphanum || c = '_' || c = '-'

/-- The rest of the line after blanks. -/
def skipBlanks (cs : List Char) : List Char := cs.dropWhile isBlank

/-- The rest after a line break, if one comes next. -/
def lineBreak? : List Char → Option (List Char)
  | '\n' :: rest => some rest
  | '\r' :: '\n' :: rest => some rest
  | _ => none

/-- The rest after a comment, if one comes next.  The line break stays. -/
def comment? : List Char → Option (List Char)
  | '#' :: rest => some (rest.dropWhile isPlain)
  | _ => none

/-- What follows the line at hand, of which nothing but blanks and a comment may
be left. -/
def endLine (cs : List Char) : Except Fault (List Char) :=
  let rest := skipBlanks cs
  let rest := (comment? rest).getD rest
  match rest with
  | [] => .ok []
  | rest =>
    match lineBreak? rest with
    | some next => .ok next
    | none => .error .lineNotEnded

/-- The rest after blanks, comments and line breaks. -/
def skipLines : Nat → List Char → List Char
  | 0, cs => cs
  | fuel + 1, cs =>
    let rest := skipBlanks cs
    match comment? rest with
    | some rest => skipLines fuel rest
    | none =>
      match lineBreak? rest with
      | some rest => skipLines fuel rest
      | none => rest

/-- The character of a code point, if it has one. -/
def charOf? (n : Nat) : Option Char :=
  if n < 0xD800 ∨ (0xDFFF < n ∧ n < 0x110000) then some (Char.ofNat n) else none

/-- The character that `width` digits name, and the number of characters used. -/
def codePoint (width : Nat) (cs : List Char) : Except Fault (Char × Nat) :=
  let digits := cs.take width
  if digits.length < width then .error .badEscape
  else
    match (Hex.value? digits).bind charOf? with
    | some c => .ok (c, width + 1)
    | none => .error .badEscape

/-- What stands after a backslash, and the number of characters used. -/
def escaped : List Char → Except Fault (Char × Nat)
  | 'b' :: _ => .ok ('\x08', 1)
  | 't' :: _ => .ok ('\t', 1)
  | 'n' :: _ => .ok ('\n', 1)
  | 'f' :: _ => .ok ('\x0c', 1)
  | 'r' :: _ => .ok ('\r', 1)
  | 'e' :: _ => .ok ('\x1b', 1)
  | '"' :: _ => .ok ('"', 1)
  | '\\' :: _ => .ok ('\\', 1)
  | 'x' :: rest => codePoint 2 rest
  | 'u' :: rest => codePoint 4 rest
  | 'U' :: rest => codePoint 8 rest
  | _ => .error .badEscape

/-- A text after its opening quote. -/
def basic : List Char → Read (List Char)
  | [] => .error .unclosed
  | '"' :: rest => .ok ([], rest)
  | '\\' :: rest =>
    match escaped rest with
    | .error e => .error e
    | .ok (c, used) =>
      match basic (rest.drop used) with
      | .error e => .error e
      | .ok (cs, rest) => .ok (c :: cs, rest)
  | c :: rest =>
    if isPlain c then
      match basic rest with
      | .error e => .error e
      | .ok (cs, rest) => .ok (c :: cs, rest)
    else .error .badCharacter
termination_by cs => cs.length
decreasing_by all_goals (simp only [List.length_cons, List.length_drop]; omega)

/-- A literal text after its opening apostrophe. -/
def literal : List Char → Read (List Char)
  | [] => .error .unclosed
  | '\x27' :: rest => .ok ([], rest)
  | c :: rest =>
    if isPlain c then
      match literal rest with
      | .error e => .error e
      | .ok (cs, rest) => .ok (c :: cs, rest)
    else .error .badCharacter

/-- Up to two further quotes right after three that close a text belong to it. -/
def closing (q : Char) : List Char → List Char × List Char
  | a :: b :: rest =>
    if a = q then if b = q then ([q, q], rest) else ([q], b :: rest) else ([], a :: b :: rest)
  | [a] => if a = q then ([q], []) else ([], [a])
  | [] => ([], [])

/-- How many of the characters are blanks and line breaks. -/
def gapLength : List Char → Nat
  | '\r' :: '\n' :: rest => gapLength rest + 2
  | c :: rest => if isBlank c || c = '\n' then gapLength rest + 1 else 0
  | [] => 0

/-- The length of a gap that a backslash at the end of a line opens, or zero
when there is none. -/
def continuation (cs : List Char) : Nat :=
  if (lineBreak? (skipBlanks cs)).isSome then gapLength cs else 0

/-- A text of several lines after its opening quotes.  A backslash at the end of
a line takes away everything up to the next character that is no blank. -/
def multiBasic : List Char → Read (List Char)
  | [] => .error .unclosed
  | '"' :: '"' :: '"' :: rest => .ok (closing '"' rest)
  | '\\' :: rest =>
    let gap := continuation rest
    if gap > 0 then multiBasic (rest.drop gap)
    else
      match escaped rest with
      | .error e => .error e
      | .ok (c, used) =>
        match multiBasic (rest.drop used) with
        | .error e => .error e
        | .ok (cs, rest) => .ok (c :: cs, rest)
  | '\r' :: '\n' :: rest =>
    match multiBasic rest with
    | .error e => .error e
    | .ok (cs, rest) => .ok ('\r' :: '\n' :: cs, rest)
  | c :: rest =>
    if isPlain c || c = '\n' then
      match multiBasic rest with
      | .error e => .error e
      | .ok (cs, rest) => .ok (c :: cs, rest)
    else .error .badCharacter
termination_by cs => cs.length
decreasing_by all_goals (simp only [List.length_cons, List.length_drop]; omega)

/-- A literal text of several lines after its opening apostrophes. -/
def multiLiteral : List Char → Read (List Char)
  | [] => .error .unclosed
  | '\x27' :: '\x27' :: '\x27' :: rest => .ok (closing '\x27' rest)
  | '\r' :: '\n' :: rest =>
    match multiLiteral rest with
    | .error e => .error e
    | .ok (cs, rest) => .ok ('\r' :: '\n' :: cs, rest)
  | c :: rest =>
    if isPlain c || c = '\n' then
      match multiLiteral rest with
      | .error e => .error e
      | .ok (cs, rest) => .ok (c :: cs, rest)
    else .error .badCharacter

/-- A text in any of the four ways, if one comes next.  A line break right after
the quotes that open several lines is no part of the text. -/
def text? : List Char → Option (Read String)
  | '"' :: '"' :: '"' :: rest =>
    some (asString (multiBasic ((lineBreak? rest).getD rest)))
  | '"' :: rest => some (asString (basic rest))
  | '\x27' :: '\x27' :: '\x27' :: rest =>
    some (asString (multiLiteral ((lineBreak? rest).getD rest)))
  | '\x27' :: rest => some (asString (literal rest))
  | _ => none
where
  asString : Read (List Char) → Read String
    | .error e => .error e
    | .ok (cs, rest) => .ok (String.ofList cs, rest)

/-- One part of a key: without quotes, or a text on one line. -/
def keyPart : List Char → Read String
  | '"' :: '"' :: '"' :: _ => .error .badKey
  | '\x27' :: '\x27' :: '\x27' :: _ => .error .badKey
  | cs =>
    match text? cs with
    | some read => read
    | none =>
      match cs.takeWhile isBare with
      | [] => .error .badKey
      | name => .ok (String.ofList name, cs.dropWhile isBare)

/-- The most parts a key may have, and the most values that may be nested. -/
def depthLimit : Nat := 80

/-- A key of at most `parts` parts with dots between them.  Blanks may surround
each. -/
def key (parts : Nat) (cs : List Char) : Read (List String × String) :=
  match parts with
  | 0 => .error .tooDeep
  | parts + 1 =>
    match keyPart (skipBlanks cs) with
    | .error e => .error e
    | .ok (name, rest) =>
      match skipBlanks rest with
      | '.' :: rest =>
        match key parts rest with
        | .error e => .error e
        | .ok ((path, last), rest) => .ok ((name :: path, last), rest)
      | rest => .ok (([], name), rest)

end Toml
end Lldp
