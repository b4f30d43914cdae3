/-
# Numbers, truth values, dates and times

Values without quotes and brackets.  Whether a run of characters is one is
decided on the whole run.  Of a whole number this only settles that it is meant
to be one: a run that cannot be read as a number after all is a value too, and a
fault only for whoever asks for it.
-/

import Lldp.Toml.Text

namespace Lldp
namespace Toml

/-- A decimal digit. -/
def isDigit (c : Char) : Bool := '0' ≤ c && c ≤ '9'

/-- A digit of some base. -/
def isHexDigit (c : Char) : Bool := (Hex.digit? c).isSome

/-- A digit in a base up to sixteen. -/
def isDigitIn (base : Nat) (c : Char) : Bool := (Hex.digit? c).any (· < base)

/-- Whether every underscore has a digit on either side.  Whether there is one
before the first of the characters, `after` says. -/
def underscoresFit (digit : Char → Bool) (after : Bool) : List Char → Bool
  | [] => true
  | '_' :: rest => after && rest.head?.any digit && underscoresFit digit false rest
  | c :: rest => underscoresFit digit (digit c) rest

/-- The characters but for the underscores. -/
def withoutUnderscores (cs : List Char) : List Char := cs.filter (· ≠ '_')

/-- The value of digits in a base. -/
def valueIn (base : Nat) (ds : List Char) : Nat :=
  ds.foldl (fun n c => n * base + (Hex.digit? c).getD 0) 0

/-- A sign, if there is one, and the rest. -/
structure Signed where
  negative : Bool
  rest : List Char

/-- Takes a sign from the front. -/
def splitSign : List Char → Signed
  | '-' :: rest => ⟨true, rest⟩
  | '+' :: rest => ⟨false, rest⟩
  | cs => ⟨false, cs⟩

/-- A whole number after a prefix that tells its base.  Without digits it cannot
be read. -/
def based (base : Nat) (cs : List Char) : Option Value :=
  if cs.all (fun c => isDigitIn base c || c = '_') && underscoresFit isHexDigit false cs then
    match withoutUnderscores cs with
    | [] => some .unreadable
    | ds => some (.integer (valueIn base ds))
  else none

/-- A whole number in decimal digits that has no leading zero.  Once there has
been an underscore, other things than digits keep it from being read. -/
def decimal (number : Signed) : Option Value :=
  let cs := number.rest
  if cs.length > 1 && cs.head? = some '0' then none
  else if underscoresFit isHexDigit false cs then
    let ds := withoutUnderscores cs
    let n : Int := valueIn 10 ds
    some (if ds.all isDigit then .integer (if number.negative then -n else n) else .unreadable)
  else none

/-- Digits and underscores at the front, and the rest; there is at least one
digit. -/
def digits? (cs : List Char) : Option (List Char × List Char) :=
  let inNumber (c : Char) : Bool := isDigit c || c = '_'
  let ds := withoutUnderscores (cs.takeWhile inNumber)
  if ds.isEmpty then none else some (ds, cs.dropWhile inNumber)

/-- The digits of a fraction, if there is one, and the rest. -/
def decimals? : List Char → Option (List Char × List Char)
  | '.' :: rest => digits? rest
  | rest => some ([], rest)

/-- The exponent of ten at the end of a number, zero if it is left out. -/
def exponent? : List Char → Option Int
  | [] => some 0
  | mark :: rest =>
    if mark = 'e' || mark = 'E' then
      let exponent := splitSign rest
      match digits? exponent.rest with
      | some (ds, []) =>
        let n : Int := valueIn 10 ds
        some (if exponent.negative then -n else n)
      | _ => none
    else none

/-- A number with a fraction, an exponent, or both. -/
def float? (number : Signed) : Option Value :=
  if underscoresFit isDigit false number.rest then
    match digits? number.rest with
    | none => none
    | some (ds, rest) =>
      if ds.length > 1 && number.rest.head? = some '0' then none
      else
        match decimals? rest with
        | none => none
        | some (fs, rest) =>
          (exponent? rest).map fun e => .float (valueIn 10 (ds ++ fs)) (e - fs.length)
  else none

/-- Exactly `n` decimal digits, as a number. -/
def number? (n : Nat) (cs : List Char) : Option (Nat × List Char) :=
  let ds := cs.take n
  if ds.length = n ∧ ds.all isDigit then some (valueIn 10 ds, cs.drop n) else none

/-- The days of a month. -/
def daysIn (year month : Nat) : Nat :=
  if month = 2 then
    if year % 4 = 0 ∧ (year % 100 ≠ 0 ∨ year % 400 = 0) then 29 else 28
  else if month = 4 ∨ month = 6 ∨ month = 9 ∨ month = 11 then 30
  else 31

/-- The rest after a date. -/
def date? (cs : List Char) : Option (List Char) :=
  match number? 4 cs with
  | some (year, '-' :: rest) =>
    match number? 2 rest with
    | some (month, '-' :: rest) =>
      match number? 2 rest with
      | some (day, rest) =>
        if 1 ≤ month ∧ month ≤ 12 ∧ 1 ≤ day ∧ day ≤ daysIn year month then some rest else none
      | none => none
    | _ => none
  | _ => none

/-- The rest after the fraction of a second, which may be missing. -/
def fraction? : List Char → Option (List Char)
  | '.' :: d :: rest => if isDigit d then some (rest.dropWhile isDigit) else none
  | '.' :: [] => none
  | cs => some cs

/-- The rest after a time of day.  Seconds may be missing; a minute may have a
sixty-first. -/
def time? (cs : List Char) : Option (List Char) :=
  match number? 2 cs with
  | some (hour, ':' :: rest) =>
    match number? 2 rest with
    | some (minute, rest) =>
      if hour > 23 ∨ minute > 59 then none
      else
        match rest with
        | ':' :: rest =>
          match number? 2 rest with
          | some (second, rest) => if second > 60 then none else fraction? rest
          | none => none
        | rest => some rest
    | none => none
  | _ => none

/-- Whether nothing or a distance from universal time is left. -/
def isOffset : List Char → Bool
  | [] => true
  | ['Z'] => true
  | ['z'] => true
  | sign :: rest =>
    (sign = '+' || sign = '-') &&
      match number? 2 rest with
      | some (hours, ':' :: rest) =>
        match number? 2 rest with
        | some (minutes, []) => hours ≤ 23 && minutes ≤ 59
        | _ => false
      | _ => false

/-- A date, a time, or a date with a time. -/
def moment? (cs : List Char) : Option Value :=
  match date? cs with
  | some [] => some .moment
  | some (mark :: rest) =>
    if mark = 'T' || mark = 't' || mark = ' ' then
      match time? rest with
      | some rest => if isOffset rest then some .moment else none
      | none => none
    else none
  | none =>
    match time? cs with
    | some [] => some .moment
    | _ => none

/-- Characters that mean something else than a part of a value. -/
def reserved : List Char :=
  ['=', ',', '[', ']', '\x7b', '\x7d', '#', ' ', '\t', '\r', '\n']

/-- Characters that values without quotes are made of. -/
def isRunChar (c : Char) : Bool := !reserved.contains c

/-- A run of such characters after the blanks in `gap`, which are the last ones
first, and the rest.  Blanks belong to the run if it goes on after them, but no
text in quotes does. -/
def runAfter (gap : List Char) : List Char → List Char × List Char
  | [] => ([], gap.reverse)
  | c :: rest =>
    if isBlank c then runAfter (c :: gap) rest
    else if isRunChar c && (gap.isEmpty || (c ≠ '"' && c ≠ '\x27')) then
      let more := runAfter [] rest
      (gap.reverse ++ c :: more.1, more.2)
    else ([], gap.reverse ++ c :: rest)

/-- A run that begins with a digit or an underscore, perhaps after a sign.  What
follows its first digits tells what it is meant to be. -/
def numberOrMoment? (run : List Char) : Option Value :=
  let number := splitSign run
  match number.rest.dropWhile isDigit with
  | [] => decimal number
  | c :: rest =>
    if c = '-' || c = ':' then moment? run
    else if (c :: rest).contains ' ' then none
    else if (c :: rest).any (fun d => d = '.' || d = 'e' || d = 'E') then float? number
    else if c = '_' then decimal number
    else none

/-- The value that a run of characters is. -/
def scalarOf? (run : List Char) : Option Value :=
  match run with
  | '0' :: 'x' :: digits => based 16 digits
  | '0' :: 'o' :: digits => based 8 digits
  | '0' :: 'b' :: digits => based 2 digits
  | _ =>
    let unsigned := (splitSign run).rest
    if run = "true".toList then some (.boolean true)
    else if run = "false".toList then some (.boolean false)
    else if unsigned = "inf".toList || unsigned = "nan".toList then some .nonFinite
    else if unsigned.head?.any fun c => isDigit c || c = '_' then numberOrMoment? run
    else none

/-- A value without quotes and brackets. -/
def scalar (cs : List Char) : Read Value :=
  let (run, rest) := runAfter [] cs
  match scalarOf? run with
  | some v => .ok (v, rest)
  | none => .error .badValue

/-! ### What a consumer can represent -/

/-- The least number that is rounded to infinity as a double. -/
def doubleLimit : Nat := Nat.pow 2 1024 - Nat.pow 2 970

/-- Whether `significand * 10 ^ exponent` is finite as a double.  A number of
309 digits decides itself by comparison, any other by its digits. -/
def isFiniteDouble (significand : Nat) (exponent : Int) : Bool :=
  let top : Int := (Nat.toDigits 10 significand).length + exponent
  if significand = 0 ∨ top < 309 then true
  else if top > 309 then false
  else if exponent ≥ 0 then significand * Nat.pow 10 exponent.toNat < doubleLimit
  else significand < doubleLimit * Nat.pow 10 (-exponent).toNat

mutual

/-- Whether a value that nobody asks for can at least be represented: whole
numbers within 128 bits, with or without sign, and finite numbers as doubles. -/
def Value.isRepresentable : Value → Bool
  | .integer n => -(Nat.pow 2 127 : Nat) ≤ n && n < (Nat.pow 2 128 : Nat)
  | .float significand exponent => isFiniteDouble significand exponent
  | .array _ items => allRepresentable items
  | .table _ entries => entriesRepresentable entries
  | .unreadable => false
  | .text _ | .nonFinite | .boolean _ | .moment => true

def allRepresentable : List Value → Bool
  | [] => true
  | v :: rest => v.isRepresentable && allRepresentable rest

def entriesRepresentable : List (String × Value) → Bool
  | [] => true
  | (_, v) :: rest => v.isRepresentable && entriesRepresentable rest

end

end Toml
end Lldp
