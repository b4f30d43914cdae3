/-
# Durations

A span of time in whole seconds and nanoseconds.  A time to live has to be a
whole number of seconds on the wire, so a span that is not is refused, and the
refusal names it: `describe` writes it in the largest unit that has a non-zero
whole part, with as many decimals as it takes and no trailing zero.
-/

namespace Lldp

/-- `secs` seconds and `nanos` nanoseconds; `nanos` stays below a milliard. -/
structure Duration where
  secs : Nat
  nanos : Nat
deriving DecidableEq, Repr

namespace Duration

/-- A whole number of seconds. -/
def ofSecs (s : Nat) : Duration := ⟨s, 0⟩

/-- A whole number of milliseconds. -/
def ofMillis (ms : Nat) : Duration := ⟨ms / 1000, ms % 1000 * 1000000⟩

/-- Rounded down to the millisecond. -/
def toMillis (d : Duration) : Nat := d.secs * 1000 + d.nanos / 1000000

/-- The last `width` decimal digits of `n`, most significant first. -/
def digits : Nat → Nat → List Char
  | 0, _ => []
  | width + 1, n => digits width (n / 10) ++ [Char.ofNat (48 + n % 10)]

/-- The decimals of `part / 10 ^ width` after their point, or nothing when all
of them are zero. -/
def decimals (width part : Nat) : String :=
  match ((digits width part).reverse.dropWhile (· == '0')).reverse with
  | [] => ""
  | ds => String.ofList ('.' :: ds)

/-- The span as a reader would write it. -/
def describe (d : Duration) : String :=
  if d.secs > 0 then s!"{d.secs}" ++ decimals 9 d.nanos ++ "s"
  else if d.nanos ≥ 1000000 then
    s!"{d.nanos / 1000000}" ++ decimals 6 (d.nanos % 1000000) ++ "ms"
  else if d.nanos ≥ 1000 then
    s!"{d.nanos / 1000}" ++ decimals 3 (d.nanos % 1000) ++ "µs"
  else s!"{d.nanos}ns"

end Duration
end Lldp
