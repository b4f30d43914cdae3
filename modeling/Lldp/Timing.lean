/-
# Transmit timing

A station speaks once every interval, and asks to be remembered for as many
intervals as the multiplier says, as far as the two octets of a time to live
allow.
-/

import Lldp.Frame

namespace Lldp

/-- Interval in seconds and hold multiplier; neither may be zero. -/
structure Timing where
  interval : Nat
  multiplier : Nat
  interval_pos : 0 < interval := by decide
  multiplier_pos : 0 < multiplier := by decide
deriving DecidableEq, Repr

namespace Timing

/-- Every half minute, to be remembered for two. -/
def standard : Timing := { interval := 30, multiplier := 4 }

/-- Timing from configured numbers. -/
def ofNumbers (interval multiplier : Nat) : Except Error Timing :=
  if hi : interval = 0 then .error .zeroInterval
  else if hm : multiplier = 0 then .error .zeroMultiplier
  else .ok ⟨interval, multiplier, Nat.pos_of_ne_zero hi, Nat.pos_of_ne_zero hm⟩

/-- The time to live to advertise, in seconds. -/
def ttl (t : Timing) : Nat := min (t.interval * t.multiplier) Frame.maxTtl

/-- The interval in milliseconds. -/
def period (t : Timing) : Nat := t.interval * 1000

end Timing
end Lldp
