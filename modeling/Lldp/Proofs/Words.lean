/-
# Arithmetic that stops at the largest word

Where a computation on words of 64 bits could leave their range, it is made to stop at
the largest word.  Whatever such a result is then cut down to, if that is a word, the
true result is cut down to the same (`Word.min_toNat_saturate`): so numbers may stand in
for words wherever a smaller bound follows.
-/

namespace Lldp
namespace Word

/-- The largest word. -/
def maximum : Nat := UInt64.size - 1

/-- The word that a number is, or the largest one if it is none. -/
def saturate (n : Nat) : UInt64 := UInt64.ofNat (min n maximum)

/-- The word stands for the number itself, or for the largest word. -/
theorem toNat_saturate (n : Nat) : (saturate n).toNat = min n maximum :=
  UInt64.toNat_ofNat_of_lt' (Nat.lt_of_le_of_lt (Nat.min_le_right _ _) (by decide))

/-- **Nothing is lost by stopping at the largest word** if the result is cut down to a
word anyway. -/
theorem min_toNat_saturate {bound : Nat} (h : bound ≤ maximum) (n : Nat) :
    min (saturate n).toNat bound = min n bound := by
  rw [toNat_saturate, Nat.min_assoc, Nat.min_eq_right h]

end Word
end Lldp
