/-
# Octets and words

Everything on the wire is a list of octets, first sent first.  The protocol
never needs a wider word than sixteen bits, and always sends the more
significant octet first.
-/

namespace Lldp

/-- Octets in the order in which they are sent. -/
abbrev Octets := List UInt8

namespace Octets

/-- The word whose more significant octet is `hi`. -/
def word (hi lo : UInt8) : UInt16 :=
  UInt16.ofNat (hi.toNat * 256 + lo.toNat)

/-- The two octets of a word, the more significant one first. -/
def ofWord (w : UInt16) : Octets :=
  [UInt8.ofNat (w.toNat / 256), UInt8.ofNat (w.toNat % 256)]

theorem length_ofWord (w : UInt16) : (ofWord w).length = 2 := rfl

/-- **Reading back a word that was written.** -/
theorem word_ofNat (w : UInt16) :
    word (UInt8.ofNat (w.toNat / 256)) (UInt8.ofNat (w.toNat % 256)) = w := by
  have h := w.toNat_lt
  have hi : (UInt8.ofNat (w.toNat / 256)).toNat = w.toNat / 256 := by
    simp; omega
  have lo : (UInt8.ofNat (w.toNat % 256)).toNat = w.toNat % 256 := by
    simp
  rw [word, hi, lo, Nat.div_add_mod']
  simp

/-- **Writing a word that was read.** -/
theorem ofWord_word (hi lo : UInt8) : ofWord (word hi lo) = [hi, lo] := by
  have h1 := hi.toNat_lt
  have h2 := lo.toNat_lt
  have hw : (word hi lo).toNat = hi.toNat * 256 + lo.toNat := by
    rw [word, UInt16.toNat_ofNat']
    omega
  simp only [ofWord, hw, List.cons.injEq, and_true]
  exact ⟨by rw [show (hi.toNat * 256 + lo.toNat) / 256 = hi.toNat by omega]; simp,
    by rw [show (hi.toNat * 256 + lo.toNat) % 256 = lo.toNat by omega]; simp⟩

end Octets
end Lldp
