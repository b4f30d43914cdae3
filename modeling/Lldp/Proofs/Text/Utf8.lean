/-
# A text survives the wire

Encoding a text and decoding the octets gives the text back (`Utf8.decode_encode`),
whatever the text is.  A character is written as a lead octet and up to three trailing
ones, which carry six bits each.  The reader takes six bits from every octet within
bounds that the lead octet sets for the first of them; the bounds are just wide enough
for the characters of that width (`Utf8.first_two`, `first_three`, `first_four`).

The octets are those of the standard library (`Utf8.encodeChar_eq`), so a text takes as
many of them as it is bytes long, and what the standard library takes for well-formed octets
is read without a fault (`Utf8.decode_eq_fromUTF8`).
-/

import Lldp.Text.Utf8
import Mathlib.Algebra.Group.Nat.Defs
import Mathlib.Tactic.SplitIfs

namespace Lldp
namespace Utf8

variable {c : Char} {m n : Nat} {lo hi b : UInt8} {rest : Octets}

/-! ### Trailing octets -/

/-- The octet that carries the last six bits of a number. -/
def trail (n : Nat) : UInt8 := UInt8.ofNat (0x80 + n % 0x40)

/-- The octets that carry the last `6 * m` bits of a number. -/
def trails : Nat → Nat → Octets
  | 0, _ => []
  | m + 1, n => trail (n / 0x40 ^ m) :: trails m n

/-- A trailing octet carries the last six bits. -/
@[simp] theorem toNat_trail (n : Nat) : (trail n).toNat = 0x80 + n % 0x40 := by
  simp only [trail, UInt8.toNat_ofNat']
  omega

/-- A trailing octet within its bounds adds its six bits to those that were read. -/
theorem follow_trail (hlo : lo.toNat ≤ 0x80 + n % 0x40) (hhi : 0x80 + n % 0x40 ≤ hi.toNat) :
    follow (m + 1) lo hi (n / 0x40) (trail n :: rest) =
      ((follow m 0x80 0xBF n rest).1 + 1, (follow m 0x80 0xBF n rest).2) := by
  have hbounds : lo ≤ trail n ∧ trail n ≤ hi := by
    rw [UInt8.le_iff_toNat_le, UInt8.le_iff_toNat_le, toNat_trail]
    exact ⟨hlo, hhi⟩
  have hacc : n / 0x40 * 0x40 + ((trail n).toNat - 0x80) = n := by
    rw [toNat_trail]
    omega
  simp only [follow, if_pos hbounds, hacc]

/-- Trailing octets are read back by the bounds of all places but the first. -/
theorem follow_trails (m n : Nat) (rest : Octets) :
    follow m 0x80 0xBF (n / 0x40 ^ m) (trails m n ++ rest) = (m, some (Char.ofNat n)) := by
  induction m with
  | zero => simp [follow]
  | succ m ih =>
    have hbits := Nat.mod_lt (n / 0x40 ^ m) (show 0 < 0x40 by decide)
    rw [Nat.pow_succ, ← Nat.div_div_eq_div_mul, trails, List.cons_append,
      follow_trail (Nat.le_add_right _ _) (show _ ≤ 0xBF by omega), ih]

/-- **A lead octet and what follows it** are read as the number that was written, if the
first trailing octet lies within the bounds that the lead octet sets. -/
theorem first_trails (hlead : lead b = some (m + 1, lo, hi))
    (hbits : leadBits (m + 1) b = n / 0x40 ^ (m + 1))
    (hlo : lo.toNat ≤ 0x80 + n / 0x40 ^ m % 0x40) (hhi : 0x80 + n / 0x40 ^ m % 0x40 ≤ hi.toNat) :
    first b (trails (m + 1) n ++ rest) = (m + 1, some (Char.ofNat n)) := by
  simp only [first, hlead, hbits]
  rw [Nat.pow_succ, ← Nat.div_div_eq_div_mul, trails, List.cons_append, follow_trail hlo hhi,
    follow_trails]

/-! ### Lead octets -/

/-- **A lead octet of two** allows for any trailing octet, since shorter ways of writing have no
lead octet. -/
theorem lead_two (hlow : 0xC2 ≤ b.toNat) (hhigh : b.toNat < 0xE0) :
    lead b = some (1, 0x80, 0xBF) := by
  have hone : ¬b < 0x80 := by
    rw [UInt8.lt_iff_toNat_lt]
    show ¬b.toNat < 0x80
    omega
  have hnone : ¬b < 0xC2 := by
    rw [UInt8.lt_iff_toNat_lt]
    exact Nat.not_lt.2 hlow
  have htwo : b < 0xE0 := by
    rw [UInt8.lt_iff_toNat_lt]
    exact hhigh
  rw [lead, if_neg hone, if_neg hnone, if_pos htwo]

/-- **A lead octet of three** leaves out the characters that two would do for, and the
surrogates. -/
theorem lead_three : ∀ k < 16,
    lead (UInt8.ofNat (0xE0 + k)) =
        some (2, if k = 0 then 0xA0 else 0x80, if k = 13 then 0x9F else 0xBF) ∧
      leadBits 2 (UInt8.ofNat (0xE0 + k)) = k := by
  decide

/-- **A lead octet of four** leaves out the characters that three would do for, and what is beyond
the last character. -/
theorem lead_four : ∀ k < 5,
    lead (UInt8.ofNat (0xF0 + k)) =
        some (3, if k = 0 then 0x90 else 0x80, if k = 4 then 0x8F else 0xBF) ∧
      leadBits 3 (UInt8.ofNat (0xF0 + k)) = k := by
  decide

/-- The first characters are written as themselves. -/
theorem first_one (h : n < 0x80) :
    first (UInt8.ofNat n) rest = (0, some (Char.ofNat n)) := by
  have hb : (UInt8.ofNat n).toNat = n := by
    rw [UInt8.toNat_ofNat']
    omega
  have hone : UInt8.ofNat n < 0x80 := by
    rw [UInt8.lt_iff_toNat_lt, hb]
    exact h
  have hlead : lead (UInt8.ofNat n) = some (0, 0, 0) := if_pos hone
  rw [first, hlead]
  show follow 0 0 0 (UInt8.ofNat n).toNat rest = _
  rw [hb, follow]

/-- Characters of eleven bits are read from two octets. -/
theorem first_two (hlow : 0x80 ≤ n) (hhigh : n < 0x800) :
    first (UInt8.ofNat (0xC0 + n / 0x40)) (trails 1 n ++ rest) = (1, some (Char.ofNat n)) := by
  have hb : (UInt8.ofNat (0xC0 + n / 0x40)).toNat = 0xC0 + n / 0x40 := by
    simp only [UInt8.toNat_ofNat']
    omega
  have hbits : leadBits 1 (UInt8.ofNat (0xC0 + n / 0x40)) = n / 0x40 := by
    show (UInt8.ofNat (0xC0 + n / 0x40)).toNat - 0xC0 = n / 0x40
    rw [hb, Nat.add_sub_cancel_left]
  refine first_trails (lead_two ?_ ?_) hbits (Nat.le_add_right _ _) ?_
  · rw [hb]
    omega
  · rw [hb]
    omega
  · show _ ≤ 0xBF
    omega

/-- Overlong forms lie below the bounds, surrogates above. -/
theorem first_three (hlow : 0x800 ≤ n) (hhigh : n < 0x10000)
    (hvalid : n < 0xD800 ∨ 0xDFFF < n) :
    first (UInt8.ofNat (0xE0 + n / 0x1000)) (trails 2 n ++ rest) =
      (2, some (Char.ofNat n)) := by
  obtain ⟨hlead, hbits⟩ := lead_three (n / 0x1000) (by omega)
  refine first_trails hlead hbits ?_ ?_
  · split_ifs with hfirst
    · show 0xA0 ≤ 0x80 + n / 0x40 % 0x40
      omega
    · exact Nat.le_add_right _ _
  · split_ifs with hlast
    · show 0x80 + n / 0x40 % 0x40 ≤ 0x9F
      omega
    · show 0x80 + n / 0x40 % 0x40 ≤ 0xBF
      omega

/-- Overlong forms lie below the bounds, and above them what is no character. -/
theorem first_four (hlow : 0x10000 ≤ n) (hhigh : n < 0x110000) :
    first (UInt8.ofNat (0xF0 + n / 0x40000)) (trails 3 n ++ rest) =
      (3, some (Char.ofNat n)) := by
  obtain ⟨hlead, hbits⟩ := lead_four (n / 0x40000) (by omega)
  refine first_trails hlead hbits ?_ ?_
  · split_ifs with hfirst
    · show 0x90 ≤ 0x80 + n / 0x1000 % 0x40
      omega
    · exact Nat.le_add_right _ _
  · split_ifs with hlast
    · show 0x80 + n / 0x1000 % 0x40 ≤ 0x8F
      omega
    · show 0x80 + n / 0x1000 % 0x40 ≤ 0xBF
      omega

/-! ### Characters and texts -/

/-- There are as many trailing octets as are asked for. -/
theorem length_trails (m n : Nat) : (trails m n).length = m := by
  induction m with
  | zero => rfl
  | succ m ih => rw [trails, List.length_cons, ih]

/-- Where the first character is read, the rest is read on. -/
theorem chars_of_first
    (hfirst : first b (trails m c.toNat ++ rest) = (m, some (Char.ofNat c.toNat))) :
    chars (b :: trails m c.toNat ++ rest) = c :: chars rest := by
  have hdrop : (trails m c.toNat ++ rest).drop m = rest := by
    have hleft : (trails m c.toNat ++ rest).drop (trails m c.toNat).length = rest :=
      List.drop_left
    rwa [length_trails] at hleft
  rw [List.cons_append, chars, hfirst]
  simp only [Option.getD_some, Char.ofNat_toNat, hdrop]

/-- **A character is read back**, whatever follows it. -/
theorem chars_encodeChar (c : Char) (rest : Octets) :
    chars (encodeChar c ++ rest) = c :: chars rest := by
  have hvalid : c.toNat < 0xD800 ∨ (0xDFFF < c.toNat ∧ c.toNat < 0x110000) := c.valid
  unfold encodeChar
  dsimp only
  split_ifs with hone htwo hthree
  · exact chars_of_first (m := 0) (first_one hone)
  · have hread := chars_of_first (@first_two c.toNat rest (Nat.not_lt.1 hone) htwo)
    simpa only [trails, trail, Nat.pow_zero, Nat.div_one] using hread
  · have hread := chars_of_first (@first_three c.toNat rest (by omega) hthree (by omega))
    simpa only [trails, trail, Nat.pow_zero, Nat.div_one, Nat.pow_one] using hread
  · have hread := chars_of_first
      (@first_four c.toNat rest (Nat.not_lt.1 hthree) (by omega))
    simpa only [trails, trail, Nat.pow_zero, Nat.div_one, Nat.pow_one, Nat.reducePow] using hread

/-- **Every text is read back from its octets.** -/
theorem decode_encode (s : String) : decode (encode s) = s := by
  have hchars : ∀ cs : List Char, chars (cs.flatMap encodeChar) = cs := by
    intro cs
    induction cs with
    | nil => rw [List.flatMap_nil, chars]
    | cons c cs ih => rw [List.flatMap_cons, chars_encodeChar, ih]
  rw [decode, encode, hchars, String.ofList_toList]

/-! ### Sizes -/

/-- The octets of a character are those of the standard library. -/
theorem encodeChar_eq (c : Char) : encodeChar c = String.utf8EncodeChar c := by
  have hvalid : c.toNat < 0xD800 ∨ (0xDFFF < c.toNat ∧ c.toNat < 0x110000) := c.valid
  have hle : ∀ k, (c.toNat ≤ k) = (c.toNat < k + 1) := fun k => propext Nat.lt_succ_iff.symm
  unfold encodeChar String.utf8EncodeChar
  simp only [Char.toNat_val, hle, Nat.reduceAdd]
  split_ifs with hone htwo hthree
  · rfl
  · rw [Nat.mod_eq_of_lt (show c.toNat / 0x40 < 32 by omega), Nat.add_comm 0xC0,
      Nat.add_comm 0x80]
  · rw [Nat.mod_eq_of_lt (show c.toNat / 0x1000 < 16 by omega), Nat.add_comm 0xE0,
      Nat.add_comm 0x80, Nat.add_comm 0x80]
  · rw [Nat.mod_eq_of_lt (show c.toNat / 0x40000 < 8 by omega), Nat.add_comm 0xF0,
      Nat.add_comm 0x80, Nat.add_comm 0x80, Nat.add_comm 0x80]

/-- A text takes as many octets as it is bytes long. -/
theorem length_encode (s : String) : (encode s).length = s.utf8ByteSize := by
  have hchars : ∀ cs : List Char,
      (cs.flatMap encodeChar).length = (String.ofList cs).utf8ByteSize := by
    intro cs
    induction cs with
    | nil => rfl
    | cons c cs ih =>
      rw [List.flatMap_cons, List.length_append, ih, encodeChar_eq, String.length_utf8EncodeChar,
        String.ofList_cons, String.utf8ByteSize_append, String.utf8ByteSize_singleton]
  rw [encode, hchars, String.ofList_toList]

/-! ### Octets without faults -/

/-- **Well-formed octets are read as the text that they encode.** -/
theorem decode_eq_fromUTF8 {bytes : Octets} (h : (ByteArray.mk bytes.toArray).IsValidUTF8) :
    decode bytes = String.fromUTF8 (ByteArray.mk bytes.toArray) h := by
  obtain ⟨cs, hcs⟩ := id h
  have hbytes : bytes = encode (String.ofList cs) := by
    have hdata := congrArg (fun array : ByteArray => array.data.toList) hcs
    simp only [List.utf8Encode, List.data_toByteArray] at hdata
    rw [hdata, encode, String.toList_ofList, funext encodeChar_eq]
  rw [← String.toByteArray_inj]
  show _ = ByteArray.mk bytes.toArray
  rw [hcs, hbytes, decode_encode, String.toByteArray_ofList]

end Utf8
end Lldp
