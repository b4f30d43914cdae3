/-
# Hexadecimal text is read back

A character is a digit if it stands in one of two tables, in lower or in upper case, and
its place there is its value (`Hex.IsDigit`); this is all that reading a digit comes to
(`Hex.digit?_eq_some_iff`).  The value of a run of digits is the number they write in base
sixteen (`Hex.value?_eq_some_iff`), so leading zeros make no difference.

Writing uses the lower case only, two digits for an octet and as few as will do for a group
of sixteen bits; either is read back (`Hex.value?_octet`, `Hex.value?_group`), so different
octets and groups are written differently.  Nothing but digits is ever written, which tells
a text in hexadecimal from one with separators.
-/

import Lldp.Text.Hex
import Mathlib.Data.List.Forall2
import Mathlib.Data.Nat.Digits.Defs
import Mathlib.Tactic.Ring
import Mathlib.Tactic.SplitIfs

namespace Lldp
namespace Hex

variable {c : Char} {cs : List Char} {n v : Nat}

/-- The digits as they are written, in the order of their values. -/
def lowerDigits : List Char := "0123456789abcdef".toList

/-- The digits in upper case. -/
def upperDigits : List Char := "0123456789ABCDEF".toList

/-- The character is a digit of this value, in either case. -/
def IsDigit (c : Char) (v : Nat) : Prop := lowerDigits[v]? = some c ∨ upperDigits[v]? = some c

instance : Decidable (IsDigit c v) := inferInstanceAs (Decidable (_ ∨ _))

/-- The characters are digits, and this is the number that they write. -/
def Writes (cs : List Char) (n : Nat) : Prop :=
  ∃ vs, List.Forall₂ IsDigit cs vs ∧ Nat.ofDigits 16 vs.reverse = n

/-! ### Digits -/

/-- There are sixteen digits in each case. -/
theorem IsDigit.lt (h : IsDigit c v) : v < 16 :=
  h.elim (fun h => (List.getElem?_eq_some_iff.1 h).1) fun h => (List.getElem?_eq_some_iff.1 h).1

/-- Digits are among the first characters. -/
theorem IsDigit.ascii (h : IsDigit c v) : c.toNat < 128 := by
  have htables : (lowerDigits ++ upperDigits).all (·.toNat < 128) = true := by decide
  have hmem : c ∈ lowerDigits ++ upperDigits :=
    List.mem_append.2 (h.imp List.mem_of_getElem? List.mem_of_getElem?)
  exact of_decide_eq_true (List.all_eq_true.1 htables c hmem)

/-- Among the first characters, those in the tables are read as digits, and no others. -/
theorem digit?_ascii : ∀ k < 128, ∀ v < 16,
    digit? (Char.ofNat k) = some v ↔ IsDigit (Char.ofNat k) v := by
  decide +kernel

/-- What is read as a digit lies in one of the three ranges. -/
theorem bounds_of_digit? (h : digit? c = some v) : c.toNat < 128 ∧ v < 16 := by
  have hrange : ∀ {a b : Char}, a ≤ c ∧ c ≤ b → a.toNat ≤ c.toNat ∧ c.toNat ≤ b.toNat := id
  unfold digit? at h
  split_ifs at h with hdecimal hlower hupper
  · obtain ⟨hlow, hhigh⟩ : 48 ≤ c.toNat ∧ c.toNat ≤ 57 := hrange hdecimal
    obtain rfl := Option.some.inj h
    omega
  · obtain ⟨hlow, hhigh⟩ : 97 ≤ c.toNat ∧ c.toNat ≤ 102 := hrange hlower
    obtain rfl := Option.some.inj h
    omega
  · obtain ⟨hlow, hhigh⟩ : 65 ≤ c.toNat ∧ c.toNat ≤ 70 := hrange hupper
    obtain rfl := Option.some.inj h
    omega

/-- **A digit is read as its place in the table.** -/
theorem digit?_eq_some_iff : digit? c = some v ↔ IsDigit c v := by
  have hascii : c.toNat < 128 → v < 16 → (digit? c = some v ↔ IsDigit c v) := by
    intro hc hv
    have hcode := digit?_ascii c.toNat hc v hv
    rwa [Char.ofNat_toNat] at hcode
  constructor
  · intro h
    obtain ⟨hc, hv⟩ := bounds_of_digit? h
    exact (hascii hc hv).1 h
  · intro h
    exact (hascii h.ascii h.lt).2 h

/-- A character is a digit of one value. -/
theorem IsDigit.unique {v' : Nat} (h : IsDigit c v) (h' : IsDigit c v') : v = v' :=
  Option.some.inj ((digit?_eq_some_iff.2 h).symm.trans (digit?_eq_some_iff.2 h'))

/-- A digit is written in lower case. -/
theorem digit_mem : ∀ k < 16, digit k ∈ lowerDigits := by
  decide

/-- A digit that is written is read back. -/
theorem digit?_digit : ∀ k < 16, digit? (digit k) = some k := by
  decide

/-- Only one way of writing a value uses lower case. -/
theorem IsDigit.eq_digit (h : IsDigit c v) (hlower : c ∈ lowerDigits) : c = digit v := by
  have htable : ∀ k < 16, lowerDigits.all fun d => IsDigit d k → d = digit k := by decide
  exact of_decide_eq_true (List.all_eq_true.1 (htable v h.lt) c hlower) h

/-! ### Numbers -/

/-- Reading goes on from the number that was read so far. -/
theorem foldl_eq_some_iff (acc : Nat) :
    cs.foldl (fun acc c => acc.bind fun n => (digit? c).map (n * 16 + ·)) (some acc) = some n ↔
      ∃ vs, List.Forall₂ IsDigit cs vs ∧ acc * 16 ^ cs.length + Nat.ofDigits 16 vs.reverse = n := by
  induction cs generalizing acc with
  | nil => simp
  | cons c rest ih =>
    have hstuck : ∀ cs : List Char,
        cs.foldl (fun acc c => acc.bind fun n => (digit? c).map (n * 16 + ·)) none = none := by
      intro cs
      induction cs with
      | nil => rfl
      | cons c rest ih => exact ih
    rw [List.foldl_cons, Option.bind_some]
    cases hc : digit? c with
    | none =>
      rw [Option.map_none, hstuck]
      refine iff_of_false nofun ?_
      rintro ⟨_, hall, -⟩
      obtain ⟨v, _, hv, -, -⟩ := List.forall₂_cons_left_iff.1 hall
      rw [digit?_eq_some_iff.2 hv] at hc
      cases hc
    | some v =>
      have hv := digit?_eq_some_iff.1 hc
      have hvalue : ∀ vs : List Nat, vs.length = rest.length →
          acc * 16 ^ (c :: rest).length + Nat.ofDigits 16 (v :: vs).reverse =
            (acc * 16 + v) * 16 ^ rest.length + Nat.ofDigits 16 vs.reverse := by
        intro vs hlength
        rw [Nat.ofDigits_reverse_cons, hlength, List.length_cons]
        ring
      rw [Option.map_some, ih]
      constructor
      · rintro ⟨vs, hall, hn⟩
        exact ⟨v :: vs, .cons hv hall, (hvalue vs hall.length_eq.symm).trans hn⟩
      · rintro ⟨_, hall, hn⟩
        obtain ⟨v', vs, hv', hall', rfl⟩ := List.forall₂_cons_left_iff.1 hall
        obtain rfl := hv.unique hv'
        exact ⟨vs, hall', (hvalue vs hall'.length_eq.symm).symm.trans hn⟩

/-- **The value of a run of digits is the number that they write.** -/
theorem value?_eq_some_iff : value? cs = some n ↔ Writes cs n := by
  rw [value?, foldl_eq_some_iff]
  simp only [Nat.zero_mul, Nat.zero_add]
  rfl

/-! ### Octets and groups -/

/-- An octet is written in lower-case digits. -/
theorem octet_subset (b : UInt8) : octet b ⊆ lowerDigits := by
  have hb := b.toNat_lt
  simp (disch := omega) only [octet, List.cons_subset, List.nil_subset, digit_mem, and_self]

/-- **An octet is read back.** -/
theorem value?_octet (b : UInt8) : value? (octet b) = some b.toNat := by
  have hb := b.toNat_lt
  have hhigh := digit?_digit (b.toNat / 16) (by omega)
  have hlow := digit?_digit (b.toNat % 16) (by omega)
  simp only [value?, octet, List.foldl_cons, List.foldl_nil, Option.bind_some, hhigh, hlow,
    Option.map_some, Option.some.injEq]
  omega

/-- No two octets are written alike. -/
theorem octet_injective : Function.Injective octet := by
  intro b b' h
  have hvalue := value?_octet b
  rw [h, value?_octet b'] at hvalue
  exact UInt8.toNat_inj.1 (Option.some.inj hvalue).symm

/-- **Octets in a row** are told apart, since each takes two digits. -/
theorem encode_injective : Function.Injective encode := by
  intro bytes bytes' h
  replace h := String.ofList_injective h
  induction bytes generalizing bytes' with
  | nil =>
    cases bytes' with
    | nil => rfl
    | cons b' rest' => cases h
  | cons b rest ih =>
    cases bytes' with
    | nil => cases h
    | cons b' rest' =>
      rw [List.flatMap_cons, List.flatMap_cons] at h
      obtain ⟨hfirst, hrest⟩ := List.append_inj h rfl
      rw [octet_injective hfirst, ih hrest]

/-- So are any number of octets. -/
theorem encode_subset (bytes : Octets) : (encode bytes).toList ⊆ lowerDigits := by
  rw [encode, String.toList_ofList]
  intro c h
  obtain ⟨b, -, hb⟩ := List.mem_flatMap.1 h
  exact octet_subset b hb

/-- A group is written in lower-case digits. -/
theorem group_subset (w : UInt16) : group w ⊆ lowerDigits := by
  have hw := w.toNat_lt
  unfold group
  dsimp only
  split_ifs
  all_goals
    simp (disch := omega) only [List.cons_subset, List.nil_subset, digit_mem, and_self]

/-- A group has one digit at the least. -/
theorem group_ne_nil (w : UInt16) : group w ≠ [] := by
  unfold group
  dsimp only
  split_ifs <;> exact List.cons_ne_nil _ _

/-- **A group is read back.** -/
theorem value?_group (w : UInt16) : value? (group w) = some w.toNat := by
  have hw := w.toNat_lt
  unfold group
  dsimp only
  split_ifs with hone htwo hthree
  all_goals
    simp (disch := omega) only [value?, List.foldl_cons, List.foldl_nil, Option.bind_some,
      digit?_digit, Option.map_some, Option.some.injEq]
    omega

/-- No two groups are written alike. -/
theorem group_injective : Function.Injective group := by
  intro w w' h
  have hvalue := value?_group w
  rw [h, value?_group w'] at hvalue
  exact UInt16.toNat_inj.1 (Option.some.inj hvalue).symm

end Hex
end Lldp
