/-
# Texts of addresses

An address is read from any text that has six fields, each of which spells an octet
(`Mac.parse_eq_ok_iff`).  What parts the fields is the colon if the text has one, and else
the hyphen, so a text with both has fields that spell nothing.  A field has digits of either
case, as many as it likes, and may begin with a plus sign (`Mac.Spells`).

An address is written in one way: six fields of two digits in lower case with a colon between
them.  That text is read back as the address, and so is the one with hyphens
(`Mac.ofText?_chars`).  Of all the texts that are read as an address, only the one that is
written is canonical (`Mac.eq_text_iff`), so reading and writing again changes a text at most
once.
-/

import Lldp.Error
import Lldp.Proofs.Text.Hex

namespace Lldp
namespace Mac

variable {m : Mac} {s : String} {field : List Char} {b : UInt8} {bytes : Octets}

/-- What parts the fields of a text. -/
def separator (s : String) : Char := if ':' ∈ s.toList then ':' else '-'

/-- The fields of a text. -/
def fields (s : String) : List (List Char) := s.toList.splitOn (separator s)

/-- The field spells an octet: digits that write its value, one at least, perhaps after a plus
sign. -/
def Spells (field : List Char) (b : UInt8) : Prop :=
  ∃ digits, (field = digits ∨ field = '+' :: digits) ∧ digits ≠ [] ∧ Hex.Writes digits b.toNat

/-- The text has six fields of two digits in lower case, with a colon between them. -/
def IsCanonical (s : String) : Prop :=
  (s.toList.splitOn ':').length = 6 ∧
    ∀ field ∈ s.toList.splitOn ':', field.length = 2 ∧ field ⊆ Hex.lowerDigits

/-! ### Six octets -/

/-- An address is read from six octets, which are its own. -/
theorem ofOctets?_eq_some_iff : ofOctets? bytes = some m ↔ bytes = m.toOctets := by
  constructor
  · intro h
    unfold ofOctets? at h
    split at h
    · obtain rfl := Option.some.inj h
      rfl
    · cases h
  · rintro rfl
    exact ofOctets?_toOctets m

/-- Any six octets are an address. -/
theorem exists_toOctets (h : bytes.length = 6) : ∃ m : Mac, bytes = m.toOctets := by
  match bytes, h with
  | [a, b, c, d, e, f], _ => exact ⟨⟨a, b, c, d, e, f⟩, rfl⟩

/-! ### Fields -/

/-- Fields are what is left between separators, empty ones included. -/
theorem parts_eq_splitOn (sep : Char) (cs : List Char) : parts sep cs = cs.splitOn sep := by
  induction cs with
  | nil => rfl
  | cons c rest ih =>
    rw [parts, ih, List.splitOn_cons_eq_if_modifyHead]
    by_cases hc : c = sep
    · rw [if_pos hc, if_pos (beq_iff_eq.2 hc)]
    · rw [if_neg hc, if_neg (mt beq_iff_eq.1 hc)]
      cases hrest : rest.splitOn sep with
      | nil => exact absurd hrest (List.splitOn_ne_nil sep rest)
      | cons p ps => rfl

/-- The octet that digits write, if there are any and their value is below 256. -/
def run? (digits : List Char) : Option UInt8 :=
  if digits.isEmpty then none
  else
    match Hex.value? digits with
    | some n => if n < 256 then some (UInt8.ofNat n) else none
    | none => none

/-- A run of digits is read as the octet that it writes, however many zeros come first. -/
theorem run?_eq_some_iff {digits : List Char} :
    run? digits = some b ↔ digits ≠ [] ∧ Hex.Writes digits b.toNat := by
  rw [← Hex.value?_eq_some_iff, run?]
  cases digits with
  | nil => simp
  | cons c rest =>
    simp only [List.isEmpty_cons, Bool.false_eq_true, if_false, ne_eq, reduceCtorEq,
      not_false_eq_true, true_and]
    cases hvalue : Hex.value? (c :: rest) with
    | none => simp
    | some n =>
      dsimp only
      rw [Option.some.injEq]
      split_ifs with hn
      · rw [Option.some.injEq, ← UInt8.toNat_inj, UInt8.toNat_ofNat_of_lt' hn]
      · have hb := b.toNat_lt
        simp only [false_iff]
        omega

/-- **A field is read as the octet that it spells.** -/
theorem octet?_eq_some_iff : octet? field = some b ↔ Spells field b := by
  have hplus : ∀ {rest : List Char} {n : Nat}, ¬Hex.Writes ('+' :: rest) n := by
    rintro rest n ⟨vs, hall, -⟩
    obtain ⟨v, _, hv, -, -⟩ := List.forall₂_cons_left_iff.1 hall
    have hnone : Hex.digit? '+' = none := by decide
    rw [← Hex.digit?_eq_some_iff, hnone] at hv
    cases hv
  unfold octet?
  refine run?_eq_some_iff.trans ?_
  split
  · rename_i rest
    constructor
    · exact fun h => ⟨rest, Or.inr rfl, h⟩
    · rintro ⟨digits, rfl | heq, h⟩
      · exact absurd h.2 hplus
      · obtain rfl := (List.cons.inj heq).2
        exact h
  · rename_i hfield
    constructor
    · exact fun h => ⟨field, Or.inl rfl, h⟩
    · rintro ⟨digits, rfl | heq, h⟩
      · exact h
      · exact absurd heq (hfield digits)

/-- Fields are read as octets just if each of them spells its own. -/
theorem mapM_octet? {fields : List (List Char)} :
    fields.mapM octet? = some bytes ↔ List.Forall₂ Spells fields bytes := by
  induction fields generalizing bytes with
  | nil =>
    rw [List.mapM_nil, List.forall₂_nil_left_iff]
    exact ⟨fun h => (Option.some.inj h).symm, fun h => h ▸ rfl⟩
  | cons field rest ih =>
    rw [List.mapM_cons, List.forall₂_cons_left_iff]
    simp only [bind, Option.bind_eq_some_iff, pure, Option.some.injEq, octet?_eq_some_iff, ih]
    constructor
    · rintro ⟨b, hb, bytes, hbytes, rfl⟩
      exact ⟨b, bytes, hb, hbytes, rfl⟩
    · rintro ⟨b, bytes, hb, hbytes, rfl⟩
      exact ⟨b, hb, bytes, hbytes, rfl⟩

/-! ### Reading -/

/-- **An address is read from fields that spell its octets.** -/
theorem ofText?_eq_some_iff : ofText? s = some m ↔ List.Forall₂ Spells (fields s) m.toOctets := by
  rw [ofText?, ofChars?, parts_eq_splitOn, fields, separator]
  constructor
  · intro h
    split at h
    · rename_i bytes hbytes
      rw [← ofOctets?_eq_some_iff.1 h]
      exact mapM_octet?.1 hbytes
    · cases h
  · intro h
    rw [mapM_octet?.2 h]
    exact ofOctets?_toOctets m

/-- **An address is read** from a text whose fields spell its octets, and from no other. -/
theorem parse_eq_ok_iff : parse s = .ok m ↔ List.Forall₂ Spells (fields s) m.toOctets := by
  rw [← ofText?_eq_some_iff, parse]
  cases ofText? s with
  | none => exact iff_of_false nofun nofun
  | some m' => simp only [Except.ok.injEq, Option.some.injEq]

/-- A text that is not read as an address is named in the error. -/
theorem parse_eq_error_iff {e : Error} : parse s = .error e ↔ e = .macText s ∧ ofText? s = none := by
  rw [parse]
  cases ofText? s with
  | none => simp only [Except.error.injEq, and_true, eq_comm]
  | some m' => exact iff_of_false nofun nofun

/-- Six fields are enough if each of them spells something. -/
theorem exists_ofText?_iff : (∃ m, ofText? s = some m) ↔
    (fields s).length = 6 ∧ ∀ field ∈ fields s, ∃ b, Spells field b := by
  have hchoice : ∀ {fields : List (List Char)}, (∀ field ∈ fields, ∃ b, Spells field b) →
      ∃ bytes, List.Forall₂ Spells fields bytes := by
    intro fields hall
    induction fields with
    | nil => exact ⟨[], .nil⟩
    | cons field rest ih =>
      obtain ⟨hfield, hrest⟩ := List.forall_mem_cons.1 hall
      obtain ⟨b, hb⟩ := hfield
      obtain ⟨bytes, hbytes⟩ := ih hrest
      exact ⟨b :: bytes, .cons hb hbytes⟩
  constructor
  · rintro ⟨m, hm⟩
    have hall := ofText?_eq_some_iff.1 hm
    refine ⟨hall.length_eq, fun field hfield => ?_⟩
    obtain ⟨i, hi, rfl⟩ := List.getElem_of_mem hfield
    exact ⟨_, hall.get hi (hall.length_eq ▸ hi)⟩
  · rintro ⟨hsix, hall⟩
    obtain ⟨bytes, hbytes⟩ := hchoice hall
    obtain ⟨m, rfl⟩ := exists_toOctets (hbytes.length_eq.symm.trans hsix)
    exact ⟨m, ofText?_eq_some_iff.2 hbytes⟩

/-! ### Writing -/

/-- What is written is the octets with a separator between them. -/
theorem chars_eq_intercalate (sep : Char) (m : Mac) :
    m.chars sep = [sep].intercalate (m.toOctets.map Hex.octet) := rfl

/-- The text of an address has colons. -/
theorem toList_text (m : Mac) : m.text.toList = m.chars ':' := String.toList_ofList

/-- Two digits spell the octet that they write. -/
theorem spells_octet (b : UInt8) : Spells (Hex.octet b) b :=
  ⟨Hex.octet b, Or.inl rfl, List.cons_ne_nil _ _, Hex.value?_eq_some_iff.1 (Hex.value?_octet b)⟩

/-- No digit is a separator, so the fields of what is written are the octets. -/
theorem splitOn_chars {sep : Char} (h : sep ∉ Hex.lowerDigits) (m : Mac) :
    (m.chars sep).splitOn sep = m.toOctets.map Hex.octet := by
  rw [chars_eq_intercalate]
  refine List.splitOn_intercalate sep (fun field hfield hmem => ?_) (List.cons_ne_nil _ _)
  obtain ⟨b, -, rfl⟩ := List.mem_map.1 hfield
  exact h (Hex.octet_subset b hmem)

/-- Neither of the two separators is a digit. -/
theorem notMem_lowerDigits_of_sep {sep : Char} (h : sep = ':' ∨ sep = '-') :
    sep ∉ Hex.lowerDigits := by
  rcases h with rfl | rfl <;> decide

/-- **What is written is read**, with colons or with hyphens. -/
theorem ofText?_chars {sep : Char} (hsep : sep = ':' ∨ sep = '-') (m : Mac) :
    ofText? (String.ofList (m.chars sep)) = some m := by
  have hnone := notMem_lowerDigits_of_sep hsep
  have hfields : fields (String.ofList (m.chars sep)) = m.toOctets.map Hex.octet := by
    have hdigits : ∀ b : UInt8, ':' ∉ Hex.octet b := fun b h =>
      notMem_lowerDigits_of_sep (Or.inl rfl) (Hex.octet_subset b h)
    have hmem : ':' ∈ m.chars sep ↔ sep = ':' := by
      simp [chars, hdigits, eq_comm]
    rw [fields, separator, String.toList_ofList]
    rcases hsep with rfl | rfl
    · rw [if_pos (hmem.2 rfl), splitOn_chars hnone]
    · rw [if_neg (mt hmem.1 (by decide)), splitOn_chars hnone]
  rw [ofText?_eq_some_iff, hfields, List.forall₂_map_left_iff, List.forall₂_same]
  exact fun b _ => spells_octet b

/-- The text of an address is read back as the address. -/
theorem ofText?_text (m : Mac) : ofText? m.text = some m := ofText?_chars (Or.inl rfl) m

/-- **To read what is written** gives the address again. -/
theorem parse_text (m : Mac) : parse m.text = .ok m := by
  rw [parse, ofText?_text]

/-- Two addresses are never written alike. -/
theorem text_injective : Function.Injective text := by
  intro m m' h
  have hback := ofText?_text m
  rw [h, ofText?_text] at hback
  exact (Option.some.inj hback).symm

/-- The text with hyphens for its colons. -/
theorem map_text (m : Mac) :
    (m.text.map fun c => if c = ':' then '-' else c) = String.ofList (m.chars '-') := by
  have hkeep : ∀ b : UInt8, (Hex.octet b).map (fun c => if c = ':' then '-' else c) = Hex.octet b := by
    intro b
    refine List.map_congr_left (fun c hc => ?_) |>.trans (List.map_id _)
    have hne : c ≠ ':' := fun heq =>
      notMem_lowerDigits_of_sep (Or.inl rfl) (Hex.octet_subset b (heq ▸ hc))
    exact if_neg hne
  rw [← String.toList_inj, String.toList_map, toList_text, String.toList_ofList]
  simp only [chars, List.map_append, List.map_cons, hkeep, if_true]

/-! ### The canonical text -/

/-- What is written is canonical. -/
theorem isCanonical_text (m : Mac) : IsCanonical m.text := by
  rw [IsCanonical, toList_text, splitOn_chars (notMem_lowerDigits_of_sep (Or.inl rfl))]
  refine ⟨rfl, fun field hfield => ?_⟩
  obtain ⟨b, -, rfl⟩ := List.mem_map.1 hfield
  exact ⟨rfl, Hex.octet_subset b⟩

/-- Two digits in lower case spell the octet that is written so. -/
theorem eq_octet_of_spells (h : Spells field b) (hlength : field.length = 2)
    (hlower : field ⊆ Hex.lowerDigits) : field = Hex.octet b := by
  have hplus : '+' ∉ Hex.lowerDigits := by decide
  obtain ⟨digits, hfield, -, vs, hall, hvalue⟩ := h
  rcases hfield with rfl | rfl
  · obtain ⟨c, d, rfl⟩ := List.length_eq_two.1 hlength
    obtain ⟨v, _, hv, hrest, rfl⟩ := List.forall₂_cons_left_iff.1 hall
    obtain ⟨w, _, hw, hnil, rfl⟩ := List.forall₂_cons_left_iff.1 hrest
    obtain rfl := List.forall₂_nil_left_iff.1 hnil
    have hvlt := hv.lt
    have hwlt := hw.lt
    have hb : b.toNat = v * 16 + w := by
      rw [← hvalue]
      simp [Nat.ofDigits_cons]
      omega
    rw [hv.eq_digit (hlower (by simp)), hw.eq_digit (hlower (by simp)), Hex.octet, hb,
      show (v * 16 + w) / 16 = v by omega, show (v * 16 + w) % 16 = w by omega]
  · exact absurd (hlower List.mem_cons_self) hplus

/-- Of fields that spell octets, those of two lower-case digits are what is written. -/
theorem eq_map_octet_of_spells {fields : List (List Char)} (h : List.Forall₂ Spells fields bytes)
    (hcanonical : ∀ field ∈ fields, field.length = 2 ∧ field ⊆ Hex.lowerDigits) :
    fields = bytes.map Hex.octet := by
  induction h with
  | nil => rfl
  | cons hfield _ ih =>
    obtain ⟨⟨hlength, hlower⟩, hrest⟩ := List.forall_mem_cons.1 hcanonical
    rw [List.map_cons, ← eq_octet_of_spells hfield hlength hlower, ← ih hrest]

/-- **An address has one canonical text**, the one that is written. -/
theorem eq_text_iff : s = m.text ↔ IsCanonical s ∧ ofText? s = some m := by
  constructor
  · rintro rfl
    exact ⟨isCanonical_text m, ofText?_text m⟩
  · rintro ⟨⟨hsix, hcanonical⟩, hread⟩
    have hseparator : separator s = ':' := by
      refine if_pos (Decidable.byContradiction fun hnone => ?_)
      rw [List.splitOn_eq_singleton hnone] at hsix
      cases hsix
    have hspelled := ofText?_eq_some_iff.1 hread
    rw [fields, hseparator] at hspelled
    rw [← String.toList_inj, toList_text, chars_eq_intercalate,
      ← eq_map_octet_of_spells hspelled hcanonical, List.intercalate_splitOn]

/-- **Addresses are read as they are spelled.**  A text is read if and only if its six fields
spell octets, which then are the address, and any other text is refused with an error about the
configuration that names it.  What is written is read back, with colons and with hyphens; and
whatever text an address was read from, there is one canonical text of it, the one that is
written. -/
theorem read_as_spelled :
    (∀ s : String, (∃ m, parse s = .ok m) ↔
      (fields s).length = 6 ∧ ∀ field ∈ fields s, ∃ b, Spells field b) ∧
    (∀ (s : String) (m : Mac), parse s = .ok m ↔ List.Forall₂ Spells (fields s) m.toOctets) ∧
    (∀ (s : String) (e : Error), parse s = .error e →
      e = .macText s ∧ e.kind = .config ∧
      e.message = "Configuration error: invalid MAC address: " ++ s) ∧
    (∀ m : Mac, parse m.text = .ok m ∧
      parse (m.text.map fun c => if c = ':' then '-' else c) = .ok m) ∧
    ∀ (s : String) (m : Mac), parse s = .ok m →
      parse m.text = .ok m ∧ ∀ t, t = m.text ↔ IsCanonical t ∧ parse t = .ok m := by
  have hparse : ∀ {s : String} {m : Mac}, parse s = .ok m ↔ ofText? s = some m := by
    intro s m
    rw [parse_eq_ok_iff, ofText?_eq_some_iff]
  refine ⟨fun s => ?_, fun s m => parse_eq_ok_iff, fun s e h => ?_, fun m => ?_, fun s m _ => ?_⟩
  · simp only [hparse]
    exact exists_ofText?_iff
  · obtain ⟨rfl, -⟩ := parse_eq_error_iff.1 h
    exact ⟨rfl, rfl, rfl⟩
  · refine ⟨parse_text m, ?_⟩
    rw [map_text, hparse]
    exact ofText?_chars (Or.inr rfl) m
  · refine ⟨parse_text m, fun t => ?_⟩
    rw [hparse]
    exact eq_text_iff

/-- A plus sign, leading zeros and both cases are read, and there is one canonical text for what
was read; a hyphen among colons parts nothing. -/
theorem read_as_spelled_loosely :
    (∃ m, parse "+A-0000b-C-+00d-e-FF" = .ok m ∧ m.toOctets = [10, 11, 12, 13, 14, 255] ∧
      ∀ t, t = "0a:0b:0c:0d:0e:ff" ↔ IsCanonical t ∧ parse t = .ok m) ∧
    ∃ e, parse "0a:0b:0c:0d:0e-ff" = .error e ∧ e.kind = .config ∧
      e.message = "Configuration error: invalid MAC address: 0a:0b:0c:0d:0e-ff" := by
  obtain ⟨-, -, hrefused, -, hcanonical⟩ := read_as_spelled
  have hread : parse "+A-0000b-C-+00d-e-FF" = .ok ⟨10, 11, 12, 13, 14, 255⟩ := by rfl
  have hmixed : parse "0a:0b:0c:0d:0e-ff" = .error (.macText "0a:0b:0c:0d:0e-ff") := by rfl
  exact ⟨⟨_, hread, rfl, (hcanonical _ _ hread).2⟩, _, hmixed, (hrefused _ _ hmixed).2⟩

end Mac
end Lldp
