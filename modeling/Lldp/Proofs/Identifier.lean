/-
# Identifiers are told apart by their texts

Whoever reads the text of an identifier knows its octets, if its subtype is known
(`IdForm.Faithful`).  A form other than text has several ways of writing, since octets that do
not fit the form are written in hexadecimal, and nothing says which way it was.  But the
separators give it away: hexadecimal has none, a MAC address has colons, an IPv4 address has
dots and no colons, and an IPv6 address has colons, with dots or without
(`IdForm.networkText_cases`).  Each of the ways gives the octets back.

Octets that are to be read as text may be anything, and faults in them are covered up.  Without
faults they are the text that is shown.
-/

import Lldp.Identifier
import Lldp.Proofs.Address
import Lldp.Proofs.Mac
import Lldp.Proofs.Text.Utf8
import Mathlib.Data.Set.Function

namespace Lldp
namespace IdForm

/-- Hexadecimal has no separators. -/
theorem notMem_encode {c : Char} (h : c ∉ Hex.lowerDigits) (id : Octets) :
    c ∉ (Hex.encode id).toList := fun hmem => h (Hex.encode_subset id hmem)

/-! ### MAC addresses -/

/-- The two ways of writing what should be a MAC address. -/
theorem render_mac_cases (id : Octets) :
    (∃ m : Mac, id = m.toOctets ∧ render .mac id = m.text ∧ ':' ∈ (render .mac id).toList) ∨
    (render .mac id = Hex.encode id ∧ ':' ∉ (render .mac id).toList) := by
  cases hmac : Mac.ofOctets? id with
  | some m =>
    have hrender : render .mac id = m.text := by rw [render, hmac]
    refine Or.inl ⟨m, Mac.ofOctets?_eq_some_iff.1 hmac, hrender, ?_⟩
    rw [hrender, Mac.toList_text]
    simp [Mac.chars]
  | none =>
    have hrender : render .mac id = Hex.encode id := by rw [render, hmac]
    refine Or.inr ⟨hrender, ?_⟩
    rw [hrender]
    exact notMem_encode (by decide) id

/-- **A text with colons** is that of six octets, and one without is hexadecimal. -/
theorem render_mac_injective : Function.Injective (render .mac) := by
  intro id id' h
  have hcases := render_mac_cases id'
  rw [← h] at hcases
  rcases render_mac_cases id with ⟨m, rfl, hm, hcolon⟩ | ⟨hhex, hnone⟩
  · rcases hcases with ⟨m', rfl, hm', -⟩ | ⟨-, hnone'⟩
    · rw [Mac.text_injective (hm.symm.trans hm')]
    · exact absurd hcolon hnone'
  · rcases hcases with ⟨m', -, -, hcolon'⟩ | ⟨hhex', -⟩
    · exact absurd hcolon' hnone
    · exact Hex.encode_injective (hhex.symm.trans hhex')

/-! ### Network addresses -/

/-- The three ways of writing what should be a network address. -/
theorem networkText_cases (id : Octets) :
    (∃ a b c d, id = [1, a, b, c, d] ∧ networkText id = Address.ipv4 a b c d ∧
      '.' ∈ (networkText id).toList ∧ ':' ∉ (networkText id).toList) ∨
    (∃ address, id = 2 :: address ∧ address.length = 16 ∧
      Address.ShowsOctets address (networkText id) ∧ ':' ∈ (networkText id).toList) ∨
    (networkText id = Hex.encode id ∧
      '.' ∉ (networkText id).toList ∧ ':' ∉ (networkText id).toList) := by
  have hdot := notMem_encode (c := '.') (by decide) id
  have hcolon := notMem_encode (c := ':') (by decide) id
  unfold networkText
  split
  · exact Or.inl ⟨_, _, _, _, rfl, rfl, Address.dot_mem_ipv4 _ _ _ _,
      Address.colon_notMem_ipv4 _ _ _ _⟩
  · split_ifs with hlength
    · have hshown := Address.ipv6_shows ‹Octets›
      exact Or.inr (Or.inl ⟨_, rfl, hlength, hshown, hshown.colon_mem hlength⟩)
    · exact Or.inr (Or.inr ⟨rfl, hdot, hcolon⟩)
  · exact Or.inr (Or.inr ⟨rfl, hdot, hcolon⟩)

/-- **The text of a network address** tells its family and its octets. -/
theorem networkText_injective : Function.Injective networkText := by
  intro id id' h
  have hcases := networkText_cases id'
  rw [← h] at hcases
  rcases networkText_cases id with ⟨a, b, c, d, rfl, hfour, hdot, hnone⟩ |
    ⟨address, rfl, hlength, hshown, hcolon⟩ | ⟨hhex, hnodot, hnone⟩
  · rcases hcases with ⟨a', b', c', d', rfl, hfour', -⟩ | ⟨_, -, -, -, hcolon'⟩ | ⟨-, hnodot', -⟩
    · obtain ⟨rfl, rfl, rfl, rfl⟩ := Address.ipv4_inj.1 (hfour.symm.trans hfour')
      rfl
    · exact absurd hcolon' hnone
    · exact absurd hdot hnodot'
  · rcases hcases with ⟨_, _, _, _, -, -, -, hnone'⟩ | ⟨address', rfl, hlength', hshown', -⟩ |
      ⟨-, -, hnone'⟩
    · exact absurd hcolon hnone'
    · rw [hshown.unique hshown' hlength hlength']
    · exact absurd hcolon hnone'
  · rcases hcases with ⟨_, _, _, _, -, -, hdot', -⟩ | ⟨_, -, -, -, hcolon'⟩ | ⟨hhex', -, -⟩
    · exact absurd hdot' hnodot
    · exact absurd hcolon' hnone
    · exact Hex.encode_injective (hhex.symm.trans hhex')

/-! ### All forms -/

/-- **The text is faithful to the octets** of identifiers of a form. -/
structure Faithful (form : IdForm) (text : Octets → String) : Prop where
  /-- Different octets have different texts, whether they fit the form or not. -/
  injective : form ≠ .text → Function.Injective text
  /-- So have different well-formed octets that are read as text. -/
  injOn : form = .text → Set.InjOn text {id | (ByteArray.mk id.toArray).IsValidUTF8}
  /-- They are shown as they are. -/
  unchanged : form = .text → ∀ id (h : (ByteArray.mk id.toArray).IsValidUTF8),
    text id = String.fromUTF8 (ByteArray.mk id.toArray) h
  /-- Six octets of a MAC address are read back. -/
  mac : form = .mac → ∀ id, id.length = 6 →
    ∃ m, Mac.parse (text id) = .ok m ∧ m.toOctets = id
  /-- An IPv6 address has its standard text. -/
  ipv6 : form = .network → ∀ address, address.length = 16 →
    Address.ShowsOctets address (text (2 :: address))

/-- Whatever form is not text tells octets apart. -/
theorem render_injective {form : IdForm} (h : form ≠ .text) : Function.Injective (render form) := by
  cases form with
  | mac => exact render_mac_injective
  | network => exact networkText_injective
  | text => exact absurd rfl h
  | octets => exact Hex.encode_injective

/-- Text tells octets apart as far as they are text. -/
theorem injOn_render_text :
    Set.InjOn (render .text) {id | (ByteArray.mk id.toArray).IsValidUTF8} := by
  intro id hid id' hid' h
  have hbytes : ByteArray.mk id.toArray = ByteArray.mk id'.toArray := by
    rw [render, render, Utf8.decode_eq_fromUTF8 hid, Utf8.decode_eq_fromUTF8 hid'] at h
    exact congrArg String.toByteArray h
  exact congrArg (fun array : ByteArray => array.data.toList) hbytes

/-- Six octets that are shown as a MAC address are read back as one. -/
theorem parse_render_mac {id : Octets} (h : id.length = 6) :
    ∃ m, Mac.parse (render .mac id) = .ok m ∧ m.toOctets = id := by
  obtain ⟨m, rfl⟩ := Mac.exists_toOctets h
  exact ⟨m, Mac.parse_text m, rfl⟩

/-- **What is shown is faithful**, in every form. -/
theorem render_faithful (form : IdForm) : form.Faithful (render form) where
  injective := render_injective
  injOn := by
    rintro rfl
    exact injOn_render_text
  unchanged := by
    rintro rfl id h
    exact Utf8.decode_eq_fromUTF8 h
  mac := by
    rintro rfl id h
    exact parse_render_mac h
  ipv6 := by
    rintro rfl address h
    rw [render, networkText, if_pos h]
    exact Address.ipv6_shows address

/-- **Identifiers are told apart by their texts**: those of a station as well as those of a port,
whatever their subtype. -/
theorem told_apart :
    (∀ subtype : ChassisSubtype, subtype.form.Faithful fun id => (ChassisId.mk subtype id).text) ∧
    ∀ subtype : PortSubtype, subtype.form.Faithful fun id => (PortId.mk subtype id).text :=
  ⟨fun subtype => render_faithful subtype.form, fun subtype => render_faithful subtype.form⟩

/-- Of two stretches of two zero groups the first is left out, and no other octets have that text;
a MAC address is read back; and what is well formed is shown as it is. -/
theorem told_apart_shortened :
    (∀ id, (ChassisId.mk .networkAddress id).text = "2001:db8::1:0:0:1" ↔
      id = [2, 0x20, 0x01, 0x0d, 0xb8, 0, 0, 0, 0, 0, 1, 0, 0, 0, 0, 0, 1]) ∧
    (∃ m, Mac.parse (PortId.mk .macAddress [0, 0x1b, 0x21, 0xa0, 0, 0xff]).text = .ok m ∧
      m.toOctets = [0, 0x1b, 0x21, 0xa0, 0, 0xff]) ∧
    (PortId.mk .interfaceName [0x63, 0xc3, 0xa9]).text = "cé" := by
  obtain ⟨hchassis, hport⟩ := told_apart
  have hinjective := (hchassis .networkAddress).injective (by decide)
  have htext : (ChassisId.mk .networkAddress
      [2, 0x20, 0x01, 0x0d, 0xb8, 0, 0, 0, 0, 0, 1, 0, 0, 0, 0, 0, 1]).text =
      "2001:db8::1:0:0:1" := by rfl
  have hvalid : (ByteArray.mk [0x63, 0xc3, 0xa9].toArray).IsValidUTF8 := ⟨['c', 'é'], by decide⟩
  refine ⟨fun id => ⟨fun h => hinjective (h.trans htext.symm), ?_⟩,
    (hport .macAddress).mac rfl _ rfl, (hport .interfaceName).unchanged rfl _ hvalid⟩
  rintro rfl
  exact htext

end IdForm
end Lldp
