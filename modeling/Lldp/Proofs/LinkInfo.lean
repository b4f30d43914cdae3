/-
# The last word counts

What the optional TLVs of a frame say about the neighbour is said TLV by TLV, and a later TLV
overrides an earlier one in its own field only.  So what a list says is what its parts say, one
put over the other (`LinkInfo.merge`, `LinkInfo.ofTlvs_append`), and all there is to a TLV is
what it says by itself (`LinkInfo.said`).  A field is then that of the last TLV that says
something about it (`LinkInfo.field_ofTlvs`), which for capabilities is not always the last of
their type: one of the wrong length says nothing.
-/

import Lldp.LinkInfo
import Mathlib.Tactic.SplitIfs

namespace Lldp

attribute [ext] LinkInfo

namespace LinkInfo

variable {info first later : LinkInfo} {t : Tlv} {ts xs ys : List Tlv}

/-- What was said first, with what was said later put over it. -/
def merge (first later : LinkInfo) : LinkInfo where
  portDescription := later.portDescription.or first.portDescription
  systemName := later.systemName.or first.systemName
  systemDescription := later.systemDescription.or first.systemDescription
  capabilities := later.capabilities.or first.capabilities
  other := first.other ++ later.other

/-- What a TLV says by itself. -/
def said (t : Tlv) : LinkInfo := empty.note t

/-- Who says nothing more changes nothing. -/
theorem merge_empty (info : LinkInfo) : info.merge empty = info := by
  simp [merge, empty]

/-- Over nothing, what is said stands by itself. -/
theorem empty_merge (info : LinkInfo) : empty.merge info = info := by
  simp [merge, empty]

/-- Words that are put over each other may be taken together in any way. -/
theorem merge_assoc (a b c : LinkInfo) : (a.merge b).merge c = a.merge (b.merge c) := by
  simp [merge, Option.or_assoc]

/-- **A TLV says the same wherever it stands.** -/
theorem note_eq_merge (info : LinkInfo) (t : Tlv) : info.note t = info.merge (said t) := by
  unfold said note
  split_ifs
  · simp [merge, empty]
  · simp [merge, empty]
  · simp [merge, empty]
  · cases Capabilities.ofOctets? t.value <;> simp [merge, empty]
  · simp [merge, empty]

/-- **To take note** of TLVs one by one is to put what they say over what was known. -/
theorem foldl_note (info : LinkInfo) (ts : List Tlv) :
    ts.foldl note info = info.merge (ofTlvs ts) := by
  induction ts generalizing info with
  | nil => exact (merge_empty info).symm
  | cons t rest ih =>
    rw [ofTlvs, List.foldl_cons, List.foldl_cons, ih, ih, note_eq_merge, note_eq_merge empty,
      empty_merge, merge_assoc]

/-- **What a list says is what its parts say**, the later put over the earlier. -/
theorem ofTlvs_append (xs ys : List Tlv) : ofTlvs (xs ++ ys) = (ofTlvs xs).merge (ofTlvs ys) := by
  rw [ofTlvs, List.foldl_append, foldl_note]
  rfl

/-- What the first TLV says may be overridden by all others. -/
theorem ofTlvs_cons (t : Tlv) (ts : List Tlv) : ofTlvs (t :: ts) = (said t).merge (ofTlvs ts) := by
  rw [ofTlvs, List.foldl_cons, foldl_note]
  rfl

/-! ### Fields -/

/-- The last TLV of some kind. -/
def last? (p : Tlv → Bool) (ts : List Tlv) : Option Tlv := (ts.filter p).getLast?

/-- The last of a list is the last of its end, if there is one there. -/
theorem last?_append (p : Tlv → Bool) (xs ys : List Tlv) :
    last? p (xs ++ ys) = (last? p ys).or (last? p xs) := by
  rw [last?, List.filter_append, List.getLast?_append]
  rfl

/-- A single TLV is the last of its kind, if it is of that kind. -/
theorem last?_singleton (p : Tlv → Bool) (t : Tlv) :
    last? p [t] = if p t then some t else none := by
  rw [last?, List.filter_cons]
  split_ifs <;> rfl

/-- **A field holds what the last TLV says** of those that say something about it. -/
theorem field_ofTlvs {α : Type} {field : LinkInfo → Option α} {p : Tlv → Bool} {value : Tlv → α}
    (hmerge : ∀ first later, field (merge first later) = (field later).or (field first))
    (hempty : field empty = none)
    (hsaid : ∀ t, field (said t) = if p t then some (value t) else none) (ts : List Tlv) :
    field (ofTlvs ts) = (last? p ts).map value := by
  induction ts with
  | nil => exact hempty
  | cons t rest ih =>
    rw [ofTlvs_cons, hmerge, ih, hsaid, ← List.singleton_append, last?_append, last?_singleton,
      Option.map_or]
    split_ifs <;> rfl

/-- The two words of capabilities. -/
def words (value : Octets) : Capabilities where
  system := Octets.word (value.getD 0 0) (value.getD 1 0)
  enabled := Octets.word (value.getD 2 0) (value.getD 3 0)

/-- Capabilities are two words, so they are read from four octets and from no other number. -/
theorem ofOctets?_eq (value : Octets) :
    Capabilities.ofOctets? value = if value.length = 4 then some (words value) else none := by
  unfold Capabilities.ofOctets?
  split
  · rfl
  · rename_i hother
    refine (if_neg fun hlength => ?_).symm
    match value, hlength with
    | [a, b, c, d], _ => exact hother a b c d rfl

/-- A capabilities TLV whose value is not two words. -/
def isMalformed (t : Tlv) : Bool := t.type = 7 ∧ t.value.length ≠ 4

/-- **What a TLV says**, field by field. -/
theorem said_eq (t : Tlv) : said t =
    { portDescription := if t.type = 4 then some (Utf8.decode t.value) else none
      systemName := if t.type = 5 then some (Utf8.decode t.value) else none
      systemDescription := if t.type = 6 then some (Utf8.decode t.value) else none
      capabilities := if t.type = 7 ∧ t.value.length = 4 then some (words t.value) else none
      other := if t.type ∈ [4, 5, 6, 7] then [] else [t] } := by
  simp only [said, note, Tlv.portDescriptionType, Tlv.systemNameType, Tlv.systemDescriptionType,
    Tlv.systemCapabilitiesType, ofOctets?_eq]
  by_cases h4 : t.type = 4
  · simp [empty, h4]
  by_cases h5 : t.type = 5
  · simp [empty, h5]
  by_cases h6 : t.type = 6
  · simp [empty, h6]
  by_cases h7 : t.type = 7
  · by_cases hlength : t.value.length = 4 <;> simp [empty, h7, hlength]
  · simp [empty, h4, h5, h6, h7]

/-- Capabilities of the wrong length say nothing. -/
theorem said_of_isMalformed (h : isMalformed t = true) : said t = empty := by
  obtain ⟨htype, hlength⟩ : t.type = 7 ∧ t.value.length ≠ 4 := of_decide_eq_true h
  simp [said_eq, empty, htype, hlength]

/-- **A malformed TLV makes no difference**, wherever it stands. -/
theorem ofTlvs_filter (ts : List Tlv) :
    ofTlvs (ts.filter (!isMalformed ·)) = ofTlvs ts := by
  induction ts with
  | nil => rfl
  | cons t rest ih =>
    rw [ofTlvs_cons, List.filter_cons]
    split_ifs with h
    · rw [ofTlvs_cons, ih]
    · rw [said_of_isMalformed (by simpa using h), empty_merge, ih]

/-- What has no field of its own is kept. -/
theorem other_ofTlvs (ts : List Tlv) :
    (ofTlvs ts).other = ts.filter fun t => t.type ∉ [4, 5, 6, 7] := by
  induction ts with
  | nil => rfl
  | cons t rest ih =>
    have hother : (said t).other = if t.type ∈ [4, 5, 6, 7] then [] else [t] := by rw [said_eq]
    rw [ofTlvs_cons, merge, hother, ih, List.filter_cons]
    by_cases h : t.type ∈ [4, 5, 6, 7] <;> simp [h]

/-- **The last word counts.**  A description or name is that of the last TLV of its type, and
capabilities are those of the last TLV of their type that has two words; what has no field is
kept as it came.  What two lists say in a row is what the first says with what the second says
put over it, and lists that differ in malformed capabilities only say the same. -/
theorem last_word_counts :
    (∀ ts : List Tlv, ofTlvs ts =
      { portDescription := (last? (·.type = 4) ts).map fun t => Utf8.decode t.value
        systemName := (last? (·.type = 5) ts).map fun t => Utf8.decode t.value
        systemDescription := (last? (·.type = 6) ts).map fun t => Utf8.decode t.value
        capabilities := (last? (fun t => t.type = 7 ∧ t.value.length = 4) ts).map fun t =>
          words t.value
        other := ts.filter fun t => t.type ∉ [4, 5, 6, 7] }) ∧
    (∀ xs ys : List Tlv, ofTlvs (xs ++ ys) = (ofTlvs xs).merge (ofTlvs ys)) ∧
    ∀ ts us : List Tlv, ts.filter (!isMalformed ·) = us.filter (!isMalformed ·) →
      ofTlvs ts = ofTlvs us := by
  refine ⟨fun ts => ?_, ofTlvs_append, fun ts us h => ?_⟩
  · refine LinkInfo.ext ?_ ?_ ?_ ?_ (other_ofTlvs ts)
    · exact field_ofTlvs (fun _ _ => rfl) rfl (fun t => by simp [said_eq]) ts
    · exact field_ofTlvs (fun _ _ => rfl) rfl (fun t => by simp [said_eq]) ts
    · exact field_ofTlvs (fun _ _ => rfl) rfl (fun t => by simp [said_eq]) ts
    · exact field_ofTlvs (fun _ _ => rfl) rfl (fun t => by simp [said_eq]) ts
  · rw [← ofTlvs_filter ts, h, ofTlvs_filter]

/-- A second name with a fault in its octets overrides the first, and capabilities that are cut
short do not override those before them. -/
theorem last_word_counts_cut_short :
    let named : Tlv := ⟨5, 1, [0x61]⟩
    let able : Tlv := ⟨7, 4, [0x00, 0x14, 0x00, 0x10]⟩
    let kept : Tlv := ⟨8, 1, [0x01]⟩
    let short : Tlv := ⟨7, 2, [0x00, 0x04]⟩
    let renamed : Tlv := ⟨5, 2, [0x62, 0x80]⟩
    ofTlvs [named, able, kept, short, renamed] = ofTlvs [named, able, kept, renamed] ∧
    ofTlvs [named, able, kept, renamed] =
      { systemName := some "b\ufffd", capabilities := some ⟨0x14, 0x10⟩, other := [kept] } := by
  intro named able kept short renamed
  obtain ⟨heq, -, hsame⟩ := last_word_counts
  refine ⟨hsame _ _ (by rfl), ?_⟩
  rw [heq]
  decide +kernel

end LinkInfo
end Lldp
