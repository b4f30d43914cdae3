/-
# What is said of octets that are no frame

Reading a frame ends with one of a few verdicts, and which one it is can be said
before any octet is put in its place.  The octets are cut into complete TLVs as
far as they go (`Tlv.Greedy`); this can be done in one way
(`Tlv.exists_greedy`, `Tlv.Greedy.unique`).  If something is left, that is the
verdict, whatever came before it (`Frame.decode_of_rest`).  If nothing is left,
the number of TLVs is looked at, and then four of them in the order in which they
stand (`Frame.ofTlvs_placed`).

The definitions read octets by matching on them.  A reader that goes by positions
could miss the end of what it reads, or go round for ever.  `Frame.decodeAt` is
such a reader, for which to look where there is nothing is to fail; it never does,
and comes to the same verdict (`Frame.decodeAt_eq`).
-/

import Lldp.Proofs.Frame
import Lldp.Proofs.Tlv.Codec

namespace Lldp

/-! ### As far as complete TLVs go -/

namespace Tlv

variable {t : Tlv} {ts us : List Tlv} {bytes rest others : Octets}

/-- Octets cut into complete TLVs, first to last, until no complete one is in
front of what is left. -/
inductive Greedy : Octets → List Tlv → Octets → Prop
  | rest {bytes : Octets} : bytes.length < needed bytes → Greedy bytes [] bytes
  | next {bytes : Octets} {t : Tlv} {used : Nat} {ts : List Tlv} {rest : Octets} :
    decode bytes = .ok (t, used) → Greedy (bytes.drop used) ts rest → Greedy bytes (t :: ts) rest

/-- Octets can be read or end too soon. -/
theorem needed_le_of_decode {used : Nat} (h : decode bytes = .ok (t, used)) :
    needed bytes ≤ bytes.length := by
  by_contra hshort
  have herror := decode_eq_error_iff.2 ⟨Nat.lt_of_not_le hshort, rfl⟩
  rw [h] at herror
  cases herror

/-- Octets can be cut. -/
theorem exists_greedy (bytes : Octets) : ∃ ts rest, Greedy bytes ts rest := by
  -- What is left gets shorter with every TLV, as in the splitting.
  induction bytes using tokens.induct with
  | case1 bytes hempty =>
    obtain rfl := List.isEmpty_iff.1 hempty
    exact ⟨[], [], .rest (by decide)⟩
  | case2 bytes _ e hdecode => exact ⟨[], bytes, .rest (decode_eq_error_iff.1 hdecode).1⟩
  | case3 bytes _ t used hdecode _ _ ih =>
    obtain ⟨ts, rest, h⟩ := ih
    exact ⟨t :: ts, rest, .next hdecode h⟩
  | case4 bytes _ t used hdecode _ _ ih =>
    obtain ⟨ts, rest, h⟩ := ih
    exact ⟨t :: ts, rest, .next hdecode h⟩

/-- There is one way to cut octets. -/
theorem Greedy.unique (h : Greedy bytes ts rest) (h' : Greedy bytes us others) :
    us = ts ∧ others = rest := by
  induction h generalizing us with
  | rest hshort =>
    cases h' with
    | rest _ => exact ⟨rfl, rfl⟩
    | next hdecode _ => exact absurd (needed_le_of_decode hdecode) (Nat.not_le.2 hshort)
  | next hdecode _ ih =>
    cases h' with
    | rest hshort => exact absurd (needed_le_of_decode hdecode) (Nat.not_le.2 hshort)
    | next hdecode' hgreedy =>
      rw [hdecode] at hdecode'
      obtain ⟨rfl, rfl⟩ := Prod.mk.inj (Except.ok.inj hdecode')
      obtain ⟨rfl, rfl⟩ := ih hgreedy
      exact ⟨rfl, rfl⟩

/-- **What the splitting of octets comes to**: all TLVs, or what the first
incomplete one lacks. -/
theorem Greedy.tokens_eq (h : Greedy bytes ts rest) : tokens bytes =
    if rest = [] then .ok ts else .error (.truncated (needed rest) rest.length) := by
  induction h with
  | @rest bytes hshort =>
    split_ifs with hempty
    · rw [hempty, tokens_nil]
    · exact tokens_of_error hempty (decode_eq_error_iff.2 ⟨hshort, rfl⟩)
  | next hdecode _ ih =>
    obtain ⟨hfit, -, hbytes⟩ := of_decode hdecode
    rw [hbytes, tokens_wire hfit, ih]
    split_ifs <;> rfl

end Tlv

/-! ### By position -/

/-- The items from one position up to another, if there are such positions. -/
def part? {α : Type} (items : List α) (start stop : Nat) : Option (List α) :=
  if start ≤ stop ∧ stop ≤ items.length then some ((items.take stop).drop start) else none

theorem part?_eq {α : Type} {items : List α} {start stop : Nat} (h : start ≤ stop)
    (h' : stop ≤ items.length) : part? items start stop = some ((items.take stop).drop start) :=
  if_pos ⟨h, h'⟩

namespace Tlv

/-- `decode` by positions. -/
def decodeAt (bytes : Octets) : Option (Except Error (Tlv × Nat)) :=
  if bytes.length < 2 then some (.error (.truncated 2 bytes.length))
  else do
    let header ← part? bytes 0 2
    let word := Octets.word (← header[0]?) (← header[1]?)
    let total := 2 + word.toNat % 512
    if bytes.length < total then some (.error (.truncated total bytes.length))
    else do
      let value ← part? bytes 2 total
      some (.ok (⟨UInt8.ofNat (word.toNat / 512), UInt16.ofNat (word.toNat % 512), value⟩, total))

/-- `tokens` by positions: so many rounds at most, each from where the last one
came to, with what was found so far. -/
def tokensAt (bytes : Octets) : Nat → Nat → List Tlv → Option (Except Error (List Tlv))
  | 0, _, _ => none
  | rounds + 1, offset, found =>
    if offset < bytes.length then do
      let ahead ← part? bytes offset bytes.length
      match ← decodeAt ahead with
      | .error e => some (.error e)
      | .ok (t, used) => tokensAt bytes rounds (offset + used) (found ++ [t])
    else some (.ok found)

/-- A TLV is within the octets that it is read from. -/
theorem decodeAt_eq (bytes : Octets) : decodeAt bytes = some (decode bytes) := by
  match bytes with
  | [] => rfl
  | [_] => rfl
  | hi :: lo :: body =>
    have hheader : part? (hi :: lo :: body) 0 2 = some [hi, lo] :=
      part?_eq (by omega) (by simp)
    have henough : ¬(hi :: lo :: body).length < 2 := by simp
    rw [decodeAt, if_neg henough, hheader]
    show (if _ then _ else _) = _
    simp only [decode, List.length_take, List.length_cons]
    generalize (Octets.word hi lo).toNat % 512 = length
    by_cases hshort : body.length + 1 + 1 < 2 + length
    · rw [if_pos hshort, if_pos (by omega), Nat.add_comm 2 body.length]
    · have hvalue : part? (hi :: lo :: body) 2 (2 + length) = some (body.take length) := by
        rw [part?_eq (by omega) (by simpa using hshort), Nat.add_comm]
        rfl
      rw [if_neg hshort, if_neg (by omega), hvalue]
      rfl

/-- **Going by positions ends**, after a round for every two octets at most and one
to see that nothing is left, and comes to the same TLVs. -/
theorem tokensAt_eq {rounds offset : Nat} {found : List Tlv} (hoffset : offset ≤ bytes.length)
    (hrounds : (bytes.length - offset) / 2 < rounds) :
    tokensAt bytes rounds offset found =
      some ((tokens (bytes.drop offset)).map (found ++ ·)) := by
  induction rounds generalizing offset found with
  | zero => omega
  | succ rounds ih =>
    rw [tokensAt]
    by_cases hmore : offset < bytes.length
    · have hahead : part? bytes offset bytes.length = some (bytes.drop offset) := by
        rw [part?_eq hoffset (Nat.le_refl _), List.take_length]
      rw [if_pos hmore, hahead]
      simp only [Option.bind_eq_bind, Option.bind_some, decodeAt_eq]
      cases hdecode : decode (bytes.drop offset) with
      | error e =>
        have hne : bytes.drop offset ≠ [] := by simpa using hmore
        rw [tokens_of_error hne hdecode]
        rfl
      | ok read =>
        obtain ⟨t, used⟩ := read
        obtain ⟨htwo, hwithin⟩ := decode_used hdecode
        obtain ⟨hfit, hused, hbytes⟩ := of_decode hdecode
        rw [List.length_drop] at hwithin
        rw [hbytes, tokens_wire hfit, List.drop_drop]
        show tokensAt bytes rounds (offset + used) (found ++ [t]) = _
        rw [ih (by omega) (by omega)]
        cases tokens (bytes.drop (offset + used)) with
        | error e => rfl
        | ok ts =>
          show some (Except.ok (found ++ [t] ++ ts)) = some (Except.ok (found ++ t :: ts))
          rw [List.append_assoc]
          rfl
    · have hend : bytes.drop offset = [] := List.drop_eq_nil_of_le (Nat.le_of_not_lt hmore)
      rw [if_neg hmore, hend, tokens_nil]
      show some (Except.ok found) = some (Except.ok (found ++ []))
      rw [List.append_nil]

end Tlv

namespace Frame

variable {t chassis port ttl last first : Tlv} {ts optional more : List Tlv} {bytes rest : Octets}

/-! ### The places -/

/-- Four TLVs or more have a first, a second, a third and a last one. -/
theorem exists_places (h : 4 ≤ ts.length) :
    ∃ chassis port ttl optional last, ts = chassis :: port :: ttl :: (optional ++ [last]) := by
  match ts, h with
  | chassis :: port :: ttl :: fourth :: more, _ =>
    obtain ⟨optional, last, hlast⟩ := (List.eq_nil_or_concat (fourth :: more)).resolve_left nofun
    exact ⟨chassis, port, ttl, optional, last, by rw [hlast, List.concat_eq_append]⟩

/-- A chassis identifier is read from a TLV of its type that holds a subtype and an
octet at least. -/
theorem chassisOf_cases (t : Tlv) :
    (t.type ≠ Tlv.chassisIdType ∧ chassisOf t = .error (.chassisType t.type)) ∨
    (t.type = Tlv.chassisIdType ∧ t.value.length < 2 ∧
      chassisOf t = .error (.chassisShort t.value.length)) ∨
    t.type = Tlv.chassisIdType ∧ 2 ≤ t.value.length ∧ ∃ code id,
      t.value = code :: id ∧ chassisOf t = .ok ⟨.ofCode code, id⟩ := by
  unfold chassisOf
  split_ifs with htype
  · exact Or.inl ⟨htype, rfl⟩
  · right
    have htype := Decidable.not_not.1 htype
    match hvalue : t.value with
    | [] => exact Or.inl ⟨htype, by simp, rfl⟩
    | [_] => exact Or.inl ⟨htype, by simp, rfl⟩
    | code :: first :: id => exact Or.inr ⟨htype, by simp, code, first :: id, rfl, rfl⟩

/-- A port identifier is read from a TLV of its type that holds a subtype and an
octet at least. -/
theorem portOf_cases (t : Tlv) :
    (t.type ≠ Tlv.portIdType ∧ portOf t = .error (.portType t.type)) ∨
    (t.type = Tlv.portIdType ∧ t.value.length < 2 ∧
      portOf t = .error (.portShort t.value.length)) ∨
    t.type = Tlv.portIdType ∧ 2 ≤ t.value.length ∧ ∃ code id,
      t.value = code :: id ∧ portOf t = .ok ⟨.ofCode code, id⟩ := by
  unfold portOf
  split_ifs with htype
  · exact Or.inl ⟨htype, rfl⟩
  · right
    have htype := Decidable.not_not.1 htype
    match hvalue : t.value with
    | [] => exact Or.inl ⟨htype, by simp, rfl⟩
    | [_] => exact Or.inl ⟨htype, by simp, rfl⟩
    | code :: first :: id => exact Or.inr ⟨htype, by simp, code, first :: id, rfl, rfl⟩

/-- A time to live is read from a TLV of its type that holds a word. -/
theorem ttlOf_cases (t : Tlv) :
    (¬(t.type = Tlv.ttlType ∧ t.value.length = 2) ∧ ttlOf t = .error (.ttlShape t.type t.length)) ∨
    t.type = Tlv.ttlType ∧ t.value.length = 2 ∧ ∃ hi lo,
      t.value = [hi, lo] ∧ ttlOf t = .ok (.ofSecs (Octets.word hi lo).toNat) := by
  unfold ttlOf
  split_ifs with htype
  · exact Or.inl ⟨fun h => htype h.1, rfl⟩
  · have htype := Decidable.not_not.1 htype
    match hvalue : t.value with
    | [] => exact Or.inl ⟨by simp, rfl⟩
    | [_] => exact Or.inl ⟨by simp, rfl⟩
    | [hi, lo] => exact Or.inr ⟨htype, rfl, hi, lo, rfl, rfl⟩
    | _ :: _ :: _ :: _ => exact Or.inl ⟨by simp, rfl⟩

/-- What comes before the last TLV is optional, if that is an end marker. -/
theorem optionalOf_eq (h : first :: more = optional ++ [last]) : optionalOf first more =
    if last.isEnd then .ok optional else .error (.endShape last.type last.length) := by
  have hlast : more.getLastD first = last := by
    have hget : (first :: more).getLast? = some last := by rw [h, List.getLast?_concat]
    rw [List.getLast?_cons] at hget
    rw [List.getLastD_eq_getLast?]
    exact Option.some.inj hget
  rw [optionalOf, hlast, h, List.dropLast_concat]

/-- Each place is looked at by itself, one after another. -/
theorem ofTlvs_places : ofTlvs (chassis :: port :: ttl :: (optional ++ [last])) = (do
    let chassis ← chassisOf chassis
    let port ← portOf port
    let ttl ← ttlOf ttl
    let optional ← (if last.isEnd then .ok optional
      else .error (.endShape last.type last.length) : Except Error (List Tlv))
    return { chassis, port, ttl, optional }) := by
  obtain ⟨first, more, hsplit⟩ := List.exists_cons_of_ne_nil (List.concat_ne_nil last optional)
  rw [hsplit, ofTlvs, optionalOf_eq hsplit.symm]

/-! ### By position -/

/-- `ofTlvs` by positions. -/
def ofTlvsAt (ts : List Tlv) : Option (Except Error Frame) := do
  if ts.length < 4 then return .error (.tooFewTlvs ts.length)
  let chassis ← ts[0]?
  if chassis.type ≠ Tlv.chassisIdType then return .error (.chassisType chassis.type)
  if chassis.value.length < 2 then return .error (.chassisShort chassis.value.length)
  let port ← ts[1]?
  if port.type ≠ Tlv.portIdType then return .error (.portType port.type)
  if port.value.length < 2 then return .error (.portShort port.value.length)
  let ttl ← ts[2]?
  if ttl.type ≠ Tlv.ttlType ∨ ttl.length ≠ 2 then return .error (.ttlShape ttl.type ttl.length)
  let last ← ts[ts.length - 1]?
  if last.isEnd = false then return .error (.endShape last.type last.length)
  let secs := Octets.word (← ttl.value[0]?) (← ttl.value[1]?)
  let chassisSubtype ← chassis.value[0]?
  let chassisId ← part? chassis.value 1 chassis.value.length
  let portSubtype ← port.value[0]?
  let portId ← part? port.value 1 port.value.length
  let optional ← part? ts 3 (ts.length - 1)
  return .ok {
    chassis := ⟨.ofCode chassisSubtype, chassisId⟩
    port := ⟨.ofCode portSubtype, portId⟩
    ttl := .ofSecs secs.toNat
    optional }

/-- `decode` by positions. -/
def decodeAt (bytes : Octets) : Option (Except Error Frame) := do
  match ← Tlv.tokensAt bytes (bytes.length / 2 + 1) 0 [] with
  | .error e => return .error e
  | .ok ts => ofTlvsAt ts

/-- What follows the first item. -/
theorem part?_cons {α : Type} {item : α} {items : List α} :
    part? (item :: items) 1 (item :: items).length = some items := by
  rw [part?_eq (by simp) (Nat.le_refl _), List.take_length, List.drop_one, List.tail_cons]

/-- TLVs that are fit for the wire are put in their places without a look beyond
the last of them or beyond a value. -/
theorem ofTlvsAt_eq (hfit : ∀ t ∈ ts, t.fault? = none) : ofTlvsAt ts = some (ofTlvs ts) := by
  by_cases hfew : ts.length < 4
  · match ts, hfew with
    | [], _ => rfl
    | [_], _ => rfl
    | [_, _], _ => rfl
    | [_, _, _], _ => rfl
  obtain ⟨chassis, port, ttl, optional, last, rfl⟩ := exists_places (Nat.le_of_not_lt hfew)
  have hlength : (chassis :: port :: ttl :: (optional ++ [last])).length - 1 =
      optional.length + 3 := by simp
  have hlast : (chassis :: port :: ttl :: (optional ++ [last]))[optional.length + 3]? =
      some last := by simp
  have hoptional : part? (chassis :: port :: ttl :: (optional ++ [last])) 3
      (optional.length + 3) = some optional := by
    rw [part?_eq (by omega) (by simp)]
    simp
  have httl : ttl.length = 2 ↔ ttl.value.length = 2 := by
    have hdeclared := (Tlv.fault?_eq_none_iff.1 (hfit ttl (by simp))).2.1
    rw [← hdeclared, ← UInt16.toNat_inj]
    rfl
  rw [ofTlvsAt, if_neg hfew, ofTlvs_places]
  simp only [hlength, hlast, hoptional, List.getElem?_cons_zero, List.getElem?_cons_succ,
    Option.bind_eq_bind, Option.bind_some, pure]
  obtain ⟨htype, herror⟩ | ⟨htype, hshort, herror⟩ | ⟨htype, hlong, code, id, hvalue, hid⟩ :=
    chassisOf_cases chassis
  · rw [if_pos htype, herror]
    rfl
  · rw [if_neg (Decidable.not_not.2 htype), if_pos hshort, herror]
    rfl
  rw [if_neg (Decidable.not_not.2 htype), if_neg (Nat.not_lt.2 hlong), hid, hvalue]
  obtain ⟨htype, herror⟩ | ⟨htype, hshort, herror⟩ | ⟨htype, hlong, portCode, portId, hvalue, hid⟩ :=
    portOf_cases port
  · rw [if_pos htype, herror]
    rfl
  · rw [if_neg (Decidable.not_not.2 htype), if_pos hshort, herror]
    rfl
  rw [if_neg (Decidable.not_not.2 htype), if_neg (Nat.not_lt.2 hlong), hid, hvalue]
  obtain ⟨hshape, herror⟩ | ⟨htype, hlong, hi, lo, hvalue, hsecs⟩ := ttlOf_cases ttl
  · have hshape' : ttl.type ≠ Tlv.ttlType ∨ ttl.length ≠ 2 := by
      rw [← Decidable.not_and_iff_not_or_not, httl]
      exact hshape
    rw [if_pos hshape', herror]
    rfl
  have hshape' : ¬(ttl.type ≠ Tlv.ttlType ∨ ttl.length ≠ 2) := by
    rw [← Decidable.not_and_iff_not_or_not, httl]
    exact not_not.2 ⟨htype, hlong⟩
  rw [if_neg hshape', hsecs, hvalue]
  cases last.isEnd with
  | false => rfl
  | true =>
    simp only [part?_cons]
    rfl

/-- **Nothing is looked for where there is nothing**, and reading by positions ends:
it comes to the same as reading. -/
theorem decodeAt_eq (bytes : Octets) : decodeAt bytes = some (decode bytes) := by
  have htokens : Tlv.tokensAt bytes (bytes.length / 2 + 1) 0 [] =
      some ((Tlv.tokens (bytes.drop 0)).map ([] ++ ·)) :=
    Tlv.tokensAt_eq (Nat.zero_le _) (Nat.lt_succ_self (bytes.length / 2))
  rw [decodeAt, htokens, List.drop_zero, decode]
  cases htokens : Tlv.tokens bytes with
  | error e => rfl
  | ok ts => exact ofTlvsAt_eq (Tlv.encodeAll_eq_ok_iff.1 (Tlv.tokens_eq_ok_iff.1 htokens)).1

/-! ### The verdict -/

/-- Fewer than four TLVs are no frame. -/
theorem ofTlvs_few (h : ts.length < 4) : ofTlvs ts = .error (.tooFewTlvs ts.length) := by
  match ts, h with
  | [], _ => rfl
  | [_], _ => rfl
  | [_, _], _ => rfl
  | [_, _, _], _ => rfl

/-- No frame was read, for a fault of this kind. -/
def RefusedAs (kind : ErrorKind) (read : Except Error Frame) : Prop :=
  ∃ e, read = .error e ∧ e.kind = kind

/-- What is read from four TLVs or more.  The first of them that is not what its
place demands is the fault, and if there is none, they are a frame. -/
def Judged (chassis port ttl : Tlv) (optional : List Tlv) (last : Tlv)
    (read : Except Error Frame) : Prop :=
  if chassis.type ≠ Tlv.chassisIdType ∨ chassis.value.length < 2 then
    RefusedAs .invalidChassisId read
  else if port.type ≠ Tlv.portIdType ∨ port.value.length < 2 then RefusedAs .invalidPortId read
  else if ttl.type ≠ Tlv.ttlType ∨ ttl.value.length ≠ 2 then RefusedAs .invalidTtl read
  else if last.type ≠ Tlv.endType ∨ last.length ≠ 0 then RefusedAs .invalidEnd read
  else ∃ code id portCode portId hi lo,
    chassis.value = code :: id ∧ port.value = portCode :: portId ∧ ttl.value = [hi, lo] ∧
    read = .ok {
      chassis := ⟨.ofCode code, id⟩, port := ⟨.ofCode portCode, portId⟩
      ttl := .ofSecs (Octets.word hi lo).toNat, optional }

/-- **Four TLVs or more are judged in the order in which they stand.** -/
theorem judged_ofTlvs : Judged chassis port ttl optional last
    (ofTlvs (chassis :: port :: ttl :: (optional ++ [last]))) := by
  rw [ofTlvs_places, Judged]
  obtain ⟨htype, herror⟩ | ⟨-, hshort, herror⟩ | ⟨htype, hlong, code, id, hchassis, hid⟩ :=
    chassisOf_cases chassis
  · rw [if_pos (Or.inl htype), herror]
    exact ⟨_, rfl, rfl⟩
  · rw [if_pos (Or.inr hshort), herror]
    exact ⟨_, rfl, rfl⟩
  rw [if_neg (not_or.2 ⟨not_not.2 htype, Nat.not_lt.2 hlong⟩), hid]
  obtain ⟨htype, herror⟩ | ⟨-, hshort, herror⟩ | ⟨htype, hlong, portCode, portId, hport, hid⟩ :=
    portOf_cases port
  · rw [if_pos (Or.inl htype), herror]
    exact ⟨_, rfl, rfl⟩
  · rw [if_pos (Or.inr hshort), herror]
    exact ⟨_, rfl, rfl⟩
  rw [if_neg (not_or.2 ⟨not_not.2 htype, Nat.not_lt.2 hlong⟩), hid]
  obtain ⟨hshape, herror⟩ | ⟨htype, hlong, hi, lo, httl, hsecs⟩ := ttlOf_cases ttl
  · rw [if_pos (Decidable.not_and_iff_not_or_not.1 hshape), herror]
    exact ⟨_, rfl, rfl⟩
  rw [if_neg (by simp [htype, hlong]), hsecs]
  cases hend : last.isEnd with
  | false =>
    have hend : last.type ≠ Tlv.endType ∨ last.length ≠ 0 := by
      rw [← Decidable.not_and_iff_not_or_not]
      simpa [Tlv.isEnd] using hend
    rw [if_pos hend]
    exact ⟨_, rfl, rfl⟩
  | true =>
    have hend : ¬(last.type ≠ Tlv.endType ∨ last.length ≠ 0) := by
      simpa [Tlv.isEnd] using hend
    rw [if_neg hend]
    exact ⟨code, id, portCode, portId, hi, lo, hchassis, hport, httl, rfl⟩

/-- A frame that was judged and not read has a fault in one of its four places. -/
theorem Judged.kind_mem {e : Error} (h : Judged chassis port ttl optional last (.error e)) :
    e.kind ∈ [ErrorKind.invalidChassisId, .invalidPortId, .invalidTtl, .invalidEnd] := by
  unfold Judged RefusedAs at h
  split_ifs at h
  case neg => simp at h
  all_goals
    obtain ⟨e', he, hkind⟩ := h
    obtain rfl := Except.error.inj he
    simp [hkind]

/-- **What becomes of octets** that are cut into these TLVs and leave this rest. -/
theorem decode_of_greedy (h : Tlv.Greedy bytes ts rest) :
    if rest ≠ [] then decode bytes = .error (.truncated (Tlv.needed rest) rest.length)
    else if ts.length < 4 then decode bytes = .error (.tooFewTlvs ts.length)
    else ∃ chassis port ttl optional last,
      ts = chassis :: port :: ttl :: (optional ++ [last]) ∧
      Judged chassis port ttl optional last (decode bytes) := by
  by_cases hleft : rest = []
  · rw [if_neg (not_not.2 hleft), decode, h.tokens_eq, if_pos hleft]
    split_ifs with hfew
    · exact ofTlvs_few hfew
    · obtain ⟨chassis, port, ttl, optional, last, rfl⟩ := exists_places (Nat.le_of_not_lt hfew)
      exact ⟨chassis, port, ttl, optional, last, rfl, judged_ofTlvs⟩
  · rw [if_pos hleft, decode, h.tokens_eq, if_neg hleft]

/-- A fault of octets is one of six kinds. -/
theorem kind_mem_of_decode {e : Error} (h : decode bytes = .error e) :
    e.kind ∈ [ErrorKind.unexpectedEnd, .incompleteFrame, .invalidChassisId, .invalidPortId,
      .invalidTtl, .invalidEnd] := by
  obtain ⟨ts, rest, hgreedy⟩ := Tlv.exists_greedy bytes
  have hverdict := decode_of_greedy hgreedy
  rw [h] at hverdict
  split_ifs at hverdict
  · obtain rfl := Except.error.inj hverdict
    exact List.mem_cons_self
  · obtain rfl := Except.error.inj hverdict
    exact List.mem_cons_of_mem _ List.mem_cons_self
  · obtain ⟨_, _, _, _, _, -, hjudged⟩ := hverdict
    exact List.mem_cons_of_mem _ (List.mem_cons_of_mem _ hjudged.kind_mem)

/-- **Every octets get one verdict.**  Nothing is looked for where there is nothing.
As far as complete TLVs go, the octets are cut into them in one way.  If some octets
are left, they are the fault, whatever the TLVs before them are; if not, too few TLVs
are one, and four or more are judged in the order in which they stand.  There is no
other kind of fault. -/
theorem decode_verdict (bytes : Octets) :
    decodeAt bytes = some (decode bytes) ∧
    (∃ ts rest, Tlv.Greedy bytes ts rest ∧
      (∀ us others, Tlv.Greedy bytes us others → us = ts ∧ others = rest) ∧
      if rest ≠ [] then decode bytes = .error (.truncated (Tlv.needed rest) rest.length)
      else if ts.length < 4 then decode bytes = .error (.tooFewTlvs ts.length)
      else ∃ chassis port ttl optional last,
        ts = chassis :: port :: ttl :: (optional ++ [last]) ∧
        Judged chassis port ttl optional last (decode bytes)) ∧
    ∀ e, decode bytes = .error e → e.kind ∈ [ErrorKind.unexpectedEnd, .incompleteFrame,
      .invalidChassisId, .invalidPortId, .invalidTtl, .invalidEnd] := by
  obtain ⟨ts, rest, hgreedy⟩ := Tlv.exists_greedy bytes
  exact ⟨decodeAt_eq bytes, ⟨ts, rest, hgreedy, fun _ _ => hgreedy.unique,
    decode_of_greedy hgreedy⟩, fun _ => kind_mem_of_decode⟩

/-- A TLV out of place and an octet to spare: the octet is the fault, since what is
in its place is not looked at. -/
theorem stray_octet_verdict :
    let bytes : Octets := [0x12, 0x01, 0xff, 0x02]
    Tlv.Greedy bytes [⟨9, 1, [0xff]⟩] [0x02] ∧
    decodeAt bytes = some (.error (.truncated 2 1)) ∧
    decode bytes = .error (.truncated 2 1) ∧
    (Error.truncated 2 1).kind ∈ [ErrorKind.unexpectedEnd, .incompleteFrame,
      .invalidChassisId, .invalidPortId, .invalidTtl, .invalidEnd] := by
  intro bytes
  obtain ⟨hat, ⟨ts, rest, -, hunique, hverdict⟩, hkinds⟩ := decode_verdict bytes
  have hcut : Tlv.Greedy bytes [⟨9, 1, [0xff]⟩] [0x02] := .next rfl (.rest (by decide))
  obtain ⟨rfl, rfl⟩ := hunique _ _ hcut
  rw [if_pos (by decide)] at hverdict
  rw [hverdict] at hat
  exact ⟨hcut, hat, hverdict, hkinds _ hverdict⟩

end Frame
end Lldp
